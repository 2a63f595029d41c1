import Mathlib.Data.List.Basic
import Mathlib.Data.List.Pairwise
import Mathlib.Data.List.Sort

/-!
# Tables with unique keys

A `Table` is a list of rows, oldest first, no two of which share a value of a unique
key. A type of rows says which values are unique by `Schema.keys`: the primary key and
the value of each unique index, each under its own constructor, so that values of
different indexes never collide. Inserting a row that collides fails; updates keep the
unique values.
-/

namespace Data

/-- The unique values of a row. -/
class Schema (ρ : Type) where
  Key : Type
  keys : ρ → List Key
  decEq : DecidableEq Key := by infer_instance

instance {ρ : Type} [Schema ρ] : DecidableEq (Schema.Key ρ) := Schema.decEq

structure Table (ρ : Type) [Schema ρ] where
  rows : List ρ
  unique : rows.Pairwise fun a b => (Schema.keys a).Disjoint (Schema.keys b)

namespace Table

variable {ρ : Type} [Schema ρ]

def empty : Table ρ := ⟨[], .nil⟩

instance : Inhabited (Table ρ) := ⟨empty⟩

/-- The row that holds a unique value. -/
def get (t : Table ρ) (k : Schema.Key ρ) : Option ρ :=
  t.rows.find? fun r => decide (k ∈ Schema.keys r)

/-- A row of the table already holds a unique value of `r`. -/
def collides (t : Table ρ) (r : ρ) : Bool :=
  t.rows.any fun a => (Schema.keys a).any fun k => decide (k ∈ Schema.keys r)

/-- Append a row; `none` when a unique constraint refuses it. -/
def insert (t : Table ρ) (r : ρ) : Option (Table ρ) :=
  if free : t.collides r = false then
    some {
      rows := t.rows ++ [r]
      unique := by
        refine List.pairwise_append.mpr ⟨t.unique, List.pairwise_singleton _ _, ?_⟩
        intro a there b last
        rw [List.mem_singleton.mp last]
        intro k inA inR
        have found : t.collides r = true := by
          simp only [collides, List.any_eq_true, decide_eq_true_eq]
          exact ⟨a, there, k, inA, inR⟩
        rw [free] at found
        cases found }
  else none

/-- Update the rows that satisfy `p`. -/
def update (t : Table ρ) (p : ρ → Bool) (f : ρ → ρ)
    (keeps : ∀ r, Schema.keys (f r) = Schema.keys r) : Table ρ where
  rows := t.rows.map fun r => if p r then f r else r
  unique := by
    have same : ∀ r, Schema.keys (if p r then f r else r) = Schema.keys r := by
      intro r
      split
      · exact keeps r
      · rfl
    refine List.pairwise_map.mpr (t.unique.imp fun apart => ?_)
    rw [same, same]
    exact apart

instance : DecidableRel fun a b : ρ => (Schema.keys a).Disjoint (Schema.keys b) := fun a b =>
  decidable_of_iff (∀ k ∈ Schema.keys a, k ∉ Schema.keys b)
    ⟨fun apart _ inA inB => apart _ inA inB, fun apart _ inA inB => apart inA inB⟩

/-- Update the rows that satisfy `p`; `none` when a unique constraint refuses it. -/
def change (t : Table ρ) (p : ρ → Bool) (f : ρ → ρ) : Option (Table ρ) :=
  if unique : (t.rows.map fun r => if p r then f r else r).Pairwise
      fun a b => (Schema.keys a).Disjoint (Schema.keys b) then
    some ⟨t.rows.map fun r => if p r then f r else r, unique⟩
  else none

/-- Delete the rows that satisfy `p`. -/
def remove (t : Table ρ) (p : ρ → Bool) : Table ρ where
  rows := t.rows.filter fun r => !p r
  unique := t.unique.filter _

variable {t t' : Table ρ} {r : ρ} {k : Schema.Key ρ} {p : ρ → Bool} {f : ρ → ρ}
  {keeps : ∀ r, Schema.keys (f r) = Schema.keys r}

/-- Rows that share a unique value are one row. -/
theorem eq_of_keys {a b : ρ} (inA : a ∈ t.rows) (inB : b ∈ t.rows)
    (keyA : k ∈ Schema.keys a) (keyB : k ∈ Schema.keys b) : a = b := by
  have symm : Std.Symm fun a b : ρ => k ∈ Schema.keys a → k ∈ Schema.keys b → a = b :=
    ⟨fun _ _ same keyB keyA => (same keyA keyB).symm⟩
  have shared : t.rows.Pairwise fun a b => k ∈ Schema.keys a → k ∈ Schema.keys b → a = b :=
    t.unique.imp fun apart keyA keyB => (apart keyA keyB).elim
  exact shared.forall_of_forall (fun _ _ _ _ => rfl) inA inB keyA keyB

theorem get_eq_some : t.get k = some r ↔ r ∈ t.rows ∧ k ∈ Schema.keys r := by
  constructor
  · intro found
    exact ⟨List.mem_of_find?_eq_some found, by simpa using List.find?_some found⟩
  · rintro ⟨there, key⟩
    cases found : t.get k with
    | none =>
        have absent := List.find?_eq_none.mp found r there
        simp [key] at absent
    | some a =>
        have other : a ∈ t.rows := List.mem_of_find?_eq_some found
        have otherKey : k ∈ Schema.keys a := by simpa using List.find?_some found
        rw [eq_of_keys other there otherKey key]

theorem get_eq_none : t.get k = none ↔ ∀ r ∈ t.rows, k ∉ Schema.keys r := by
  simp [get, List.find?_eq_none]

theorem mem_update {a : ρ} :
    a ∈ (t.update p f keeps).rows ↔ ∃ r ∈ t.rows, a = if p r then f r else r :=
  List.mem_map.trans (exists_congr fun _ => and_congr_right fun _ => eq_comm)

theorem get_update :
    (t.update p f keeps).get k = (t.get k).map fun r => if p r then f r else r := by
  have same : ∀ r, Schema.keys (if p r then f r else r) = Schema.keys r := by
    intro r
    split
    · exact keeps r
    · rfl
  simp only [get, update, List.find?_map]
  congr 2
  funext r
  simp [same]

theorem change_rows {p : ρ → Bool} {f : ρ → ρ} (changed : t.change p f = some t') :
    t'.rows = t.rows.map fun r => if p r then f r else r := by
  unfold change at changed
  split at changed
  · cases changed
    rfl
  · cases changed

/-- A row is found as before, and changed, by a unique value that the change leaves. -/
theorem get_change {p : ρ → Bool} {f : ρ → ρ} (changed : t.change p f = some t')
    (leaves : ∀ r, k ∈ Schema.keys (f r) ↔ k ∈ Schema.keys r) :
    t'.get k = (t.get k).map fun r => if p r then f r else r := by
  have same : ∀ r, k ∈ Schema.keys (if p r then f r else r) ↔ k ∈ Schema.keys r := by
    intro r
    split
    · exact leaves r
    · rfl
  simp only [get, change_rows changed, List.find?_map]
  congr 2
  funext r
  simp [same]

/-- What is inserted is appended, and shares no unique value with the rows before. -/
theorem insert_eq_some :
    t.insert r = some t' ↔ t'.rows = t.rows ++ [r] ∧
      ∀ a ∈ t.rows, (Schema.keys a).Disjoint (Schema.keys r) := by
  have free : t.collides r = false ↔ ∀ a ∈ t.rows, (Schema.keys a).Disjoint (Schema.keys r) := by
    simp [collides, List.Disjoint]
  rw [← free]
  constructor
  · intro inserted
    unfold insert at inserted
    split at inserted
    · rename_i empty
      cases Option.some.inj inserted
      exact ⟨rfl, empty⟩
    · cases inserted
  · rintro ⟨rows, empty⟩
    obtain ⟨rows', unique⟩ := t'
    subst rows
    simp [insert, empty]

theorem get_insert (inserted : t.insert r = some t') :
    t'.get k = if k ∈ Schema.keys r then some r else t.get k := by
  obtain ⟨rows, apart⟩ := insert_eq_some.mp inserted
  split
  · rename_i key
    exact get_eq_some.mpr ⟨by simp [rows], key⟩
  · rename_i other
    simp [get, rows, List.find?_append, other]

theorem exists_insert (apart : ∀ a ∈ t.rows, (Schema.keys a).Disjoint (Schema.keys r)) :
    ∃ t', t.insert r = some t' := by
  have free : t.collides r = false := by simpa [collides, List.Disjoint] using apart
  exact ⟨_, by simp [insert, free]; rfl⟩

/-- Every row of `t` is still in `t'`, under the same unique values, as a row that `R`
relates it to. -/
def Grows (R : ρ → ρ → Prop) (t t' : Table ρ) : Prop :=
  ∀ k r, t.get k = some r → ∃ r', t'.get k = some r' ∧ Schema.keys r' = Schema.keys r ∧ R r r'

theorem Grows.refl {R : ρ → ρ → Prop} (same : ∀ r, R r r) : Grows R t t :=
  fun _ r found => ⟨r, found, rfl, same r⟩

theorem Grows.insert {R : ρ → ρ → Prop} (same : ∀ r, R r r) (inserted : t.insert r = some t') :
    Grows R t t' := by
  intro k a found
  obtain ⟨there, key⟩ := get_eq_some.mp found
  have apart := (insert_eq_some.mp inserted).2 a there key
  exact ⟨a, by rw [get_insert inserted, if_neg apart, found], rfl, same a⟩

theorem Grows.update {R : ρ → ρ → Prop} (keeps : ∀ r, Schema.keys (f r) = Schema.keys r)
    (updated : t' = t.update p f keeps) (same : ∀ r, R r r) (updates : ∀ r, R r (f r)) :
    Grows R t t' := by
  intro k a found
  refine ⟨_, by rw [updated, get_update, found]; rfl, ?_⟩
  dsimp only
  split
  · exact ⟨keeps a, updates a⟩
  · exact ⟨rfl, same a⟩

end Table

/-! ## Queries in descending order -/

/-- A list that decreases nowhere for the sort is turned around by it. -/
theorem insertionSort_eq_reverse {α : Type} {r : α → α → Prop} [DecidableRel r] {items : List α}
    (falling : items.Pairwise fun a b => ¬ r a b) : items.insertionSort r = items.reverse := by
  have insert_last {a : α} {sorted : List α} (last : ∀ b ∈ sorted, ¬ r a b) :
      sorted.orderedInsert r a = sorted ++ [a] := by
    induction sorted with
    | nil => rfl
    | cons b sorted ih =>
        rw [List.orderedInsert_of_not_le _ _ (last b List.mem_cons_self),
          ih fun c inside => last c (List.mem_cons_of_mem _ inside)]
        rfl
  induction items with
  | nil => rfl
  | cons a items ih =>
      obtain ⟨above, rest⟩ := List.pairwise_cons.mp falling
      rw [List.insertionSort_cons, ih rest, List.reverse_cons]
      exact insert_last fun b inside => above b (List.mem_reverse.mp inside)

end Data
