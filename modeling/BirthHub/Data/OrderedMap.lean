import Mathlib.Data.List.Nodup

/-!
# Maps in insertion order

A JavaScript `Map` keeps its entries in the order in which their keys were first set.
Setting a key that is there replaces the value in its place, so of the values set one
after another under their own keys the map keeps the last of each key.
-/

namespace Data

structure OrderedMap (κ ν : Type) where
  entries : List (κ × ν)
  distinct : (entries.map Prod.fst).Nodup

namespace OrderedMap

variable {κ ν : Type} [DecidableEq κ]

def empty : OrderedMap κ ν := ⟨[], .nil⟩

def get (m : OrderedMap κ ν) (k : κ) : Option ν :=
  (m.entries.find? (decide <| ·.1 = k)).map Prod.snd

/-- `map.set(k, v)`. -/
def set (m : OrderedMap κ ν) (k : κ) (v : ν) : OrderedMap κ ν :=
  if there : k ∈ m.entries.map Prod.fst then {
    entries := m.entries.map fun e => if e.1 = k then (k, v) else e
    distinct := by
      have same : (m.entries.map fun e => if e.1 = k then (k, v) else e).map Prod.fst =
          m.entries.map Prod.fst := by
        rw [List.map_map]
        refine List.map_congr_left fun e _ => ?_
        by_cases hit : e.1 = k <;> simp [hit]
      exact same ▸ m.distinct }
  else {
    entries := m.entries ++ [(k, v)]
    distinct := by
      rw [List.map_append, List.nodup_append]
      refine ⟨m.distinct, List.nodup_singleton _, ?_⟩
      intro a inside b last
      rw [List.mem_singleton.mp last]
      rintro rfl
      exact there inside }

/-- The entries that pass, in their order. -/
def filter (m : OrderedMap κ ν) (p : κ × ν → Bool) : OrderedMap κ ν where
  entries := m.entries.filter p
  distinct := m.distinct.sublist (List.filter_sublist.map _)

/-- `Array.from(map.values())`. -/
def values (m : OrderedMap κ ν) : List ν := m.entries.map Prod.snd

def keys (m : OrderedMap κ ν) : List κ := m.entries.map Prod.fst

/-- Set each value under its own key, one after another. -/
def setAll (key : ν → κ) (m : OrderedMap κ ν) (vs : List ν) : OrderedMap κ ν :=
  vs.foldl (fun m v => m.set (key v) v) m

variable {m : OrderedMap κ ν} {k k' : κ} {v : ν} {key : ν → κ} {vs : List ν}

theorem get_eq_some : m.get k = some v ↔ (k, v) ∈ m.entries := by
  constructor
  · intro found
    obtain ⟨e, hit, rfl⟩ := Option.map_eq_some_iff.mp found
    obtain rfl : e.1 = k := by simpa using List.find?_some hit
    exact List.mem_of_find?_eq_some hit
  · intro inside
    have some : (m.entries.find? (decide <| ·.1 = k)).isSome := by
      rw [List.find?_isSome]
      exact ⟨(k, v), inside, by simp⟩
    obtain ⟨e, hit⟩ := Option.isSome_iff_exists.mp some
    have same : e.1 = k := by simpa using List.find?_some hit
    have one : e = (k, v) :=
      List.inj_on_of_nodup_map m.distinct (List.mem_of_find?_eq_some hit) inside same
    rw [get, hit, one]
    rfl

theorem mem_values : v ∈ m.values ↔ ∃ k, m.get k = some v := by
  simp [values, get_eq_some]

theorem get_set : (m.set k v).get k' = if k' = k then some v else m.get k' := by
  refine Option.ext fun v' => ?_
  rw [get_eq_some, set]
  split
  · rename_i there
    simp only [List.mem_map]
    by_cases same : k' = k
    · subst same
      obtain ⟨e, inside, hit⟩ := List.mem_map.mp there
      simp only [if_pos, Option.some.injEq]
      constructor
      · rintro ⟨e', _, equal⟩
        split at equal
        · exact (Prod.mk.inj equal).2
        · rename_i other
          exact (other (congrArg Prod.fst equal)).elim
      · rintro rfl
        exact ⟨e, inside, if_pos hit⟩
    · rw [if_neg same, get_eq_some]
      constructor
      · rintro ⟨e', inside, equal⟩
        split at equal
        · exact (same (Prod.mk.inj equal).1.symm).elim
        · exact equal ▸ inside
      · exact fun inside => ⟨_, inside, if_neg same⟩
  · rename_i absent
    rw [List.mem_append, List.mem_singleton]
    by_cases same : k' = k
    · subst same
      simp only [if_pos, Option.some.injEq]
      constructor
      · rintro (inside | equal)
        · exact (absent (List.mem_map_of_mem inside)).elim
        · exact (Prod.mk.inj equal).2.symm
      · rintro rfl
        exact .inr rfl
    · rw [if_neg same, get_eq_some]
      constructor
      · rintro (inside | equal)
        · exact inside
        · exact (same (Prod.mk.inj equal).1).elim
      · exact .inl

omit [DecidableEq κ] in
theorem ext_entries {m m' : OrderedMap κ ν} (same : m.entries = m'.entries) : m = m' := by
  cases m
  cases m'
  cases same
  rfl

theorem get_filter {p : κ × ν → Bool} : (m.filter p).get k = (m.get k).filter fun v => p (k, v) := by
  refine Option.ext fun v => ?_
  rw [get_eq_some, Option.filter_eq_some_iff, get_eq_some]
  exact List.mem_filter

omit [DecidableEq κ] in
theorem filter_comm (p q : κ × ν → Bool) : (m.filter p).filter q = (m.filter q).filter p :=
  ext_entries (by simp only [filter, List.filter_filter, Bool.and_comm])

/-- A filter on keys takes a key that is set, or does not see it. -/
theorem filter_set (p : κ → Bool) : (m.set k v).filter (fun e => p e.1) =
    if p k then (m.filter fun e => p e.1).set k v else m.filter fun e => p e.1 := by
  have replaced (entries : List (κ × ν)) :
      (entries.map fun e => if e.1 = k then (k, v) else e).filter (fun e => p e.1) =
        (entries.filter fun e => p e.1).map fun e => if e.1 = k then (k, v) else e := by
    rw [List.filter_map]
    congr 1
    refine List.filter_congr fun e _ => ?_
    by_cases hit : e.1 = k <;> simp [hit]
  refine ext_entries ?_
  by_cases passes : p k = true
  · have there : k ∈ (m.filter fun e => p e.1).entries.map Prod.fst ↔
        k ∈ m.entries.map Prod.fst := by
      simp only [filter, List.mem_map, List.mem_filter]
      constructor
      · rintro ⟨e, ⟨inside, _⟩, rfl⟩
        exact ⟨e, inside, rfl⟩
      · rintro ⟨e, inside, rfl⟩
        exact ⟨e, ⟨inside, passes⟩, rfl⟩
    rw [if_pos passes]
    unfold set
    by_cases held : k ∈ m.entries.map Prod.fst
    · rw [dif_pos held, dif_pos (there.mpr held)]
      exact replaced m.entries
    · rw [dif_neg held, dif_neg (there.not.mpr held)]
      simp [filter, passes]
  · rw [if_neg passes]
    unfold set
    split
    · have same : (m.entries.filter fun e => p e.1).map (fun e => if e.1 = k then (k, v) else e) =
          m.entries.filter fun e => p e.1 := by
        refine (List.map_congr_left fun e inside => ?_).trans (List.map_id _)
        refine if_neg fun hit => passes ?_
        rw [← hit]
        exact (List.mem_filter.mp inside).2
      exact (replaced m.entries).trans same
    · simp [filter, passes]

/-- Under a key there is the last value set under it, or what was there before. -/
theorem get_setAll :
    (m.setAll key vs).get k = (vs.reverse.find? (decide <| key · = k)).or (m.get k) := by
  induction vs generalizing m with
  | nil => rfl
  | cons v vs ih =>
      have next : m.setAll key (v :: vs) = (m.set (key v) v).setAll key vs := rfl
      rw [next, ih, get_set, List.reverse_cons, List.find?_append, Option.or_assoc]
      congr 1
      by_cases same : key v = k
      · simp [same]
      · simp [same, Ne.symm same]

theorem entries_set_of_new (new : k ∉ m.keys) : (m.set k v).entries = m.entries ++ [(k, v)] := by
  unfold set
  exact congrArg entries (dif_neg new)

/-- A key that is set anew comes last, and the others keep their place. -/
theorem keys_set : (m.set k v).keys = if k ∈ m.keys then m.keys else m.keys ++ [k] := by
  unfold set keys
  split
  · rename_i there
    rw [List.map_map]
    refine List.map_congr_left fun e _ => ?_
    by_cases hit : e.1 = k <;> simp [hit]
  · rw [List.map_append]
    rfl

theorem mem_keys : k ∈ m.keys ↔ (m.get k).isSome := by
  simp [keys, Option.isSome_iff_exists, get_eq_some]

theorem values_eq : m.values = m.keys.filterMap m.get := by
  unfold values keys
  rw [List.filterMap_map, ← List.filterMap_eq_map]
  refine List.filterMap_congr fun e inside => ?_
  exact (get_eq_some.mpr inside).symm

/-- No later value has the key of `v`, and `v` is among the values. -/
def IsLast (key : ν → κ) (vs : List ν) (v : ν) : Prop :=
  ∃ before after, vs = before ++ v :: after ∧ ∀ v' ∈ after, key v' ≠ key v

omit [DecidableEq κ] in
theorem IsLast.mem (last : IsLast key vs v) : v ∈ vs := by
  obtain ⟨before, after, rfl, _⟩ := last
  exact List.mem_append_right _ List.mem_cons_self

/-- The values that are kept are the last ones of each key. -/
theorem mem_values_setAll : v ∈ (setAll key empty vs).values ↔ IsLast key vs v := by
  have kept (k : κ) : (setAll key empty vs).get k = vs.reverse.find? (decide <| key · = k) := by
    rw [get_setAll, show (empty : OrderedMap κ ν).get k = none from rfl, Option.or_none]
  simp only [mem_values, kept, List.find?_eq_some_iff_append]
  constructor
  · rintro ⟨k, hit, after, before, split, others⟩
    obtain rfl : key v = k := by simpa using hit
    refine ⟨before.reverse, after.reverse, ?_, fun v' inside => ?_⟩
    · have turned := congrArg List.reverse split
      simpa using turned
    · simpa using others v' (List.mem_reverse.mp inside)
  · rintro ⟨before, after, rfl, others⟩
    refine ⟨key v, by simp, after.reverse, before.reverse, by simp, fun v' inside => ?_⟩
    simpa using others v' (List.mem_reverse.mp inside)

end OrderedMap

end Data
