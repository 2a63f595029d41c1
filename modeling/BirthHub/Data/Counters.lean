import Mathlib.Data.List.Chain
import Mathlib.Data.List.Nodup
import Mathlib.Logic.Function.Basic

/-!
# Counters that expire

A store of counters under keys, with a clock. `INCR` counts up from the counter that is there, or
from zero; `EXPIRE` sets the time at which a counter is gone. A counter without such a time stays.
-/

namespace Data

structure Counter where
  value : Nat
  expiresAt : Option Int := none
deriving DecidableEq

/-- The counter is still there at this time. -/
def Counter.lives (counter : Counter) (now : Int) : Bool :=
  counter.expiresAt.all fun expiresAt => now < expiresAt

structure Counters where
  now : Int := 0
  stored : String → Option Counter := fun _ => none

namespace Counters

variable (s : Counters) (key : String)

def get : Option Counter := (s.stored key).filter (·.lives s.now)

/-- The counter after one more. -/
def next : Counter :=
  match s.get key with
  | none => { value := 1 }
  | some counter => { counter with value := counter.value + 1 }

/-- `INCR`, without its answer, which is the value of `next`. -/
def incr : Counters := { s with stored := Function.update s.stored key (some (s.next key)) }

/-- `PEXPIRE`; a counter that is not there is not made. -/
def expire (millis : Nat) : Counters :=
  match s.get key with
  | none => s
  | some counter =>
      { s with
        stored := Function.update s.stored key
          (some { counter with expiresAt := some (s.now + millis) }) }

/-- Time passes. -/
def wait (millis : Nat) : Counters := { s with now := s.now + millis }

variable {s key}

theorem get_eq_some {counter : Counter} :
    s.get key = some counter ↔ s.stored key = some counter ∧ counter.lives s.now = true :=
  Option.filter_eq_some_iff

@[simp] theorem incr_now : (s.incr key).now = s.now := rfl

@[simp] theorem expire_now {millis : Nat} : (s.expire key millis).now = s.now := by
  unfold expire
  split <;> rfl

theorem stored_incr {other : String} :
    (s.incr key).stored other = if other = key then some (s.next key) else s.stored other := by
  unfold incr
  by_cases same : other = key
  · rw [same, if_pos rfl]
    exact Function.update_self ..
  · rw [if_neg same]
    exact Function.update_of_ne same ..

theorem expire_of_none {millis : Nat} (gone : s.get key = none) : s.expire key millis = s := by
  rw [expire, gone]

theorem stored_expire {counter : Counter} {millis : Nat} (there : s.get key = some counter) :
    (s.expire key millis).stored key =
      some { counter with expiresAt := some (s.now + millis) } := by
  rw [expire, there]
  exact Function.update_self ..

theorem stored_expire_other {other : String} {millis : Nat} (differs : other ≠ key) :
    (s.expire key millis).stored other = s.stored other := by
  unfold expire
  split
  · rfl
  · exact Function.update_of_ne differs ..

/-- `INCR` goes on from the counter that is there, and keeps its time. -/
theorem next_of_get {counter : Counter} (there : s.get key = some counter) :
    s.next key = { counter with value := counter.value + 1 } := by
  rw [next, there]

theorem next_of_none (gone : s.get key = none) : s.next key = { value := 1 } := by
  rw [next, gone]

theorem next_pos : 0 < (s.next key).value := by
  cases there : s.get key with
  | none =>
      rw [next_of_none there]
      exact Nat.one_pos
  | some counter =>
      rw [next_of_get there]
      exact Nat.succ_pos _

theorem get_incr : (s.incr key).get key = some (s.next key) := by
  refine get_eq_some.mpr ⟨by rw [stored_incr, if_pos rfl], ?_⟩
  cases there : s.get key with
  | none =>
      rw [next_of_none there]
      rfl
  | some counter =>
      rw [next_of_get there]
      exact (get_eq_some.mp there).2

theorem next_value_eq_one {counter : Counter} (there : s.get key = some counter)
    (positive : 0 < counter.value) : (s.next key).value ≠ 1 := by
  rw [next_of_get there]
  dsimp only
  omega

end Counters

/-! ## Counts in a row -/

/-- Different positive numbers up to a bound are as many at most. -/
theorem length_le_of_nodup {numbers : List Nat} {bound : Nat} (distinct : numbers.Nodup)
    (within : ∀ n ∈ numbers, 0 < n ∧ n ≤ bound) : numbers.length ≤ bound := by
  have inside : numbers ⊆ List.range' 1 bound := by
    intro n there
    obtain ⟨positive, most⟩ := within n there
    rw [List.mem_range'_1]
    omega
  have shorter := distinct.length_le_of_subset inside
  rwa [List.length_range'] at shorter

/-- The counts since the last first one; the newest is the first in the list. -/
def sinceFirst {α : Type} (count : α → Nat) : List α → List α
  | [] => []
  | a :: rest => if count a = 1 then [a] else a :: sinceFirst count rest

/-- A first count, or one above the count before it. -/
def CountsOn {α : Type} (count : α → Nat) (newer older : α) : Prop :=
  count newer = 1 ∨ count older < count newer

section

variable {α : Type} {count : α → Nat} {l : List α}

theorem mem_of_sinceFirst {a : α} (inside : a ∈ sinceFirst count l) : a ∈ l := by
  induction l with
  | nil => exact inside
  | cons b rest ih =>
      rw [sinceFirst] at inside
      split at inside
      · exact List.mem_cons.mpr (.inl (List.mem_singleton.mp inside))
      · rcases List.mem_cons.mp inside with same | later
        · exact List.mem_cons.mpr (.inl same)
        · exact List.mem_cons_of_mem _ (ih later)

/-- The counts since a first one decrease from the newest on. -/
theorem sinceFirst_decreasing (chain : l.IsChain (CountsOn count)) :
    (sinceFirst count l).Pairwise fun newer older => count older < count newer := by
  induction l with
  | nil => exact .nil
  | cons a rest ih =>
      rw [sinceFirst]
      split
      · exact List.pairwise_singleton _ a
      · rename_i later
        have ordered := ih chain.tail
        refine List.pairwise_cons.mpr ⟨fun b inside => ?_, ordered⟩
        cases rest with
        | nil => cases inside
        | cons c rest =>
            have above : count c < count a :=
              (List.isChain_cons_cons.mp chain).1.resolve_left later
            rw [sinceFirst] at inside ordered
            split at inside
            · rwa [List.mem_singleton.mp inside]
            · rename_i more
              rw [if_neg more] at ordered
              rcases List.mem_cons.mp inside with same | older
              · rwa [same]
              · exact Nat.lt_trans ((List.pairwise_cons.mp ordered).1 b older) above

/-- Of the counts since a first one as many as the bound are within it, at most. -/
theorem length_filter_sinceFirst_le {within : α → Bool} {bound : Nat}
    (chain : l.IsChain (CountsOn count)) (positive : ∀ a ∈ l, 0 < count a)
    (most : ∀ a ∈ l, within a = true → count a ≤ bound) :
    ((sinceFirst count l).filter within).length ≤ bound := by
  have decreasing := (sinceFirst_decreasing chain).filter within
  have distinct : (((sinceFirst count l).filter within).map count).Nodup :=
    List.pairwise_map.mpr (decreasing.imp fun less => Nat.ne_of_gt less)
  have numbers : ∀ n ∈ ((sinceFirst count l).filter within).map count, 0 < n ∧ n ≤ bound := by
    intro n there
    obtain ⟨a, inside, rfl⟩ := List.mem_map.mp there
    obtain ⟨inside, passes⟩ := List.mem_filter.mp inside
    have there := mem_of_sinceFirst inside
    exact ⟨positive a there, most a there passes⟩
  have shorter := length_le_of_nodup distinct numbers
  rwa [List.length_map] at shorter

end

end Data
