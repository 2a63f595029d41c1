import BirthHub.Data.OrderedMap
import Mathlib.Algebra.Order.Ring.Rat
import Mathlib.Logic.Function.Basic

/-!
# Sorted sets that expire

A store of sorted sets under keys, with a clock. A member has one score; a set without members is
gone, and so is one whose time has come, with its scores, at the next command that is about it.
-/

namespace Data

structure ScoredSet where
  scores : OrderedMap String ℚ
  expiresAt : Option ℚ := none

/-- The set is still there at this time. -/
def ScoredSet.lives (set : ScoredSet) (now : ℚ) : Bool :=
  set.expiresAt.all fun expiresAt => now < expiresAt

structure ScoredSets where
  now : ℚ := 0
  sets : String → Option ScoredSet := fun _ => none

namespace ScoredSets

variable (s : ScoredSets) (key : String)

def get : Option ScoredSet := (s.sets key).filter (·.lives s.now)

/-- The scores that a command finds. -/
def scores : OrderedMap String ℚ := (s.get key).elim .empty ScoredSet.scores

def put (set : Option ScoredSet) : ScoredSets := { s with sets := Function.update s.sets key set }

/-- `ZREMRANGEBYSCORE`, both ends included. -/
def zremrangebyscore (low high : ℚ) : ScoredSets :=
  let kept := (s.scores key).filter fun e => ¬ (low ≤ e.2 ∧ e.2 ≤ high)
  s.put key ((s.get key).bind fun set =>
    if kept.entries = [] then none else some { set with scores := kept })

/-- `ZADD` of one member. -/
def zadd (member : String) (score : ℚ) : ScoredSets :=
  s.put key (some {
    scores := (s.scores key).set member score
    expiresAt := (s.get key).bind ScoredSet.expiresAt })

/-- `ZCARD`. -/
def zcard : Nat := (s.scores key).entries.length

/-- `EXPIRE`; a set that is not there is not made. -/
def expire (seconds : Nat) : ScoredSets :=
  s.put key ((s.get key).map fun set => { set with expiresAt := some (s.now + seconds) })

/-- The scores that were put under a key, whether or not their time has come. -/
def held : OrderedMap String ℚ := (s.sets key).elim .empty ScoredSet.scores

/-- There is no set under the key whose time has come. -/
def isFresh : Bool := (s.sets key).all (·.lives s.now)

variable {s key} {other : String} {member : String} {score low high : ℚ} {seconds : Nat}
  {set : Option ScoredSet}

@[simp] theorem put_now : (s.put key set).now = s.now := rfl

@[simp] theorem sets_put_self : (s.put key set).sets key = set := Function.update_self ..

theorem sets_put_other (differs : other ≠ key) : (s.put key set).sets other = s.sets other :=
  Function.update_of_ne differs ..

theorem held_put_self : (s.put key set).held key = set.elim .empty ScoredSet.scores := by
  rw [held, sets_put_self]

theorem held_put_other (differs : other ≠ key) : (s.put key set).held other = s.held other := by
  rw [held, held, sets_put_other differs]

theorem get_of_isFresh (fresh : s.isFresh key = true) : s.get key = s.sets key := by
  unfold get
  rw [isFresh] at fresh
  cases there : s.sets key with
  | none => rfl
  | some set =>
      rw [there] at fresh
      exact Option.filter_some_pos fresh

theorem scores_of_isFresh (fresh : s.isFresh key = true) : s.scores key = s.held key := by
  rw [scores, held, get_of_isFresh fresh]

theorem zcard_of_isFresh (fresh : s.isFresh key = true) :
    s.zcard key = (s.held key).entries.length := by
  rw [zcard, scores_of_isFresh fresh]

theorem held_zremrangebyscore_other (differs : other ≠ key) :
    (s.zremrangebyscore key low high).held other = s.held other := held_put_other differs

theorem held_zadd_other (differs : other ≠ key) :
    (s.zadd key member score).held other = s.held other := held_put_other differs

theorem held_expire_other (differs : other ≠ key) :
    (s.expire key seconds).held other = s.held other := held_put_other differs

/-- Where every score is above the range, nothing is removed. -/
theorem held_zremrangebyscore (fresh : s.isFresh key = true)
    (above : ∀ e ∈ (s.held key).entries, high < e.2) :
    (s.zremrangebyscore key low high).held key = s.held key := by
  have all : ((s.held key).filter fun e => ¬ (low ≤ e.2 ∧ e.2 ≤ high)) = s.held key := by
    refine OrderedMap.ext_entries (List.filter_eq_self.mpr fun e inside => decide_eq_true ?_)
    exact fun range => absurd range.2 (not_le.mpr (above e inside))
  rw [zremrangebyscore, held_put_self, scores_of_isFresh fresh, all, get_of_isFresh fresh]
  cases there : s.sets key with
  | none =>
      rw [held, there]
      rfl
  | some set =>
      rw [Option.bind_some]
      split
      · rename_i empty
        exact (OrderedMap.ext_entries empty).symm
      · rw [held, there]
        rfl

theorem isFresh_zremrangebyscore (fresh : s.isFresh key = true) :
    (s.zremrangebyscore key low high).isFresh key = true := by
  rw [isFresh, zremrangebyscore, sets_put_self, put_now, get_of_isFresh fresh]
  rw [isFresh] at fresh
  cases there : s.sets key with
  | none => rfl
  | some set =>
      rw [there] at fresh
      rw [Option.bind_some]
      split
      · rfl
      · exact fresh

theorem held_zadd (fresh : s.isFresh key = true) :
    (s.zadd key member score).held key = (s.held key).set member score := by
  rw [zadd, held_put_self, scores_of_isFresh fresh]
  rfl

theorem isFresh_zadd (fresh : s.isFresh key = true) :
    (s.zadd key member score).isFresh key = true := by
  rw [isFresh, zadd, sets_put_self, put_now, get_of_isFresh fresh]
  rw [isFresh] at fresh
  cases there : s.sets key with
  | none => rfl
  | some set =>
      rw [there] at fresh
      exact fresh

theorem held_expire (fresh : s.isFresh key = true) :
    (s.expire key seconds).held key = s.held key := by
  rw [expire, held_put_self, get_of_isFresh fresh, held]
  cases s.sets key <;> rfl

end ScoredSets

end Data
