import BirthHub.Data.Counters
import BirthHub.Data.Decimals
import BirthHub.Data.Json
import BirthHub.Effect.Moves
import BirthHub.Effect.Stamped

/-!
# The rate limiter of the worker

`DynamicRateLimiter` of `apps/worker/src/lib/rate-limiter.ts` counts the calls of a fixed window
under a key of its own, and sets the expiry of the key in the transaction that counts. A command
of a transaction may be answered by an error, and a call whose increment is answered so returns as
if it had been counted. Where that does not happen, every call that returns was counted, and as
many as the limit return in a window.
-/

namespace RateLimiter

open Data Effect

/-! ## The calls -/

/-- The clock is read; or `multi().incr(redisKey).expire(redisKey, seconds).exec()`. -/
inductive LimitOp
  | now
  | exec (redisKey : String) (seconds : Nat)

/-- A transaction is answered by `null`, or by the values of its commands; one that is answered by
an error has none. -/
abbrev LimitOp.Result : LimitOp → Type
  | .now => Int
  | .exec .. => Option (List (Option Nat))

abbrev LimitIface : Iface where
  Op := LimitOp
  Res := LimitOp.Result
  Err := Thrown

def awaitLimit (o : LimitOp) : Prog LimitIface o.Result := Prog.perform (I := LimitIface) o

structure RatePolicy where
  limit : ℚ
  windowSeconds : Nat
  positive : 0 < windowSeconds

def RatePolicy.windowMillis (policy : RatePolicy) : Int := 1000 * policy.windowSeconds

def redisKey (key : String) (currentWindow : Int) : String :=
  "rate_limit:" ++ key ++ ":" ++ toString currentWindow

def consume (policy : RatePolicy) (key : String) : Prog LimitIface Unit := do
  let now : Int ← awaitLimit .now
  let currentWindow := now / policy.windowMillis
  let results : Option (List (Option Nat)) ←
    awaitLimit (.exec (redisKey key currentWindow) (policy.windowSeconds * 2))
  match results with
  | none | some [] => Prog.throw (error "Failed to execute rate limit check")
  | some (count :: _) =>
      -- no number is above the limit where there is none
      if count.any fun count : Nat => decide (policy.limit < (count : ℚ)) then
        Prog.throw (error ("Rate limit exceeded for key: " ++ key))
      else pure ()

/-! ## The counters -/

/-- Both commands, each of which is either carried out or answered by an error. -/
def transact (s : Counters) (key : String) (incr expire : Bool) (seconds : Nat) : Counters :=
  let s := if incr then s.incr key else s
  if expire then s.expire key (seconds * 1000) else s

def replies (s : Counters) (key : String) (incr expire : Bool) : List (Option Nat) :=
  [if incr then some (s.next key).value else none,
    if expire then some (if incr || (s.get key).isSome then 1 else 0) else none]

/-- What becomes of a transaction. -/
inductive ExecReply
  | committed (incr expire : Bool)
  | aborted
  | empty
  | unsent (e : Thrown)
  | lost (incr expire : Bool) (e : Thrown)
deriving DecidableEq

inductive LimitEvent
  | consume (key : String)
  | wait (millis : Nat)

/-- The calls of any workers, which have one clock; the calls for a key have one limit and one
length of its windows. -/
def rateLimiter (policies : String → RatePolicy) : System LimitIface String Counters Unit where
  Choice := ExecReply
  handle
    | .now, _, s => some (.ok s.now, s)
    | .exec key seconds, .committed incr expire, s =>
        some (.ok (some (replies s key incr expire)), transact s key incr expire seconds)
    | .exec .., .aborted, s => some (.ok none, s)
    | .exec .., .empty, s => some (.ok (some []), s)
    | .exec .., .unsent e, s => some (.error e, s)
    | .exec key seconds, .lost incr expire e, s =>
        some (.error e, transact s key incr expire seconds)
  program key := consume (policies key) key
  Env := LimitEvent
  env
    | .consume key, s, _ => some { store := s, spawn := [key] }
    | .wait millis, s, _ => some { store := s.wait millis }

/-- The system with the time of each operation. -/
abbrev timedLimiter (policies : String → RatePolicy) :
    System LimitIface String (Counters × List Int) Unit :=
  (rateLimiter policies).stamped Counters.now

abbrev LimitWorld (β : Type) := World LimitIface String (Counters × List Int) β

abbrev LimitState := LimitWorld (Prog LimitIface Unit)

/-- No call, and no counter. -/
def opened {β : Type} (now : Int) : LimitWorld β where
  store := ({ now }, [])
  threads := []
  trace := []

/-- No increment is answered by an error. -/
def Increments (_ : LimitState) : Act ExecReply LimitEvent → Prop
  | .run _ (.committed incr _) => incr = true
  | _ => True

/-! ## What is to hold -/

/-- A call that was counted: when, which one, and the number. -/
structure CountedCall where
  time : Int
  actor : Nat
  count : Nat
deriving DecidableEq

/-- The key and the number where an increment was answered by a number. -/
def answeredCount : Event LimitIface → Option (String × Nat)
  | ⟨_, .exec key _, .ok (some (some count :: _))⟩ => some (key, count)
  | _ => none

def countedCall (key : String) (entry : Int × Event LimitIface) : Option CountedCall :=
  (answeredCount entry.2).bind fun answer =>
    if answer.1 = key then some ⟨entry.1, entry.2.actor, answer.2⟩ else none

/-- The calls that were counted under a key, newest first. -/
def callsOf (key : String) (log : List (Int × Event LimitIface)) : List CountedCall :=
  log.filterMap (countedCall key)

def LimitState.returned (w : LimitState) (actor : Nat) : Bool :=
  w.threads[actor]?.any fun t => t.body.outcome = .returned

/-- When the window ends, and the one after it. -/
def RatePolicy.windowEnd (policy : RatePolicy) (window : Int) : Int :=
  (window + 1) * policy.windowMillis

structure Bounded (policies : String → RatePolicy) (w : LimitState) : Prop where
  /-- A call that returns was counted, in a window of its own key. -/
  counted : ∀ (i : Nat) (t : Thread String (Prog LimitIface Unit)), w.threads[i]? = some t →
    t.body.outcome = .returned → ∃ window time count,
      ⟨time, i, count⟩ ∈ callsOf (redisKey t.tag window) w.log
  /-- The counter of a window stays until the window has ended. -/
  lasting : ∀ key window counter, w.store.1.stored (redisKey key window) = some counter →
    w.store.1.now < (policies key).windowEnd window → counter.lives w.store.1.now = true
  /-- Of the calls of a window that are counted in it, or at the latest in the next one, as many
  as the limit return at most. -/
  bounded : ∀ key window, ((callsOf (redisKey key window) w.log).filter fun call =>
    decide (call.time < (policies key).windowEnd (window + 1)) &&
      LimitState.returned w call.actor).length ≤ ⌊(policies key).limit⌋₊

/-! ## The keys -/

theorem redisKey_inj {key key' : String} {window window' : Int}
    (same : redisKey key window = redisKey key' window') : key = key' ∧ window = window' :=
  append_toString_inj same

/-! ## Transactions -/

section

variable {s : Counters} {key : String} {incr expire : Bool} {seconds : Nat}

theorem transact_now : (transact s key incr expire seconds).now = s.now := by
  cases incr <;> cases expire <;> simp [transact]

theorem transact_other {other : String} (differs : other ≠ key) :
    (transact s key incr expire seconds).stored other = s.stored other := by
  have counted : (if incr then s.incr key else s).stored other = s.stored other := by
    cases incr with
    | false => rfl
    | true => exact Counters.stored_incr.trans (if_neg differs)
  rw [transact]
  cases expire with
  | false => exact counted
  | true => exact (Counters.stored_expire_other differs).trans counted

/-- The counter that is counted has the number that is answered. -/
theorem transact_counted : ∃ after, (transact s key true expire seconds).stored key = some after ∧
    after.value = (s.next key).value := by
  cases expire with
  | false => exact ⟨_, Counters.stored_incr.trans (if_pos rfl), rfl⟩
  | true => exact ⟨_, Counters.stored_expire Counters.get_incr, rfl⟩

theorem transact_kept {before : Counter} (there : s.get key = some before) : ∃ after,
    (transact s key incr expire seconds).stored key = some after ∧ before.value ≤ after.value := by
  cases incr with
  | true =>
      have next : ∃ after, (transact s key true expire seconds).stored key = some after ∧
        after.value = (s.next key).value := transact_counted
      obtain ⟨after, stored, same⟩ := next
      refine ⟨after, stored, ?_⟩
      rw [same, Counters.next_of_get there]
      exact Nat.le_succ _
  | false =>
      cases expire with
      | false => exact ⟨before, (Counters.get_eq_some.mp there).1, Nat.le_refl _⟩
      | true => exact ⟨_, Counters.stored_expire there, Nat.le_refl _⟩

/-- The expiry of a counter is the one that was set, or is still the one it had. -/
theorem transact_expiresAt {after : Counter} {expiresAt : Int}
    (stored : (transact s key incr expire seconds).stored key = some after)
    (date : after.expiresAt = some expiresAt) : expiresAt = s.now + (seconds * 1000 : Nat) ∨
      ∃ before, s.stored key = some before ∧ before.expiresAt = some expiresAt := by
  have counted {counter : Counter}
      (stored : (if incr then s.incr key else s).stored key = some counter)
      (date : counter.expiresAt = some expiresAt) :
      ∃ before, s.stored key = some before ∧ before.expiresAt = some expiresAt := by
    cases incr with
    | false => exact ⟨counter, stored, date⟩
    | true =>
        have next : (s.incr key).stored key = some (s.next key) :=
          Counters.stored_incr.trans (if_pos rfl)
        cases next.symm.trans stored
        cases there : s.get key with
        | none =>
            rw [Counters.next_of_none there] at date
            cases date
        | some before =>
            rw [Counters.next_of_get there] at date
            exact ⟨before, (Counters.get_eq_some.mp there).1, date⟩
  have now : (if incr then s.incr key else s).now = s.now := by
    cases incr <;> rfl
  rw [transact] at stored
  cases expire with
  | false => exact .inr (counted stored date)
  | true =>
      cases there : (if incr then s.incr key else s).get key with
      | none =>
          rw [if_pos rfl, Counters.expire_of_none there] at stored
          exact .inr (counted stored date)
      | some counter =>
          cases (Counters.stored_expire there).symm.trans stored
          rw [← now]
          exact .inl (Option.some.inj date).symm

end

/-! ## The stages of a call -/

inductive LimitStage
  | start
  | ready (window : Int)
  | counted (window : Int) (count : Nat)
  | missed
  | gone

inductive LimitMove (policies : String → RatePolicy) (key : String) :
    LimitStage → (o : LimitOp) → LimitIface.Answer o → LimitStage → Prop
  | read {now : Int} : LimitMove policies key .start .now (.ok now)
      (.ready (now / (policies key).windowMillis))
  | unread {e : Thrown} : LimitMove policies key .start .now (.error e) .gone
  | count {window : Int} {count : Nat} {rest : List (Option Nat)} :
      LimitMove policies key (.ready window)
        (.exec (redisKey key window) ((policies key).windowSeconds * 2)) (.ok (some (some count :: rest))) (.counted window count)
  | miss {window : Int} {rest : List (Option Nat)} :
      LimitMove policies key (.ready window)
        (.exec (redisKey key window) ((policies key).windowSeconds * 2)) (.ok (some (none :: rest))) .missed
  | abort {window : Int} :
      LimitMove policies key (.ready window)
        (.exec (redisKey key window) ((policies key).windowSeconds * 2)) (.ok none) .gone
  | empty {window : Int} :
      LimitMove policies key (.ready window)
        (.exec (redisKey key window) ((policies key).windowSeconds * 2)) (.ok (some [])) .gone
  | fail {window : Int} {e : Thrown} :
      LimitMove policies key (.ready window)
        (.exec (redisKey key window) ((policies key).windowSeconds * 2)) (.error e) .gone

/-- A call returns with a count up to the limit, or without one. -/
def limitExit (policies : String → RatePolicy) (key : String) : Except Thrown Unit → LimitStage → Prop
  | .ok _, stage => stage = .missed ∨
      ∃ window count, stage = .counted window count ∧ ¬ (policies key).limit < (count : ℚ)
  | .error _, stage => stage = .gone ∨ ∃ window count, stage = .counted window count

section

variable {policy : RatePolicy} {policies : String → RatePolicy} {key : String}

theorem consume_follows :
    (consume (policies key) key).Follows (LimitMove policies key) (limitExit policies key)
      .start := by
  refine .performBind (fun now => ?_) fun e => ⟨.gone, .unread, .inl rfl⟩
  refine ⟨.ready (now / (policies key).windowMillis), .read,
    .performBind (fun results => ?_) fun e => ⟨.gone, .fail, .inl rfl⟩⟩
  rcases results with _ | _ | ⟨_ | count, rest⟩
  · exact ⟨.gone, .abort, .inl rfl⟩
  · exact ⟨.gone, .empty, .inl rfl⟩
  · exact ⟨.missed, .miss, .inl rfl⟩
  · refine ⟨.counted _ count, .count, ?_⟩
    dsimp only
    rw [Option.any_some]
    split
    · exact .inr ⟨_, count, rfl⟩
    · rename_i low
      exact .inr ⟨_, count, rfl, fun high => low (decide_eq_true high)⟩

def limitStages (policies : String → RatePolicy) : Discipline LimitIface String Unit :=
  movesDiscipline (timedLimiter policies) (fun _ => .start) (LimitMove policies) (limitExit policies)

theorem limitStages_starts (key : String) :
    ((timedLimiter policies).program key).Follows ((limitStages policies).step key)
      ((limitStages policies).ends key) ((limitStages policies).start key) :=
  consume_follows.marked

/-! ## The counts of the windows -/

abbrev StagedCall := Thread String (Marked LimitStage)

variable {a : LimitWorld (Marked LimitStage)} {w : LimitState} {window : Int}

structure Counting (policies : String → RatePolicy) (a : LimitWorld (Marked LimitStage)) :
    Prop where
  hit : ∀ u ∈ a.threads, u.body.stage ≠ .missed
  begun : ∀ u ∈ a.threads, ∀ window, u.body.stage = .ready window →
    window * (policies u.tag).windowMillis ≤ a.store.1.now
  logged : ∀ (i : Nat) (u : StagedCall) (window : Int) (count : Nat), a.threads[i]? = some u →
    u.body.stage = .counted window count →
      ∃ time, ⟨time, i, count⟩ ∈ callsOf (redisKey u.tag window) a.log
  calls : ∀ key window, ∀ call ∈ callsOf (redisKey key window) a.log, 0 < call.count ∧
    ∃ u, a.threads[call.actor]? = some u ∧ u.tag = key ∧ u.body.stage = .counted window call.count
  lasting : ∀ key window counter expiresAt,
    a.store.1.stored (redisKey key window) = some counter → counter.expiresAt = some expiresAt →
      (policies key).windowEnd (window + 1) ≤ expiresAt
  newest : ∀ key window, a.store.1.now < (policies key).windowEnd (window + 1) →
    ∀ call ∈ callsOf (redisKey key window) a.log, ∃ counter,
      a.store.1.stored (redisKey key window) = some counter ∧ call.count ≤ counter.value
  decreasing : ∀ key window, ((callsOf (redisKey key window) a.log).filter fun call =>
    call.time < (policies key).windowEnd (window + 1)).Pairwise
      fun newer older => older.count < newer.count

theorem RatePolicy.windowMillis_pos : 0 < policy.windowMillis := by
  have positive := policy.positive
  unfold windowMillis
  omega

theorem Counting.start {now : Int} : Counting policies (opened now) where
  hit _ inside := by cases inside
  begun _ inside := by cases inside
  logged _ _ _ _ found := by cases found
  calls _ _ _ inside := by cases inside
  lasting _ _ _ _ stored := by cases stored
  newest _ _ _ _ inside := by cases inside
  decreasing _ _ := .nil

/-- A counter of a window is there until the end of the next one. -/
theorem Counting.get (inv : Counting policies a) {counter : Counter}
    (early : a.store.1.now < (policies key).windowEnd (window + 1))
    (stored : a.store.1.stored (redisKey key window) = some counter) :
    a.store.1.get (redisKey key window) = some counter := by
  refine Counters.get_eq_some.mpr ⟨stored, ?_⟩
  rw [Counter.lives]
  cases date : counter.expiresAt with
  | none => rfl
  | some expiresAt =>
      exact decide_eq_true (Int.lt_of_lt_of_le early (inv.lasting _ _ counter expiresAt stored date))

theorem callsOf_cons {entry : Int × Event LimitIface} {log : List (Int × Event LimitIface)} :
    callsOf key (entry :: log) = (countedCall key entry).toList ++ callsOf key log := by
  rw [callsOf, List.filterMap_cons]
  cases countedCall key entry <;> rfl

/-- The clock is read, or an operation fails and leaves the counters. -/
theorem Counting.idle {i : Nat} {u : StagedCall} {s' : Marked LimitStage}
    {event : Event LimitIface} (inv : Counting policies a) (there : a.threads[i]? = some u)
    (uncounted : ∀ window count, u.body.stage ≠ .counted window count)
    (hit : s'.stage ≠ .missed) (begun : ∀ window, s'.stage = .ready window →
      window * (policies u.tag).windowMillis ≤ a.store.1.now)
    (after : ∀ window count, s'.stage ≠ .counted window count)
    (silent : ∀ key, countedCall key (a.store.1.now, event) = none) :
    Counting policies (a.advance i s' (a.store.1, a.store.1.now :: a.store.2) event) := by
  have calls (key : String) : callsOf key (a.advance i s'
      (a.store.1, a.store.1.now :: a.store.2) event).log = callsOf key a.log := by
    rw [World.advance_log, callsOf_cons, silent]
    rfl
  refine ⟨fun v inside => ?_, fun v inside window ready => ?_, fun j v window count found at_count => ?_,
    fun key window call inside => ?_, inv.lasting, fun key window early => ?_, fun key window => ?_⟩
  · rcases World.mem_advance there inside with rfl | before
    · exact hit
    · exact inv.hit v before
  · rcases World.mem_advance there inside with rfl | before
    · exact begun window ready
    · exact inv.begun v before window ready
  · rcases World.advance_cases there found with ⟨_, rfl⟩ | ⟨_, before⟩
    · exact absurd at_count (after window count)
    · rw [calls]
      exact inv.logged j v window count before at_count
  · rw [calls] at inside
    obtain ⟨positive, v, found, own, at_count⟩ := inv.calls key window call inside
    refine ⟨positive, v, ?_, own, at_count⟩
    rw [World.advance_other fun same => ?_, found]
    rw [same, there] at found
    cases found
    exact uncounted window call.count at_count
  · rw [calls]
    exact inv.newest key window early
  · rw [calls]
    exact inv.decreasing key window

theorem windowEnd_le {policy : RatePolicy} {now : Int} (begun : window * policy.windowMillis ≤ now) :
    policy.windowEnd (window + 1) ≤ now + (policy.windowSeconds * 2 * 1000 : Nat) := by
  have two : policy.windowEnd (window + 1) =
      window * policy.windowMillis + (policy.windowSeconds * 2 * 1000 : Nat) := by
    rw [RatePolicy.windowEnd, RatePolicy.windowMillis]
    push_cast
    ring
  omega

/-- A transaction counts the call, or its answer is lost. -/
theorem Counting.transact {i : Nat} {u : StagedCall} {s' : Marked LimitStage}
    {event : Event LimitIface} {incr expire : Bool} {store : Counters}
    (inv : Counting policies a) (there : a.threads[i]? = some u) (ready : u.body.stage = .ready window)
    (ran : store = transact a.store.1 (redisKey u.tag window) incr expire
      ((policies u.tag).windowSeconds * 2))
    (counts : (∀ key, countedCall key (a.store.1.now, event) = none) ∧ s'.stage = .gone ∨
      incr = true ∧ (∀ key, countedCall key (a.store.1.now, event) =
        if redisKey u.tag window = key then
          some ⟨a.store.1.now, i, (a.store.1.next (redisKey u.tag window)).value⟩
        else none) ∧ s'.stage = .counted window (a.store.1.next (redisKey u.tag window)).value) :
    Counting policies (a.advance i s' (store, a.store.1.now :: a.store.2) event) := by
  have now : store.now = a.store.1.now := by rw [ran, transact_now]
  have self : (a.advance i s' (store, a.store.1.now :: a.store.2) event).threads[i]? =
    some { u with body := s' } := World.advance_self there
  have log (key : String) : callsOf key (a.advance i s'
      (store, a.store.1.now :: a.store.2) event).log =
        (countedCall key (a.store.1.now, event)).toList ++ callsOf key a.log := callsOf_cons
  have other {key : String} {window' : Int}
      (differs : redisKey key window' ≠ redisKey u.tag window) :
      store.stored (redisKey key window') = a.store.1.stored (redisKey key window') ∧
        callsOf (redisKey key window') (a.advance i s'
          (store, a.store.1.now :: a.store.2) event).log =
            callsOf (redisKey key window') a.log := by
    have silent : countedCall (redisKey key window') (a.store.1.now, event) = none := by
      rcases counts with ⟨silent, _⟩ | ⟨_, counted, _⟩
      · exact silent _
      · rw [counted, if_neg differs.symm]
    exact ⟨by rw [ran, transact_other differs], by rw [log, silent]; rfl⟩
  have old (call : CountedCall) {key : String} {window' : Int}
      (inside : call ∈ callsOf (redisKey key window') a.log) : 0 < call.count ∧ ∃ v,
      (a.advance i s' (store, a.store.1.now :: a.store.2) event).threads[call.actor]? = some v ∧
        v.tag = key ∧ v.body.stage = .counted window' call.count := by
    obtain ⟨positive, v, found, own, at_count⟩ := inv.calls key window' call inside
    refine ⟨positive, v, ?_, own, at_count⟩
    rw [World.advance_other fun same => ?_, found]
    rw [same, there] at found
    cases found
    cases ready.symm.trans at_count
  refine ⟨fun v inside => ?_, fun v inside window' at_ready => ?_,
    fun j v window' count found at_count => ?_, fun key window' call inside => ?_,
    fun key window' after expiresAt stored date => ?_, fun key window' early => ?_,
    fun key window' => ?_⟩
  · rcases World.mem_advance there inside with rfl | before
    · rcases counts with ⟨_, gone⟩ | ⟨_, _, counted⟩
      · exact fun missed => by cases gone.symm.trans missed
      · exact fun missed => by cases counted.symm.trans missed
    · exact inv.hit v before
  · rw [World.advance_store, now]
    rcases World.mem_advance there inside with rfl | before
    · rcases counts with ⟨_, gone⟩ | ⟨_, _, counted⟩
      · cases gone.symm.trans at_ready
      · cases counted.symm.trans at_ready
    · exact inv.begun v before window' at_ready
  · rw [log]
    rcases World.advance_cases there found with ⟨rfl, rfl⟩ | ⟨_, before⟩
    · rcases counts with ⟨_, gone⟩ | ⟨_, counted, ended⟩
      · cases gone.symm.trans at_count
      · cases ended.symm.trans at_count
        rw [counted, if_pos rfl]
        exact ⟨a.store.1.now, List.mem_cons_self⟩
    · obtain ⟨time, entry⟩ := inv.logged j v window' count before at_count
      exact ⟨time, List.mem_append_right _ entry⟩
  · rw [log] at inside
    rcases List.mem_append.mp inside with new | earlier
    · rcases counts with ⟨silent, _⟩ | ⟨_, counted, ended⟩
      · rw [silent] at new
        cases new
      · rw [counted] at new
        split at new
        · rename_i same
          obtain ⟨rfl, rfl⟩ := redisKey_inj same
          rw [List.mem_singleton.mp new]
          exact ⟨Counters.next_pos, _, self, rfl, ended⟩
        · cases new
    · exact old call earlier
  · by_cases same : redisKey key window' = redisKey u.tag window
    · obtain ⟨rfl, rfl⟩ := redisKey_inj same
      have stored : store.stored (redisKey u.tag window') = some after := stored
      rw [ran] at stored
      rcases transact_expiresAt stored date with rfl | ⟨before, there, date⟩
      · exact windowEnd_le (inv.begun u (List.mem_of_getElem? there) window' ready)
      · exact inv.lasting _ _ before expiresAt there date
    · exact inv.lasting key window' after expiresAt ((other same).1 ▸ stored) date
  · rw [World.advance_store, now] at early
    intro call inside
    by_cases same : redisKey key window' = redisKey u.tag window
    · obtain ⟨rfl, rfl⟩ := redisKey_inj same
      rw [log] at inside
      rw [World.advance_store, ran]
      rcases List.mem_append.mp inside with new | earlier
      · rcases counts with ⟨silent, _⟩ | ⟨rfl, counted, _⟩
        · rw [silent] at new
          cases new
        · rw [counted, if_pos rfl] at new
          have next : ∃ after, (RateLimiter.transact a.store.1 (redisKey u.tag window') true expire
              ((policies u.tag).windowSeconds * 2)).stored (redisKey u.tag window') = some after ∧
                after.value = (a.store.1.next (redisKey u.tag window')).value := transact_counted
          obtain ⟨after, stored, value⟩ := next
          rw [List.mem_singleton.mp new]
          exact ⟨after, stored, value.ge⟩
      · obtain ⟨counter, stored, most⟩ := inv.newest _ _ early call earlier
        have more : ∃ after, (RateLimiter.transact a.store.1 (redisKey u.tag window') incr expire
            ((policies u.tag).windowSeconds * 2)).stored (redisKey u.tag window') = some after ∧
              counter.value ≤ after.value := transact_kept (inv.get early stored)
        obtain ⟨after, stored, kept⟩ := more
        exact ⟨after, stored, most.trans kept⟩
    · rw [(other same).2] at inside
      obtain ⟨counter, stored, most⟩ := inv.newest key window' early call inside
      exact ⟨counter, (other same).1.trans stored, most⟩
  · by_cases same : redisKey key window' = redisKey u.tag window
    · obtain ⟨rfl, rfl⟩ := redisKey_inj same
      rw [log]
      rcases counts with ⟨silent, _⟩ | ⟨_, counted, _⟩
      · rw [silent]
        exact inv.decreasing _ _
      · rw [counted, if_pos rfl, Option.toList_some, List.singleton_append, List.filter_cons]
        split
        · rename_i early
          refine List.pairwise_cons.mpr ⟨fun call inside => ?_, inv.decreasing _ _⟩
          have early := of_decide_eq_true early
          obtain ⟨counter, stored, most⟩ := inv.newest _ _ early call (List.mem_filter.mp inside).1
          rw [Counters.next_of_get (inv.get early stored)]
          exact Nat.lt_succ_of_le most
        · exact inv.decreasing _ _
    · rw [(other same).2]
      exact inv.decreasing key window'

theorem Counting.env {event : LimitEvent} {c : Change String (Counters × List Int)}
    {outcomes : List (Thread String Outcome)} {begin : String → Marked LimitStage}
    (inv : Counting policies a) (begins : ∀ key, (begin key).stage = .start)
    (changed : (timedLimiter policies).env event a.store outcomes = some c) :
    Counting policies (a.change begin c) := by
  have unchanged : c.settle = none ∧ c.store.1.stored = a.store.1.stored ∧
      c.store.2 = a.store.2 ∧ a.store.1.now ≤ c.store.1.now := by
    cases event with
    | consume key =>
        cases changed
        exact ⟨rfl, rfl, rfl, Int.le_refl _⟩
    | wait millis =>
        cases changed
        exact ⟨rfl, rfl, rfl, Int.le_add_of_nonneg_right (Int.natCast_nonneg millis)⟩
  obtain ⟨unsettled, stored, stamps, later⟩ := unchanged
  have kept {j : Nat} {u : StagedCall} (found : a.threads[j]? = some u) :
      (a.change begin c).threads[j]? = some u := by
    rw [World.change_kept found, unsettled]
    simp
  have earlier {j : Nat} {u : StagedCall} (found : (a.change begin c).threads[j]? = some u) :
      a.threads[j]? = some u ∨ u.body.stage = .start := by
    rcases World.change_cases found with ⟨t, before, rfl⟩ | ⟨tag, _, _, rfl⟩
    · rw [unsettled]
      exact .inl (by simpa using before)
    · exact .inr (begins tag)
  have log : (a.change begin c).log = a.log := by
    rw [World.log, World.change_store, World.change_trace, stamps, World.log]
  have counter (key : String) : (a.change begin c).store.1.stored key = a.store.1.stored key :=
    congrFun stored key
  refine ⟨fun u inside missed => ?_, fun u inside window ready => ?_,
    fun j u window count found at_count => ?_, fun key window call inside => ?_,
    fun key window after expiresAt stored => ?_, fun key window early => ?_,
    fun key window => ?_⟩
  · obtain ⟨j, found⟩ := List.mem_iff_getElem?.mp inside
    rcases earlier found with before | start
    · exact inv.hit u (List.mem_of_getElem? before) missed
    · cases start.symm.trans missed
  · obtain ⟨j, found⟩ := List.mem_iff_getElem?.mp inside
    rcases earlier found with before | start
    · exact (inv.begun u (List.mem_of_getElem? before) window ready).trans later
    · cases start.symm.trans ready
  · rcases earlier found with before | start
    · rw [log]
      exact inv.logged j u window count before at_count
    · cases start.symm.trans at_count
  · rw [log] at inside
    obtain ⟨positive, u, found, rest⟩ := inv.calls key window call inside
    exact ⟨positive, u, kept found, rest⟩
  · rw [counter] at stored
    exact inv.lasting key window after expiresAt stored
  · rw [log, counter]
    exact inv.newest key window (Int.lt_of_le_of_lt later early)
  · rw [log]
    exact inv.decreasing key window

/-! ## Every run -/

theorem Counting.reached {now : Int}
    (ran : (timedLimiter policies).Run Increments (opened now) w) :
    ∃ a : LimitWorld (Marked LimitStage), (limitStages policies).Refines w a ∧
      Counting policies a := by
  have first : (limitStages policies).Refines (opened now) (opened now) :=
    ⟨rfl, rfl, rfl, fun found => by cases found⟩
  refine System.Run.invariant limitStages_starts
    (fun {w a i choice t o k answer store u s'} inv refines increments found pending there answered
      step => ?_) (fun inv _ _ changed => inv.env (fun _ => rfl) changed) first .start ran
  obtain ⟨after, handled, rfl⟩ := System.stamped_handle answered
  have move : LimitMove policies u.tag u.body.stage o answer s'.stage := step.2
  rcases stages : (u.body.stage, s'.stage) with ⟨before, next⟩
  obtain ⟨stage, stage'⟩ := Prod.mk.inj stages
  rw [stage, stage'] at move
  -- a step that leaves the counters, after which the call is gone
  have gone (same : after = a.store.1) (start : ∀ window count, before ≠ .counted window count)
      (ended : next = .gone) (silent : ∀ key, countedCall key (a.store.1.now, ⟨i, o, answer⟩) = none) :
      Counting policies (a.advance i s' (after, a.store.1.now :: a.store.2) ⟨i, o, answer⟩) := by
    subst same ended
    refine inv.idle there (stage ▸ start) ?_ ?_ ?_ silent <;> rw [stage'] <;> exact nofun
  cases move with
  | @read now =>
      obtain ⟨same, rfl⟩ := Prod.mk.inj (Option.some.inj handled)
      cases same
      refine inv.idle there ?_ ?_ (fun window ready => ?_) ?_ fun key => rfl
      · rw [stage]
        exact nofun
      · rw [stage']
        exact nofun
      · cases stage'.symm.trans ready
        exact Int.ediv_mul_le _ (RatePolicy.windowMillis_pos).ne'
      · rw [stage']
        exact nofun
  | unread => cases handled
  | @count window count rest =>
      cases choice with
      | committed incr expire =>
          have incr : incr = true := increments
          subst incr
          obtain ⟨same, rfl⟩ := Prod.mk.inj (Option.some.inj handled)
          cases same
          exact inv.transact there stage rfl (.inr ⟨rfl, fun key => rfl, stage'⟩)
      | _ => cases handled
  | @miss window rest =>
      cases choice with
      | committed incr expire =>
          have incr : incr = true := increments
          subst incr
          obtain ⟨same, _⟩ := Prod.mk.inj (Option.some.inj handled)
          cases same
      | _ => cases handled
  | @abort window =>
      cases choice with
      | aborted =>
          obtain ⟨_, same⟩ := Prod.mk.inj (Option.some.inj handled)
          exact gone same.symm nofun rfl fun key => rfl
      | _ => cases handled
  | @empty window =>
      cases choice with
      | empty =>
          obtain ⟨_, same⟩ := Prod.mk.inj (Option.some.inj handled)
          exact gone same.symm nofun rfl fun key => rfl
      | _ => cases handled
  | @fail window e =>
      cases choice with
      | unsent e' =>
          obtain ⟨_, same⟩ := Prod.mk.inj (Option.some.inj handled)
          exact gone same.symm nofun rfl fun key => rfl
      | lost incr expire e' =>
          obtain ⟨_, rfl⟩ := Prod.mk.inj (Option.some.inj handled)
          exact inv.transact there stage rfl (.inl ⟨fun key => rfl, stage'⟩)
      | _ => cases handled

/-- A call that has returned has a count up to the limit, unless it missed it. -/
theorem counted_of_returned {p : Prog LimitIface Unit} {s : Marked LimitStage}
    (follows : p.Follows ((limitStages policies).step key) ((limitStages policies).ends key) s)
    (returned : p.outcome = .returned) (hit : s.stage ≠ .missed) :
    ∃ window count, s.stage = .counted window count ∧ ¬ (policies key).limit < (count : ℚ) := by
  cases p with
  | pure a => exact follows.2.resolve_left hit
  | throw e => cases returned
  | op o k => cases returned

/-- **The rate limiter counts.** In every run in which no increment is answered by an error, a call
that returns was counted, the counter of a window outlasts it, and as many calls of a window return
as the limit at most. -/
theorem consume_bounded {now : Int}
    (ran : (timedLimiter policies).Run Increments (opened now) w) : Bounded policies w := by
  obtain ⟨a, refines, inv⟩ := Counting.reached ran
  have log : a.log = w.log := by
    show a.store.2.zip a.trace = w.store.2.zip w.trace
    rw [refines.store, refines.trace]
  refine ⟨fun i t found returned => ?_, fun key window counter stored early => ?_,
    fun key window => ?_⟩
  · obtain ⟨u, there, same, _, follows⟩ := refines.stage_of_thread found
    obtain ⟨window, count, at_count, _⟩ :=
      counted_of_returned follows returned (inv.hit u (List.mem_of_getElem? there))
    obtain ⟨time, entry⟩ := inv.logged i u window count there at_count
    exact ⟨window, time, count, log ▸ same ▸ entry⟩
  · rw [← refines.store] at stored early ⊢
    have later : (policies key).windowEnd window ≤ (policies key).windowEnd (window + 1) :=
      mul_le_mul_of_nonneg_right (by omega) RatePolicy.windowMillis_pos.le
    exact (Counters.get_eq_some.mp (inv.get (Int.lt_of_lt_of_le early later) stored)).2
  · rw [← log]
    have decreasing := (inv.decreasing key window).filter fun call =>
      LimitState.returned w call.actor
    rw [List.filter_filter] at decreasing
    have numbers := List.pairwise_map.mpr (decreasing.imp fun less => Nat.ne_of_gt less)
    have within : ∀ n ∈ ((callsOf (redisKey key window) a.log).filter fun call =>
        LimitState.returned w call.actor &&
          decide (call.time < (policies key).windowEnd (window + 1))).map CountedCall.count,
        0 < n ∧ n ≤ ⌊(policies key).limit⌋₊ := by
      intro n there
      obtain ⟨call, inside, rfl⟩ := List.mem_map.mp there
      obtain ⟨inside, passes⟩ := List.mem_filter.mp inside
      obtain ⟨returned, _⟩ := Bool.and_eq_true_iff.mp passes
      obtain ⟨positive, u, found, own, at_count⟩ := inv.calls key window call inside
      obtain ⟨t, there, same, _, follows⟩ := refines.thread_of_stage found
      rw [LimitState.returned, there] at returned
      obtain ⟨window', count, ended, low⟩ := counted_of_returned follows (of_decide_eq_true returned)
        (inv.hit u (List.mem_of_getElem? found))
      cases at_count.symm.trans ended
      rw [← same, own] at low
      exact ⟨positive, Nat.le_floor (not_lt.mp low)⟩
    have shorter := length_le_of_nodup numbers within
    rw [List.length_map] at shorter
    simpa only [Bool.and_comm] using shorter

end

/-! ### An increment that is answered by an error -/

/-- One call in a second, for every key. -/
def onePerSecond (_ : String) : RatePolicy := ⟨1, 1, Nat.one_pos⟩

def increments (_ : LimitState) : Act ExecReply LimitEvent → Bool
  | .run _ (.committed incr _) => incr
  | _ => true

theorem increments_sound (w : LimitState) (act : Act ExecReply LimitEvent)
    (passes : increments w act = true) : Increments w act := by
  cases act with
  | env => trivial
  | run i choice =>
      cases choice with
      | committed => exact passes
      | _ => trivial

/-- Two calls in a window; the answers to the commands of the second one are these. -/
def twoCalls (incr expire : Bool) : List (Act ExecReply LimitEvent) :=
  [.env (.consume "hooks"), .env (.consume "hooks"), .run 0 .aborted, .run 0 (.committed true true),
    .env (.wait 400), .run 1 .aborted, .run 1 (.committed incr expire)]

/-- The second call of a window is refused, also where its expiry is answered by an error. -/
theorem twoCalls_bounded : ∃ w,
    (timedLimiter onePerSecond).Run Increments (opened 5200) w ∧
      LimitState.returned w 0 = true ∧ LimitState.returned w 1 = false ∧
        callsOf (redisKey "hooks" 5) w.log = [⟨5600, 1, 2⟩, ⟨5200, 0, 1⟩] ∧
          Bounded onePerSecond w := by
  have evaluated : ((timedLimiter onePerSecond).execute increments
      (opened 5200) (twoCalls true false)).any (fun w =>
        LimitState.returned w 0 && !LimitState.returned w 1 &&
          decide (callsOf (redisKey "hooks" 5) w.log = [⟨5600, 1, 2⟩, ⟨5200, 0, 1⟩])) = true := by
    decide +kernel
  obtain ⟨w, ran, holds⟩ := System.Run.exists_of_execute increments_sound evaluated
  simp only [Bool.and_eq_true, Bool.not_eq_true', decide_eq_true_eq] at holds
  exact ⟨w, ran, holds.1.1, holds.1.2, holds.2, consume_bounded ran⟩

/-- A second call in the window returns where its increment is answered by an error. -/
theorem twoCalls_not_bounded : ∃ w,
    (timedLimiter onePerSecond).Run (fun _ _ => True) (opened 5200) w ∧
      LimitState.returned w 0 = true ∧ LimitState.returned w 1 = true ∧
        ¬ Bounded onePerSecond w := by
  have evaluated : ((timedLimiter onePerSecond).execute (fun _ _ => true)
      (opened 5200) (twoCalls false true)).any (fun w =>
        LimitState.returned w 0 && LimitState.returned w 1 &&
          w.log.all fun entry => entry.2.actor = 0 || (answeredCount entry.2).isNone) = true := by
    decide +kernel
  obtain ⟨w, ran, holds⟩ := System.Run.exists_of_execute (fun _ _ _ => trivial) evaluated
  simp only [Bool.and_eq_true] at holds
  obtain ⟨⟨first, second⟩, uncounted⟩ := holds
  refine ⟨w, ran, first, second, fun bounded => ?_⟩
  obtain ⟨t, found, returned⟩ := (Option.any_eq_true _ _).mp second
  obtain ⟨window, time, count, inside⟩ := bounded.counted 1 t found (of_decide_eq_true returned)
  -- no increment of the second call has a number
  obtain ⟨entry, logged, counted⟩ := List.mem_filterMap.mp inside
  obtain ⟨answer, answered, own⟩ := Option.bind_eq_some_iff.mp counted
  split at own
  · have actor : entry.2.actor = 1 := congrArg CountedCall.actor (Option.some.inj own)
    have silent := List.all_eq_true.mp uncounted entry logged
    rw [answered, actor] at silent
    cases silent
  · cases own

end RateLimiter
