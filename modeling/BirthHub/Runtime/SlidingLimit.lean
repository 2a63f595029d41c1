import BirthHub.Data.Decimals
import BirthHub.Data.Json
import BirthHub.Data.ScoredSets
import BirthHub.Effect.Moves

/-!
# The rate limiter of the agents

`RateLimiter` of `agents/shared/rate_limiter.py` counts the calls of a key in sorted sets, one for
each bucket of time. A call is a member by the text of its time in microseconds, and reads the clock
a second time for its bucket. Redis is reachable, on the same clock, and the client is there.
-/

namespace SlidingLimit

open Data Effect

/-! ## The code -/

structure RateLimiter where
  window_seconds : Nat
  max_requests : Nat
  positive : 0 < window_seconds

/-- `int(time // self.window_seconds)`. -/
def RateLimiter.bucket (limiter : RateLimiter) (time : ℚ) : Int := ⌊time / limiter.window_seconds⌋

def redisKey (key : String) (bucket : Int) : String :=
  "rate_limit:" ++ key ++ ":" ++ toString bucket

/-- The nearest integer, and of two the even one. -/
def roundHalfEven (q : ℚ) : Nat :=
  let low := q.floor.toNat
  let rest := q - low
  if rest < 1 / 2 ∨ rest = 1 / 2 ∧ low % 2 = 0 then low else low + 1

/-- `f"{now:.6f}"`. -/
def member (now : ℚ) : String :=
  let micros := roundHalfEven (|now| * 1000000)
  let decimals := toString (micros % 1000000)
  (if now < 0 then "-" else "") ++ toString (micros / 1000000) ++ "." ++
    String.ofList (List.replicate (6 - decimals.length) '0') ++ decimals

inductive LimitOp
  | time
  | pipeline (redis_key : String) (window_start : ℚ) (member : String) (now : ℚ) (seconds : Nat)
  | zremrangebyscore (redis_key : String) (window_start : ℚ)
  | zcard (redis_key : String)

abbrev LimitOp.Result : LimitOp → Type
  | .time => ℚ
  | .pipeline .. => Nat
  | .zremrangebyscore .. => Unit
  | .zcard _ => Nat

abbrev LimitIface : Iface where
  Op := LimitOp
  Res := LimitOp.Result
  Err := Thrown

def call (o : LimitOp) : Prog LimitIface o.Result := Prog.perform (I := LimitIface) o

/-- What the calls return: whether the call is allowed, with the count, or how many remain. -/
inductive Reply
  | checked (allowed : Bool) (count : Nat)
  | remaining (requests : Nat)
deriving DecidableEq

/-- The commands of the pipeline are one transaction, of whose answers the third is used. -/
def check_and_increment (limiter : RateLimiter) (key : String) : Prog LimitIface Reply := do
  let now : ℚ ← call .time
  let time : ℚ ← call .time
  let redis_key := redisKey key (limiter.bucket time)
  Prog.tryCatch
    (do
      let count : Nat ← call (.pipeline redis_key (now - limiter.window_seconds) (member now) now
        (limiter.window_seconds + 1))
      pure (.checked (count ≤ limiter.max_requests) count))
    fun _ => pure (.checked true 0)

def get_remaining (limiter : RateLimiter) (key : String) : Prog LimitIface Reply := do
  let time : ℚ ← call .time
  let redis_key := redisKey key (limiter.bucket time)
  let now : ℚ ← call .time
  Prog.tryCatch
    (do
      call (.zremrangebyscore redis_key (now - limiter.window_seconds))
      let count : Nat ← call (.zcard redis_key)
      pure (.remaining (limiter.max_requests - count)))
    fun _ => pure (.remaining limiter.max_requests)

/-! ## The calls for a key -/

inductive Kind
  | check
  | remaining

/-- What happens apart from the operations of the calls: a call starts, time passes, or a set of
another key changes. -/
inductive LimitEvent
  | call (kind : Kind)
  | wait (seconds : ℚ)
  | others (key : String) (bucket : Int) (set : Option ScoredSet)

def handle : (o : LimitOp) → ScoredSets → Option (LimitIface.Answer o × ScoredSets)
  | .time, store => some (.ok store.now, store)
  | .pipeline redis_key window_start member now seconds, store =>
      let store := (store.zremrangebyscore redis_key 0 window_start).zadd redis_key member now
      some (.ok (store.zcard redis_key), store.expire redis_key seconds)
  | .zremrangebyscore redis_key window_start, store =>
      some (.ok (), store.zremrangebyscore redis_key 0 window_start)
  | .zcard redis_key, store => some (.ok (store.zcard redis_key), store)

def calls (limiter : RateLimiter) (key : String) : System LimitIface Kind ScoredSets Reply where
  Choice := Unit
  handle o _ store := handle o store
  program
    | .check => check_and_increment limiter key
    | .remaining => get_remaining limiter key
  Env := LimitEvent
  env event store _ :=
    match event with
    | .call kind => some { store, spawn := [kind] }
    | .wait seconds =>
        if 0 ≤ seconds then some { store := { store with now := store.now + seconds } } else none
    | .others key' bucket set =>
        if key' ≠ key then some { store := store.put (redisKey key' bucket) set } else none

abbrev LimitWorld (β : Type) := World LimitIface Kind ScoredSets β

abbrev LimitState := LimitWorld (Prog LimitIface Reply)

/-- No set at all, at some time. -/
def opened {β : Type} (now : ℚ) : LimitWorld β := ⟨{ now }, [], []⟩

/-! ## What is to hold -/

section

variable (limiter : RateLimiter) (key : String)

/-- A call whose time falls in the bucket has been counted. -/
def isCounted (bucket : Int) : Event LimitIface → Bool
  | ⟨_, .pipeline _ _ _ now _, .ok _⟩ => limiter.bucket now = bucket
  | _ => false

/-- It returns allowed. -/
def isAllowed (bucket : Int) : Event LimitIface → Bool
  | ⟨_, .pipeline _ _ _ now _, .ok count⟩ =>
      limiter.bucket now = bucket && decide (count ≤ limiter.max_requests)
  | _ => false

/-- It was counted after this time. -/
def isAfter (window_start : ℚ) : Event LimitIface → Bool
  | ⟨_, .pipeline _ _ _ now _, .ok _⟩ => window_start < now
  | _ => false

/-- The count of a call is its place among the calls of its bucket, and what is left is asked with
the number of calls of the bucket within the window. -/
def IsExact (event : Event LimitIface) (before : List (Event LimitIface)) : Prop :=
  match event with
  | ⟨_, .pipeline _ _ _ now _, .ok count⟩ =>
      count = before.countP (isCounted limiter (limiter.bucket now)) + 1
  | ⟨i, .zcard redis_key, .ok count⟩ => ∀ bucket, redis_key = redisKey key bucket →
      ∃ window_start, ⟨i, .zremrangebyscore redis_key window_start, .ok ()⟩ ∈ before ∧
        count = before.countP fun event =>
          isCounted limiter bucket event && isAfter window_start event
  | _ => True

/-- Each event with those before it; the newest comes first. -/
def AtEach (P : Event LimitIface → List (Event LimitIface) → Prop) : List (Event LimitIface) → Prop
  | [] => True
  | event :: before => P event before ∧ AtEach P before

/-- What a call returns follows from the answer that it got. -/
def Returns (trace : List (Event LimitIface)) (i : Nat) : Reply → Prop
  | .checked allowed count => allowed = decide (count ≤ limiter.max_requests) ∧
      ∃ redis_key window_start member now seconds,
        ⟨i, .pipeline redis_key window_start member now seconds, .ok count⟩ ∈ trace
  | .remaining requests => ∃ redis_key count, ⟨i, .zcard redis_key, .ok count⟩ ∈ trace ∧
      requests = limiter.max_requests - count

structure Bounded (w : LimitState) : Prop where
  bounded : ∀ bucket, w.trace.countP (isAllowed limiter bucket) ≤ limiter.max_requests
  exact : AtEach (IsExact limiter key) w.trace
  returns : ∀ i t reply, w.threads[i]? = some t → t.body = .pure reply →
    Returns limiter w.trace i reply

/-- The condition on the steps of a run: both times that a call reads fall in one bucket, no other
call of the bucket has the same member, and the set of the bucket has not expired. -/
def isApart (w : LimitState) : Act Unit LimitEvent → Bool
  | .env _ => true
  | .run i _ =>
      match (w.threads[i]?).bind (·.body.pending) with
      | some (.pipeline redis_key _ member now _) =>
          redis_key = redisKey key (limiter.bucket now) && w.store.isFresh redis_key &&
            decide (member ∉ (w.store.held redis_key).keys)
      | some (.zremrangebyscore redis_key window_start) =>
          redis_key = redisKey key (limiter.bucket (window_start + limiter.window_seconds)) &&
            w.store.isFresh redis_key
      | some (.zcard redis_key) => w.store.isFresh redis_key
      | _ => true

end

/-! ## Buckets -/

section

variable {limiter : RateLimiter} {key : String} {bucket : Int} {now score : ℚ}

theorem redisKey_inj {key' : String} {bucket' : Int}
    (same : redisKey key bucket = redisKey key' bucket') : key = key' ∧ bucket = bucket' :=
  append_toString_inj same

/-- A bucket is not longer than the window. -/
theorem window_start_lt (here : limiter.bucket now = limiter.bucket score) :
    now - limiter.window_seconds < score := by
  have positive : (0 : ℚ) < limiter.window_seconds := by exact_mod_cast limiter.positive
  have low : (limiter.bucket score : ℚ) ≤ score / limiter.window_seconds := Int.floor_le _
  have high : now / limiter.window_seconds < limiter.bucket now + 1 := Int.lt_floor_add_one _
  rw [here] at high
  rw [le_div_iff₀ positive] at low
  rw [div_lt_iff₀ positive] at high
  linarith

/-! ## Counts -/

theorem isCounted_pipeline {i : Nat} {redis_key member : String} {window_start : ℚ}
    {seconds count : Nat} :
    isCounted limiter bucket ⟨i, .pipeline redis_key window_start member now seconds, .ok count⟩ =
      decide (limiter.bucket now = bucket) := rfl

/-- A call of the bucket was counted within the window. -/
theorem isAfter_of_isCounted {event : Event LimitIface}
    (counted : isCounted limiter (limiter.bucket now) event = true) :
    isAfter (now - limiter.window_seconds) event = true := by
  obtain ⟨i, o, answer⟩ := event
  cases o with
  | pipeline redis_key window_start member score seconds =>
      cases answer with
      | error e => cases counted
      | ok count => exact decide_eq_true (window_start_lt (of_decide_eq_true counted).symm)
  | _ => cases answer <;> cases counted

/-- As many calls of a bucket are allowed as there are, up to the limit. -/
theorem countP_isAllowed {trace : List (Event LimitIface)}
    (exact : AtEach (IsExact limiter key) trace) : trace.countP (isAllowed limiter bucket) =
      min (trace.countP (isCounted limiter bucket)) limiter.max_requests := by
  induction trace with
  | nil => exact (Nat.zero_min _).symm
  | cons event before ih =>
      obtain ⟨own, rest⟩ := exact
      have ih := ih rest
      rw [List.countP_cons, List.countP_cons, ih]
      obtain ⟨i, o, answer⟩ := event
      cases o with
      | pipeline redis_key window_start member now seconds =>
          cases answer with
          | error e => rfl
          | ok count =>
              change count = before.countP (isCounted limiter (limiter.bucket now)) + 1 at own
              simp only [isCounted, isAllowed, Bool.and_eq_true, decide_eq_true_eq]
              by_cases here : limiter.bucket now = bucket
              · rw [here] at own
                subst own
                by_cases few : before.countP (isCounted limiter bucket) + 1 ≤ limiter.max_requests
                · rw [if_pos ⟨here, few⟩, if_pos here]
                  omega
                · rw [if_neg fun both => few both.2, if_pos here]
                  omega
              · rw [if_neg fun both => here both.1, if_neg here]
                rfl
      | _ => cases answer <;> rfl

theorem bounded_of_exact {trace : List (Event LimitIface)}
    (exact : AtEach (IsExact limiter key) trace) :
    trace.countP (isAllowed limiter bucket) ≤ limiter.max_requests :=
  (countP_isAllowed exact).trans_le (Nat.min_le_right _ _)

end

/-! ## The stages of a call -/

inductive LimitStage
  | reading
  | timed (now : ℚ)
  | executing (redis_key : String) (now : ℚ)
  | keyed (redis_key : String)
  | trimming (redis_key : String) (now : ℚ)
  | counting (redis_key : String) (now : ℚ)
  | ended (reply : Reply)
  | failed

inductive LimitMove (limiter : RateLimiter) (key : String) :
    Kind → LimitStage → (o : LimitOp) → LimitIface.Answer o → LimitStage → Prop
  | time {now : ℚ} : LimitMove limiter key .check .reading .time (.ok now) (.timed now)
  | bucket {now time : ℚ} : LimitMove limiter key .check (.timed now) .time (.ok time)
      (.executing (redisKey key (limiter.bucket time)) now)
  | pipeline {redis_key : String} {now : ℚ} {count : Nat} :
      LimitMove limiter key .check (.executing redis_key now)
        (.pipeline redis_key (now - limiter.window_seconds) (member now) now
          (limiter.window_seconds + 1)) (.ok count)
        (.ended (.checked (count ≤ limiter.max_requests) count))
  | key {time : ℚ} : LimitMove limiter key .remaining .reading .time (.ok time)
      (.keyed (redisKey key (limiter.bucket time)))
  | now {redis_key : String} {now : ℚ} : LimitMove limiter key .remaining (.keyed redis_key) .time
      (.ok now) (.trimming redis_key now)
  | trim {redis_key : String} {now : ℚ} :
      LimitMove limiter key .remaining (.trimming redis_key now)
        (.zremrangebyscore redis_key (now - limiter.window_seconds)) (.ok ())
        (.counting redis_key now)
  | count {redis_key : String} {now : ℚ} {count : Nat} :
      LimitMove limiter key .remaining (.counting redis_key now) (.zcard redis_key) (.ok count)
        (.ended (.remaining (limiter.max_requests - count)))
  | fail {kind : Kind} {stage stage' : LimitStage} {o : LimitOp} {e : Thrown} :
      LimitMove limiter key kind stage o (.error e) stage'

def callEnds (_ : Kind) : Except Thrown Reply → LimitStage → Prop
  | .ok reply, stage => stage = .ended reply
  | .error _, stage => stage = .failed

section

variable {limiter : RateLimiter} {key : String} {kind : Kind}

theorem call_follows (kind : Kind) : ((calls limiter key).program kind).Follows
    (LimitMove limiter key kind) (callEnds kind) .reading := by
  cases kind with
  | check =>
      refine .performBind (fun now => ⟨.timed now, .time, ?_⟩) fun e => ⟨.failed, .fail, rfl⟩
      refine .performBind (fun time => ⟨_, .bucket, ?_⟩) fun e => ⟨.failed, .fail, rfl⟩
      refine .tryCatch (.performBind (fun count => ⟨_, .pipeline, rfl⟩) fun e => ?_)
      exact ⟨.ended (.checked true 0), .fail, rfl⟩
  | remaining =>
      refine .performBind (fun time => ⟨_, .key, ?_⟩) fun e => ⟨.failed, .fail, rfl⟩
      refine .performBind (fun now => ⟨_, .now, ?_⟩) fun e => ⟨.failed, .fail, rfl⟩
      have opens (e : Thrown) (stage : LimitStage) {o : LimitOp} : ∃ stage',
          LimitMove limiter key .remaining stage o (.error e) stage' ∧
            stage' = .ended (.remaining limiter.max_requests) := ⟨_, .fail, rfl⟩
      refine .tryCatch (.performBind (fun _ => ⟨_, .trim, ?_⟩) fun e => opens e _)
      exact .performBind (fun count => ⟨_, .count, rfl⟩) fun e => opens e _

def callStages (limiter : RateLimiter) (key : String) : Discipline LimitIface Kind Reply :=
  movesDiscipline (calls limiter key) (fun _ => .reading) (LimitMove limiter key) callEnds

theorem callStages_starts (kind : Kind) :
    ((calls limiter key).program kind).Follows ((callStages limiter key).step kind)
      ((callStages limiter key).ends kind) ((callStages limiter key).start kind) :=
  (call_follows kind).marked

/-! ## The invariant -/

abbrev StagedCall := Thread Kind (Marked LimitStage)

/-- The set of a bucket has a member for each call that was counted there. -/
structure Sound (limiter : RateLimiter) (key : String) (a : LimitWorld (Marked LimitStage)) :
    Prop where
  length : ∀ bucket, (a.store.held (redisKey key bucket)).entries.length =
    a.trace.countP (isCounted limiter bucket)
  inside : ∀ bucket, ∀ e ∈ (a.store.held (redisKey key bucket)).entries,
    limiter.bucket e.2 = bucket
  exact : AtEach (IsExact limiter key) a.trace
  counting : ∀ (i : Nat) (u : StagedCall) (redis_key : String) (now : ℚ), a.threads[i]? = some u →
    u.body.stage = .counting redis_key now → redis_key = redisKey key (limiter.bucket now) ∧
      ⟨i, .zremrangebyscore redis_key (now - limiter.window_seconds), .ok ()⟩ ∈ a.trace
  returns : ∀ (i : Nat) (u : StagedCall) (reply : Reply), a.threads[i]? = some u →
    u.body.stage = .ended reply → Returns limiter a.trace i reply

variable {w : LimitState} {a : LimitWorld (Marked LimitStage)}

theorem Sound.start {now : ℚ} : Sound limiter key (opened now) where
  length _ := rfl
  inside _ e inside := (List.not_mem_nil inside).elim
  exact := trivial
  counting i u redis_key now there := by simp [opened] at there
  returns i u reply there := by simp [opened] at there

theorem Returns.later {trace : List (Event LimitIface)} {event : Event LimitIface} {i : Nat}
    {reply : Reply} (returns : Returns limiter trace i reply) :
    Returns limiter (event :: trace) i reply := by
  cases reply with
  | checked allowed count =>
      obtain ⟨same, redis_key, window_start, member, now, seconds, inside⟩ := returns
      exact ⟨same, redis_key, window_start, member, now, seconds, List.mem_cons_of_mem _ inside⟩
  | remaining requests =>
      obtain ⟨redis_key, count, inside, same⟩ := returns
      exact ⟨redis_key, count, List.mem_cons_of_mem _ inside, same⟩

/-- What is to hold of the stage that call `i` comes to by an event. -/
def LimitStage.Fits (limiter : RateLimiter) (key : String) (trace : List (Event LimitIface))
    (i : Nat) : LimitStage → Prop
  | .counting redis_key now => redis_key = redisKey key (limiter.bucket now) ∧
      ⟨i, .zremrangebyscore redis_key (now - limiter.window_seconds), .ok ()⟩ ∈ trace
  | .ended reply => Returns limiter trace i reply
  | _ => True

theorem Sound.step {i : Nat} {u : StagedCall} {s' : Marked LimitStage} {store : ScoredSets}
    {o : LimitOp} {answer : LimitIface.Answer o} (sound : Sound limiter key a)
    (there : a.threads[i]? = some u)
    (length : ∀ bucket, (store.held (redisKey key bucket)).entries.length =
      (a.store.held (redisKey key bucket)).entries.length +
        if isCounted limiter bucket ⟨i, o, answer⟩ then 1 else 0)
    (inside : ∀ bucket, ∀ e ∈ (store.held (redisKey key bucket)).entries,
      limiter.bucket e.2 = bucket)
    (exact : IsExact limiter key ⟨i, o, answer⟩ a.trace)
    (fits : s'.stage.Fits limiter key (⟨i, o, answer⟩ :: a.trace) i) :
    Sound limiter key (a.advance i s' store ⟨i, o, answer⟩) where
  length bucket := by
    rw [World.advance_store, length, sound.length, World.advance_trace, List.countP_cons]
  inside := inside
  exact := ⟨exact, sound.exact⟩
  counting j v redis_key now after stage := by
    rcases World.advance_cases there after with ⟨rfl, rfl⟩ | ⟨_, before⟩
    · exact (stage ▸ fits : (LimitStage.counting redis_key now).Fits limiter key _ j)
    · obtain ⟨same, earlier⟩ := sound.counting j v redis_key now before stage
      exact ⟨same, List.mem_cons_of_mem _ earlier⟩
  returns j v reply after stage := by
    rcases World.advance_cases there after with ⟨rfl, rfl⟩ | ⟨_, before⟩
    · exact (stage ▸ fits : (LimitStage.ended reply).Fits limiter key _ j)
    · exact (sound.returns j v reply before stage).later

/-- A step that leaves the sets of the key as they are. -/
theorem Sound.keeps {i : Nat} {u : StagedCall} {s' : Marked LimitStage} {store : ScoredSets}
    {o : LimitOp} {answer : LimitIface.Answer o} (sound : Sound limiter key a)
    (there : a.threads[i]? = some u)
    (held : ∀ bucket, store.held (redisKey key bucket) = a.store.held (redisKey key bucket))
    (uncounted : ∀ bucket, isCounted limiter bucket ⟨i, o, answer⟩ = false)
    (exact : IsExact limiter key ⟨i, o, answer⟩ a.trace)
    (fits : s'.stage.Fits limiter key (⟨i, o, answer⟩ :: a.trace) i) :
    Sound limiter key (a.advance i s' store ⟨i, o, answer⟩) := by
  refine sound.step there (fun bucket => ?_) (fun bucket e inside => ?_) exact fits
  · rw [held, uncounted]
    rfl
  · rw [held] at inside
    exact sound.inside bucket e inside

theorem Sound.reads {i : Nat} {u : StagedCall} {s' : Marked LimitStage} {store : ScoredSets}
    {answer : LimitIface.Answer .time} (sound : Sound limiter key a)
    (there : a.threads[i]? = some u) (answered : handle .time a.store = some (answer, store))
    (fits : s'.stage.Fits limiter key (⟨i, .time, answer⟩ :: a.trace) i) :
    Sound limiter key (a.advance i s' store ⟨i, .time, answer⟩) := by
  obtain ⟨_, rfl⟩ := Prod.mk.inj (Option.some.inj answered)
  exact sound.keeps there (fun _ => rfl) (fun _ => rfl) trivial fits

/-- The scores of a bucket are above the start of the window of each of its times. -/
theorem Sound.above {now : ℚ} (sound : Sound limiter key a) : ∀ e ∈
    (a.store.held (redisKey key (limiter.bucket now))).entries,
      now - limiter.window_seconds < e.2 :=
  fun e inside => window_start_lt (sound.inside _ e inside).symm

/-- Nothing that belongs to the bucket is removed. -/
theorem Sound.trim {now : ℚ} (sound : Sound limiter key a)
    (fresh : a.store.isFresh (redisKey key (limiter.bucket now)) = true) (bucket : Int) :
    (a.store.zremrangebyscore (redisKey key (limiter.bucket now)) 0
      (now - limiter.window_seconds)).held (redisKey key bucket) =
        a.store.held (redisKey key bucket) := by
  by_cases same : bucket = limiter.bucket now
  · rw [same]
    exact ScoredSets.held_zremrangebyscore fresh sound.above
  · exact ScoredSets.held_zremrangebyscore_other fun equal => same (redisKey_inj equal).2

theorem Sound.count {i : Nat} {u : StagedCall} {s' : Marked LimitStage} {now : ℚ}
    {member : String} {seconds : Nat} {store trimmed : ScoredSets} (sound : Sound limiter key a)
    (there : a.threads[i]? = some u)
    (fresh : a.store.isFresh (redisKey key (limiter.bucket now)) = true)
    (new : member ∉ (a.store.held (redisKey key (limiter.bucket now))).keys)
    (trims : trimmed = a.store.zremrangebyscore (redisKey key (limiter.bucket now)) 0
      (now - limiter.window_seconds))
    (stores : store = trimmed.zadd (redisKey key (limiter.bucket now)) member now)
    (stage' : s'.stage = .ended (.checked (store.zcard (redisKey key (limiter.bucket now)) ≤
      limiter.max_requests) (store.zcard (redisKey key (limiter.bucket now))))) :
    Sound limiter key (a.advance i s' (store.expire (redisKey key (limiter.bucket now)) seconds)
      ⟨i, .pipeline (redisKey key (limiter.bucket now)) (now - limiter.window_seconds) member now
        seconds, .ok (store.zcard (redisKey key (limiter.bucket now)))⟩) := by
  have freshTrim : trimmed.isFresh (redisKey key (limiter.bucket now)) = true :=
    trims ▸ ScoredSets.isFresh_zremrangebyscore fresh
  have fresh' : store.isFresh (redisKey key (limiter.bucket now)) = true :=
    stores ▸ ScoredSets.isFresh_zadd freshTrim
  have trimmed' (bucket : Int) : trimmed.held (redisKey key bucket) =
      a.store.held (redisKey key bucket) := trims ▸ sound.trim fresh bucket
  have expired (bucket : Int) :
      (store.expire (redisKey key (limiter.bucket now)) seconds).held (redisKey key bucket) =
        store.held (redisKey key bucket) := by
    by_cases same : bucket = limiter.bucket now
    · rw [same]
      exact ScoredSets.held_expire fresh'
    · exact ScoredSets.held_expire_other fun equal => same (redisKey_inj equal).2
  have others {bucket : Int} (other : bucket ≠ limiter.bucket now) :
      store.held (redisKey key bucket) = a.store.held (redisKey key bucket) := by
    rw [stores, ScoredSets.held_zadd_other fun equal => other (redisKey_inj equal).2, trimmed']
  have added : (store.held (redisKey key (limiter.bucket now))).entries =
      (a.store.held (redisKey key (limiter.bucket now))).entries ++ [(member, now)] := by
    rw [stores, ScoredSets.held_zadd freshTrim, trimmed', OrderedMap.entries_set_of_new new]
  have count : store.zcard (redisKey key (limiter.bucket now)) =
      (a.store.held (redisKey key (limiter.bucket now))).entries.length + 1 := by
    rw [ScoredSets.zcard_of_isFresh fresh', added, List.length_append, List.length_singleton]
  refine sound.step there (fun bucket => ?_) (fun bucket e inside => ?_) ?_ ?_
  · rw [expired]
    by_cases same : limiter.bucket now = bucket
    · rw [isCounted_pipeline, if_pos (decide_eq_true same), ← same, added, List.length_append,
        List.length_singleton]
    · rw [isCounted_pipeline, if_neg (by simpa using same), others (Ne.symm same)]
      rfl
  · rw [expired] at inside
    by_cases same : limiter.bucket now = bucket
    · rw [← same, added, List.mem_append, List.mem_singleton] at inside
      rcases inside with earlier | rfl
      · exact same ▸ sound.inside _ e earlier
      · exact same
    · rw [others (Ne.symm same)] at inside
      exact sound.inside bucket e inside
  · change store.zcard _ = _ + 1
    rw [count, sound.length]
  · rw [stage']
    exact ⟨rfl, _, _, _, _, _, List.mem_cons_self⟩

theorem Sound.run {i : Nat} {choice : Unit} {t : Thread Kind (Prog LimitIface Reply)} {o : LimitOp}
    {k : LimitIface.Answer o → Prog LimitIface Reply} {answer : LimitIface.Answer o}
    {store : ScoredSets} {u : StagedCall} {s' : Marked LimitStage} (sound : Sound limiter key a)
    (refines : (callStages limiter key).Refines w a)
    (apart : isApart limiter key w (.run i choice) = true) (found : w.threads[i]? = some t)
    (pending : t.body = .op o k) (there : a.threads[i]? = some u)
    (answered : handle o a.store = some (answer, store))
    (step : (callStages limiter key).step u.tag u.body o answer s') :
    Sound limiter key (a.advance i s' store ⟨i, o, answer⟩) := by
  have move : LimitMove limiter key u.tag u.body.stage o answer s'.stage := step.2
  rw [isApart, found, Option.bind_some, pending, Prog.pending_op, ← refines.store] at apart
  generalize stage : u.body.stage = before at move
  generalize stage' : s'.stage = after at move
  generalize u.tag = tag at move
  cases move with
  | time => exact sound.reads there answered (by rw [stage']; trivial)
  | bucket => exact sound.reads there answered (by rw [stage']; trivial)
  | key => exact sound.reads there answered (by rw [stage']; trivial)
  | now => exact sound.reads there answered (by rw [stage']; trivial)
  | @pipeline redis_key now count =>
      obtain ⟨same, rfl⟩ := Prod.mk.inj (Option.some.inj answered)
      cases Except.ok.inj same
      obtain ⟨fits, new⟩ := Bool.and_eq_true_iff.mp apart
      obtain ⟨named, fresh⟩ := Bool.and_eq_true_iff.mp fits
      obtain rfl := of_decide_eq_true named
      exact sound.count there fresh (of_decide_eq_true new) rfl rfl stage'
  | @trim redis_key now =>
      obtain ⟨_, rfl⟩ := Prod.mk.inj (Option.some.inj answered)
      obtain ⟨named, fresh⟩ := Bool.and_eq_true_iff.mp apart
      have named := of_decide_eq_true named
      rw [sub_add_cancel] at named
      subst named
      refine sound.keeps there (sound.trim fresh) (fun _ => rfl) trivial ?_
      rw [stage']
      exact ⟨rfl, List.mem_cons_self⟩
  | @count redis_key now count =>
      obtain ⟨same, rfl⟩ := Prod.mk.inj (Option.some.inj answered)
      cases Except.ok.inj same
      obtain ⟨named, trimmed⟩ := sound.counting i u redis_key now there stage
      refine sound.keeps there (fun _ => rfl) (fun _ => rfl) (fun bucket named' => ?_) ?_
      · obtain ⟨_, rfl⟩ := redisKey_inj (named.symm.trans named')
        refine ⟨_, trimmed, ?_⟩
        rw [ScoredSets.zcard_of_isFresh apart, named, sound.length]
        refine List.countP_congr fun event _ => ?_
        rw [Bool.and_eq_true_iff]
        exact ⟨fun counted => ⟨counted, isAfter_of_isCounted counted⟩, And.left⟩
      · rw [stage']
        exact ⟨redis_key, _, List.mem_cons_self, rfl⟩
  | fail => cases o <;> cases (Prod.mk.inj (Option.some.inj answered)).1

theorem Sound.env {event : LimitEvent} {c : Change Kind ScoredSets}
    {outcomes : List (Thread Kind Outcome)} {begin : Kind → Marked LimitStage}
    (sound : Sound limiter key a)
    (changed : (calls limiter key).env event a.store outcomes = some c)
    (begins : ∀ kind, (begin kind).stage = .reading) : Sound limiter key (a.change begin c) := by
  have kept (change : Change Kind ScoredSets) (unsettled : change.settle = none)
      (held : ∀ bucket, change.store.held (redisKey key bucket) =
        a.store.held (redisKey key bucket)) : Sound limiter key (a.change begin change) := by
    have old {j : Nat} {v : StagedCall} (after : (a.change begin change).threads[j]? = some v)
        (other : v.body.stage ≠ .reading) : ∃ u : StagedCall, a.threads[j]? = some u ∧
          u.body = v.body := by
      rcases World.change_cases after with ⟨u, before, rfl⟩ | ⟨kind, _, _, rfl⟩
      · exact ⟨u, before, rfl⟩
      · exact (other (begins kind)).elim
    exact {
      length := fun bucket => by
        rw [World.change_store, held]
        exact sound.length bucket
      inside := fun bucket e inside => by
        rw [World.change_store, held] at inside
        exact sound.inside bucket e inside
      exact := sound.exact
      counting := fun i u redis_key now after stage => by
        obtain ⟨v, before, same⟩ := old after fun reading => by rw [stage] at reading; cases reading
        exact sound.counting i v redis_key now before (same ▸ stage)
      returns := fun i u reply after stage => by
        obtain ⟨v, before, same⟩ := old after fun reading => by rw [stage] at reading; cases reading
        exact sound.returns i v reply before (same ▸ stage) }
  cases event with
  | call kind =>
      cases changed
      exact kept _ rfl fun _ => rfl
  | wait seconds =>
      obtain ⟨_, changed⟩ := Option.ite_none_right_eq_some.mp changed
      cases changed
      exact kept _ rfl fun _ => rfl
  | others key' bucket set =>
      obtain ⟨other, changed⟩ := Option.ite_none_right_eq_some.mp changed
      cases changed
      refine kept _ rfl fun bucket' => ScoredSets.held_put_other fun same => ?_
      exact other (redisKey_inj same).1.symm

/-- Where the steps of the calls meet the condition, no more calls of a bucket are allowed than the
limit, each is counted once, and what is left is the rest. -/
theorem bounded {now : ℚ} (run : (calls limiter key).Run
    (fun w act => isApart limiter key w act = true) (opened now) w) : Bounded limiter key w := by
  have start : (callStages limiter key).Refines (opened now) (opened now) :=
    ⟨rfl, rfl, rfl, fun found => by simp [opened] at found⟩
  have begin : Sound limiter key (opened now) := .start
  obtain ⟨a, refines, sound⟩ := System.Run.invariant callStages_starts
    (fun sound refines apart found pending there answered step =>
      sound.run refines apart found pending there answered step)
    (fun sound _ _ changed => sound.env changed fun _ => rfl) start begin run
  have exact := sound.exact
  rw [refines.trace] at exact
  refine ⟨fun bucket => bounded_of_exact exact, exact, fun i t reply found returned => ?_⟩
  obtain ⟨u, there, _, _, follows⟩ := refines.stage_of_thread found
  rw [returned] at follows
  rw [← refines.trace]
  exact sound.returns i u reply there follows.2

end

/-! ### Two calls in a microsecond -/

def onePerMinute : RateLimiter := ⟨60, 1, by decide⟩

/-- A call, and later another one and the question for the rest. -/
def inTurn : List (Act Unit LimitEvent) :=
  [.env (.call .check), .run 0 (), .run 0 (), .run 0 (), .env (.wait 1), .env (.call .check),
    .run 1 (), .run 1 (), .run 1 (), .env (.call .remaining), .run 2 (), .run 2 (), .run 2 (),
    .run 2 ()]

/-- Two calls at one time. -/
def atOnce : List (Act Unit LimitEvent) :=
  [.env (.call .check), .run 0 (), .run 0 (), .run 0 (), .env (.call .check), .run 1 (), .run 1 (),
    .run 1 ()]

/-- Of two calls in turn one is allowed. -/
theorem inTurn_bounded : ∃ w, (calls onePerMinute "tenant:agent").Run
    (fun w act => isApart onePerMinute "tenant:agent" w act = true) (opened 120) w ∧
      w.threads.map (·.body.outcome) = [.returned, .returned, .returned] ∧
      Bounded onePerMinute "tenant:agent" w := by
  have evaluated : ((calls onePerMinute "tenant:agent").execute
      (isApart onePerMinute "tenant:agent") (opened 120) inTurn).any
        (fun w => w.threads.map (·.body.outcome) = [.returned, .returned, .returned]) = true := by
    decide +kernel
  obtain ⟨w, ran, returned⟩ := System.Run.exists_of_execute (fun _ _ apart => apart) evaluated
  exact ⟨w, ran, of_decide_eq_true returned, bounded ran⟩

/-- Two calls in one microsecond are one member, and both are allowed. -/
theorem atOnce_not_bounded : ¬ ∀ w, (calls onePerMinute "tenant:agent").Run (fun _ _ => True)
    (opened 120) w → Bounded onePerMinute "tenant:agent" w := by
  intro always
  have evaluated : ((calls onePerMinute "tenant:agent").execute (fun _ _ => true)
      (opened 120) atOnce).any
        (fun w => w.trace.countP (isAllowed onePerMinute 2) = 2) = true := by decide +kernel
  obtain ⟨w, ran, both⟩ := System.Run.exists_of_execute (fun _ _ _ => trivial) evaluated
  have most := (always w ran).bounded 2
  rw [of_decide_eq_true both] at most
  exact absurd most (by decide)

end SlidingLimit
