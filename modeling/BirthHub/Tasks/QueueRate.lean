import BirthHub.Data.Counters
import BirthHub.Effect.Moves
import BirthHub.Effect.Stamped

/-!
# The rate limits of the queues

`assertTenantQueueRateLimit` of `apps/api/src/lib/queue.ts`, and the one of
`apps/api/src/modules/agents/queue.ts`. A call counts up the key of its tenant, and the call that
counts first gives the key its expiry by a second command. As long as such a call gets the replies
of both its commands, every window ends, and as many calls as the limit succeed in it at most.
-/

namespace QueueRate

open Data Effect

/-! ## The calls -/

inductive RedisOp
  | incr (key : String)
  | expire (key : String) (seconds : Nat)

abbrev RedisOp.Result : RedisOp → Type
  | .incr _ => Nat
  | .expire .. => Unit

inductive RateError
  | tenantQueueRateLimit (tenantId : String) (threshold : Nat)
  | redis
deriving DecidableEq

instance : Inhabited RateError := ⟨.redis⟩

abbrev RedisIface : Iface where
  Op := RedisOp
  Res := RedisOp.Result
  Err := RateError

def awaitRedis (o : RedisOp) : Prog RedisIface o.Result := Prog.perform (I := RedisIface) o

/-- Of the configuration, which allows positive numbers only. -/
structure RateConfig where
  TENANT_QUEUE_RATE_LIMIT_MAX : Nat
  TENANT_QUEUE_RATE_LIMIT_WINDOW_SECONDS : Nat
  max_pos : 0 < TENANT_QUEUE_RATE_LIMIT_MAX
  window_pos : 0 < TENANT_QUEUE_RATE_LIMIT_WINDOW_SECONDS

/-- How long a counter is there after its expiry was set. -/
def RateConfig.windowMillis (config : RateConfig) : Nat :=
  config.TENANT_QUEUE_RATE_LIMIT_WINDOW_SECONDS * 1000

/-- What both functions do with the key of a tenant. -/
def countRequest (config : RateConfig) (tenantId key : String) : Prog RedisIface Unit := do
  let current : Nat ← awaitRedis (.incr key)
  if current = 1 then
    awaitRedis (.expire key config.TENANT_QUEUE_RATE_LIMIT_WINDOW_SECONDS)
  if config.TENANT_QUEUE_RATE_LIMIT_MAX < current then
    Prog.throw (.tenantQueueRateLimit tenantId config.TENANT_QUEUE_RATE_LIMIT_MAX)
  else pure ()

def assertTenantQueueRateLimit (config : RateConfig) (tenantId : Option String) :
    Prog RedisIface Unit :=
  match tenantId.filter (· ≠ "") with
  | none => pure ()
  | some tenantId => countRequest config tenantId ("tenant-queue-rate:" ++ tenantId)

/-- The function of the same name for installed agents. -/
def InstalledAgent.assertTenantQueueRateLimit (config : RateConfig) (tenantId : String) :
    Prog RedisIface Unit :=
  countRequest config tenantId ("tenant-agent-queue-rate:" ++ tenantId)

inductive RateRequest
  | task (tenantId : Option String)
  | agent (tenantId : String)

def RateRequest.program (config : RateConfig) : RateRequest → Prog RedisIface Unit
  | .task tenantId => assertTenantQueueRateLimit config tenantId
  | .agent tenantId => InstalledAgent.assertTenantQueueRateLimit config tenantId

/-- The key that a request counts under. -/
def RateRequest.key : RateRequest → Option String
  | .task tenantId => (tenantId.filter (· ≠ "")).map ("tenant-queue-rate:" ++ ·)
  | .agent tenantId => some ("tenant-agent-queue-rate:" ++ tenantId)

/-! ## The counters -/

/-- What becomes of a command: it is answered, it does not come to Redis, or its answer does not
come back. The process that dies is one of the latter two. -/
inductive Reply
  | answered
  | unsent
  | lost
deriving DecidableEq

inductive RateEvent
  | request (request : RateRequest)
  | wait (millis : Nat)

/-- Requests come at any time, and time passes between any two commands. -/
def queueRate (config : RateConfig) : System RedisIface RateRequest Counters Unit where
  Choice := Reply
  handle
    | .incr key, .answered, s => some (.ok (s.next key).value, s.incr key)
    | .incr _, .unsent, s => some (.error .redis, s)
    | .incr key, .lost, s => some (.error .redis, s.incr key)
    | .expire key seconds, .answered, s => some (.ok (), s.expire key (seconds * 1000))
    | .expire .., .unsent, s => some (.error .redis, s)
    | .expire key seconds, .lost, s => some (.error .redis, s.expire key (seconds * 1000))
  program := RateRequest.program config
  Env := RateEvent
  env
    | .request request, s, _ => some { store := s, spawn := [request] }
    | .wait millis, s, _ => some { store := s.wait millis }

/-- The system with the time of each command. -/
abbrev timedRate (config : RateConfig) : System RedisIface RateRequest (Counters × List Int) Unit :=
  (queueRate config).stamped Counters.now

abbrev RateWorld (β : Type) := World RedisIface RateRequest (Counters × List Int) β

abbrev RateState := RateWorld (Prog RedisIface Unit)

/-- No call, and no counter. -/
def opened {β : Type} : RateWorld β where
  store := ({}, [])
  threads := []
  trace := []

/-- The call is about to give the key its expiry. -/
def awaitsExpire (key : String) (p : Prog RedisIface Unit) : Bool :=
  match p.pending with
  | some (.expire key' _) => key' = key
  | _ => false

/-- A call that makes a counter gets the replies of both its commands. -/
def Replied (w : RateState) : Act Reply RateEvent → Prop
  | .env _ => True
  | .run i choice => ∀ t ∈ w.threads[i]?,
      match t.body.pending with
      | some (.incr key) => w.store.1.get key = none → choice ≠ .lost
      | some (.expire ..) => choice = .answered
      | none => True

/-- The call that counted up the key, and its count. -/
def countOf (key : String) : Event RedisIface → Option (Nat × Nat)
  | ⟨actor, .incr key', .ok count⟩ => if key' = key then some (actor, count) else none
  | _ => none

/-- The counts of a key, newest first. -/
def countsOf (key : String) (trace : List (Event RedisIface)) : List (Nat × Nat) :=
  trace.filterMap (countOf key)

/-- The call has returned, so its request was accepted. -/
def RateState.accepted (w : RateState) (actor : Nat) : Bool :=
  w.threads[actor]?.any fun t => t.body.outcome = .returned

/-- Windows end, and are bounded. -/
structure WindowsEnd (config : RateConfig) (w : RateState) : Prop where
  /-- Every counter has its expiry, or the call that made it is about to set it. -/
  dated : ∀ key counter, w.store.1.get key = some counter → counter.expiresAt = none →
    ∃ t ∈ w.threads, awaitsExpire key t.body = true
  /-- Where the next request would be refused, a request for the key was accepted less than one
  window ago, or is about to be. -/
  refused : ∀ key, config.TENANT_QUEUE_RATE_LIMIT_MAX < (w.store.1.next key).value →
    (∃ t ∈ w.threads, awaitsExpire key t.body = true) ∨
      ∃ time event, (time, event) ∈ w.log ∧
        event.op = .expire key config.TENANT_QUEUE_RATE_LIMIT_WINDOW_SECONDS ∧
        RateState.accepted w event.actor = true ∧ w.store.1.now < time + config.windowMillis
  /-- In every window, up to any time in it, as many requests as the limit were accepted at
  most. -/
  bounded : ∀ key older, older <:+ countsOf key w.trace →
    ((sinceFirst Prod.snd older).filter (RateState.accepted w ·.1)).length ≤
      config.TENANT_QUEUE_RATE_LIMIT_MAX

/-! ## The stages of a call -/

inductive RateStage
  | start
  | expiring
  | counted (count : Nat)
  | gone
deriving DecidableEq

inductive RateMove (config : RateConfig) (request : RateRequest) :
    RateStage → (o : RedisOp) → RedisIface.Answer o → RateStage → Prop
  | first {key : String} (own : request.key = some key) :
      RateMove config request .start (.incr key) (.ok 1) .expiring
  | later {key : String} {count : Nat} (own : request.key = some key) (more : count ≠ 1) :
      RateMove config request .start (.incr key) (.ok count) (.counted count)
  | uncounted {key : String} {e : RateError} :
      RateMove config request .start (.incr key) (.error e) .gone
  | expire {key : String} (own : request.key = some key) :
      RateMove config request .expiring
        (.expire key config.TENANT_QUEUE_RATE_LIMIT_WINDOW_SECONDS) (.ok ()) (.counted 1)
  | unexpired {key : String} {e : RateError} :
      RateMove config request .expiring
        (.expire key config.TENANT_QUEUE_RATE_LIMIT_WINDOW_SECONDS) (.error e) .gone

/-- A call returns without a key, or with a count up to the limit. -/
def rateExit (config : RateConfig) (request : RateRequest) :
    Except RateError Unit → RateStage → Prop
  | .ok _, stage => (stage = .start ∧ request.key = none) ∨
      ∃ count, stage = .counted count ∧ count ≤ config.TENANT_QUEUE_RATE_LIMIT_MAX
  | .error _, stage => stage = .gone ∨
      ∃ count, stage = .counted count ∧ config.TENANT_QUEUE_RATE_LIMIT_MAX < count

section

variable {config : RateConfig} {request : RateRequest}

theorem countRequest_follows {tenantId key : String} (own : request.key = some key) :
    (countRequest config tenantId key).Follows (RateMove config request) (rateExit config request)
      .start := by
  refine .performBind (fun count => ?_) fun e => ⟨.gone, .uncounted, .inl rfl⟩
  have positive := config.max_pos
  by_cases first : count = 1
  · subst first
    refine ⟨.expiring, .first own, .performBind (fun _ => ?_) fun e => ⟨.gone, .unexpired, .inl rfl⟩⟩
    have low : ¬ config.TENANT_QUEUE_RATE_LIMIT_MAX < 1 := by omega
    refine ⟨.counted 1, .expire own, ?_⟩
    rw [if_neg low]
    exact .inr ⟨1, rfl, positive⟩
  · refine ⟨.counted count, .later own first, ?_⟩
    dsimp only
    rw [if_neg first]
    split
    · rename_i high
      exact .inr ⟨count, rfl, high⟩
    · rename_i low
      exact .inr ⟨count, rfl, Nat.le_of_not_lt low⟩

theorem request_follows :
    (request.program config).Follows (RateMove config request) (rateExit config request) .start := by
  cases request with
  | agent tenantId => exact countRequest_follows rfl
  | task tenantId =>
      rw [RateRequest.program, assertTenantQueueRateLimit]
      cases given : tenantId.filter (· ≠ "") with
      | none => exact .inl ⟨rfl, by rw [RateRequest.key, given, Option.map_none]⟩
      | some tenantId =>
          exact countRequest_follows (by rw [RateRequest.key, given, Option.map_some])

def rateStages (config : RateConfig) : Discipline RedisIface RateRequest Unit :=
  movesDiscipline (timedRate config) (fun _ => .start) (RateMove config) (rateExit config)

theorem rateStages_starts (request : RateRequest) :
    ((timedRate config).program request).Follows ((rateStages config).step request)
      ((rateStages config).ends request) ((rateStages config).start request) :=
  request_follows.marked

/-! ## What a step does to a key -/

/-- The call has a count: it still has to set the expiry, or it is past that. -/
def RateStage.Has (stage : RateStage) (count : Nat) : Prop :=
  (stage = .expiring ∧ count = 1) ∨ stage = .counted count ∨ stage = .gone

variable {stage stage' : RateStage} {o : RedisOp} {answer : RedisIface.Answer o}

theorem RateMove.not_counted (move : RateMove config request stage o answer stage') {count : Nat} :
    stage ≠ .counted count := by
  cases move <;> exact nofun

theorem RateMove.has (move : RateMove config request stage o answer stage') {count : Nat}
    (has : stage.Has count) : stage'.Has count := by
  cases move with
  | first | later | uncounted =>
      rcases has with ⟨at_start, _⟩ | at_start | at_start <;> cases at_start
  | expire =>
      rcases has with ⟨_, rfl⟩ | ended | ended
      · exact .inr (.inl rfl)
      · cases ended
      · cases ended
  | unexpired => exact .inr (.inr rfl)

/-- What a command that is answered as `event`, by a call that goes from `stage` to `stage'`, does
to the counter of a key. -/
inductive KeyStep (config : RateConfig) (key : String) (s s' : Counters) (request : RateRequest)
    (stage stage' : RateStage) (event : Event RedisIface) : Prop
  | idle (same : s'.stored key = s.stored key) (uncounted : countOf key event = none)
      (other : request.key = some key → stage = .expiring → s.get key = none)
  | made (gone : s.get key = none) (made : s'.stored key = some { value := 1 })
      (counted : countOf key event = some (event.actor, 1)) (own : request.key = some key)
      (expiring : stage' = .expiring)
  | more {counter : Counter} (there : s.get key = some counter)
      (more : s'.stored key = some { counter with value := counter.value + 1 })
      (counted : countOf key event = none ∨
        countOf key event = some (event.actor, counter.value + 1) ∧
          stage' = .counted (counter.value + 1))
      (start : stage = .start)
  | dated {counter : Counter}
      (there : s.get key = some counter)
      (dated : s'.stored key =
        some { counter with expiresAt := some (s.now + config.windowMillis) })
      (uncounted : countOf key event = none)
      (expire : event.op = .expire key config.TENANT_QUEUE_RATE_LIMIT_WINDOW_SECONDS)
      (ended : stage' = .counted 1)

theorem countOf_other {key key' : String} {actor : Nat} {answer : RedisIface.Answer (.incr key')}
    (differs : key ≠ key') : countOf key ⟨actor, .incr key', answer⟩ = none := by
  cases answer with
  | error e => rfl
  | ok count => exact if_neg differs.symm

theorem KeyStep.incr_other {key key' : String} {s : Counters} {actor : Nat}
    {answer : RedisIface.Answer (.incr key')} (differs : key ≠ key') (start : stage = .start) :
    KeyStep config key s (s.incr key') request stage stage' ⟨actor, .incr key', answer⟩ := by
  refine .idle ?_ (countOf_other differs) fun _ expiring => ?_
  · rw [Counters.stored_incr, if_neg differs]
  · rw [start] at expiring
    cases expiring

/-- Everything a command does to a key, where a call that makes a counter gets its replies. -/
theorem RateMove.keyStep (move : RateMove config request stage o answer stage') {s s' : Counters}
    {choice : Reply} {actor : Nat} (answered : (queueRate config).handle o choice s = some (answer, s'))
    (made : ∀ key, o = .incr key → s.get key = none → choice ≠ .lost)
    (dated : ∀ key seconds, o = .expire key seconds → choice = .answered)
    (positive : ∀ key counter, s.stored key = some counter → 0 < counter.value) (key : String) :
    KeyStep config key s s' request stage stage' ⟨actor, o, answer⟩ := by
  have first {key' : String} (one : (s.next key').value = 1) : s.get key' = none := by
    cases there : s.get key' with
    | none => rfl
    | some counter =>
        exact absurd one (Counters.next_value_eq_one there
          (positive key' counter (Counters.get_eq_some.mp there).1))
  cases move with
  | @first key' own =>
      cases choice with
      | answered =>
          obtain ⟨same, rfl⟩ := Prod.mk.inj (Option.some.inj answered)
          by_cases differs : key = key'
          · subst differs
            have gone := first (Except.ok.inj same)
            refine .made gone ?_ (if_pos rfl) own rfl
            rw [Counters.stored_incr, if_pos rfl, Counters.next_of_none gone]
          · exact .incr_other differs rfl
      | unsent => cases answered
      | lost => cases answered
  | @later key' count own more =>
      cases choice with
      | answered =>
          obtain ⟨same, rfl⟩ := Prod.mk.inj (Option.some.inj answered)
          have same : (s.next key').value = count := Except.ok.inj same
          by_cases differs : key = key'
          · subst differs
            cases there : s.get key with
            | none =>
                rw [Counters.next_of_none there] at same
                exact absurd same.symm more
            | some counter =>
                rw [Counters.next_of_get there] at same
                subst same
                refine .more there ?_ (.inr ⟨if_pos rfl, rfl⟩) rfl
                rw [Counters.stored_incr, if_pos rfl, Counters.next_of_get there]
          · exact .incr_other differs rfl
      | unsent => cases answered
      | lost => cases answered
  | @uncounted key' e =>
      cases choice with
      | answered => cases answered
      | unsent =>
          obtain ⟨-, rfl⟩ := Prod.mk.inj (Option.some.inj answered)
          exact .idle rfl rfl (by rintro _ ⟨⟩)
      | lost =>
          obtain ⟨-, rfl⟩ := Prod.mk.inj (Option.some.inj answered)
          by_cases differs : key = key'
          · subst differs
            cases there : s.get key with
            | none => exact absurd rfl (made key rfl there)
            | some counter =>
                refine .more there ?_ (.inl rfl) rfl
                rw [Counters.stored_incr, if_pos rfl, Counters.next_of_get there]
          · exact .incr_other differs rfl
  | @expire key' own =>
      cases choice with
      | answered =>
          obtain ⟨-, rfl⟩ := Prod.mk.inj (Option.some.inj answered)
          by_cases differs : key = key'
          · subst differs
            cases there : s.get key with
            | none =>
                refine .idle ?_ rfl fun _ _ => there
                rw [Counters.expire_of_none there]
            | some counter =>
                exact .dated there (Counters.stored_expire there) rfl rfl rfl
          · refine .idle (Counters.stored_expire_other differs) rfl fun own' _ => ?_
            exact absurd (Option.some.inj (own'.symm.trans own)) differs
      | unsent => cases answered
      | lost => cases answered
  | @unexpired key' e =>
      rw [dated key' _ rfl] at answered
      cases answered

/-! ## The counts of one key -/

abbrev StagedRequest := Thread RateRequest (Marked RateStage)

/-- The call made the counter of the key, and is to set its expiry. -/
def Expiring (key : String) (u : StagedRequest) : Prop :=
  u.tag.key = some key ∧ u.body.stage = .expiring

structure Counting (config : RateConfig) (key : String) (a : RateWorld (Marked RateStage)) :
    Prop where
  positive : ∀ counter, a.store.1.stored key = some counter → 0 < counter.value
  dated : ∀ counter, a.store.1.stored key = some counter → counter.expiresAt = none →
    ∃ u ∈ a.threads, Expiring key u
  since : ∀ counter expiresAt, a.store.1.stored key = some counter →
    counter.expiresAt = some expiresAt → ∃ time event u, (time, event) ∈ a.log ∧
      event.op = .expire key config.TENANT_QUEUE_RATE_LIMIT_WINDOW_SECONDS ∧
      a.threads[event.actor]? = some u ∧ u.body.stage = .counted 1 ∧
      expiresAt = time + config.windowMillis
  chain : (countsOf key a.trace).IsChain (CountsOn Prod.snd)
  newest : ∀ count ∈ (countsOf key a.trace).head?, ∃ counter,
    a.store.1.stored key = some counter ∧ count.2 ≤ counter.value
  counted : ∀ count ∈ countsOf key a.trace, 0 < count.2 ∧
    ∃ u, a.threads[count.1]? = some u ∧ u.body.stage.Has count.2

variable {key : String} {a : RateWorld (Marked RateStage)} {w : RateState}

theorem Counting.start : Counting config key opened where
  positive _ there := by cases there
  dated _ there := by cases there
  since _ _ there := by cases there
  chain := .nil
  newest _ there := by cases there
  counted _ inside := by cases inside

theorem countsOf_cons {event : Event RedisIface} {trace : List (Event RedisIface)} :
    countsOf key (event :: trace) = (countOf key event).toList ++ countsOf key trace := by
  rw [countsOf, List.filterMap_cons]
  cases countOf key event <;> rfl

theorem Counting.run {i : Nat} {u : StagedRequest} {s' : Marked RateStage} {store : Counters}
    {event : Event RedisIface} (inv : Counting config key a) (there : a.threads[i]? = some u)
    (actor : event.actor = i) (notCounted : u.body.stage ≠ .counted 1)
    (has : ∀ count, u.body.stage.Has count → s'.stage.Has count)
    (step : KeyStep config key a.store.1 store u.tag u.body.stage s'.stage event) :
    Counting config key (a.advance i s' (store, a.store.1.now :: a.store.2) event) := by
  have self : (a.advance i s' (store, a.store.1.now :: a.store.2) event).threads[i]? =
    some { u with body := s' } := World.advance_self there
  have log : (a.advance i s' (store, a.store.1.now :: a.store.2) event).log =
    (a.store.1.now, event) :: a.log := rfl
  -- where another call still is
  have kept {j : Nat} {v : StagedRequest} (found : a.threads[j]? = some v) (differs : v ≠ u) :
      (a.advance i s' (store, a.store.1.now :: a.store.2) event).threads[j]? = some v := by
    rw [World.advance_other (fun same => differs ?_), found]
    rw [same, there] at found
    exact (Option.some.inj found).symm
  have counted : ∀ count ∈ countsOf key a.trace, 0 < count.2 ∧ ∃ v,
      (a.advance i s' (store, a.store.1.now :: a.store.2) event).threads[count.1]? = some v ∧
        v.body.stage.Has count.2 := by
    intro count inside
    obtain ⟨positive, v, found, at_stage⟩ := inv.counted count inside
    by_cases same : count.1 = i
    · rw [same, there] at found
      cases found
      rw [same]
      exact ⟨positive, _, self, has _ at_stage⟩
    · exact ⟨positive, v, (World.advance_other same).trans found, at_stage⟩
  have dated {counter : Counter} (stored : a.store.1.stored key = some counter)
      (undated : counter.expiresAt = none) (idle : ¬ Expiring key u) :
      ∃ v ∈ (a.advance i s' (store, a.store.1.now :: a.store.2) event).threads, Expiring key v := by
    obtain ⟨v, inside, expiring⟩ := inv.dated counter stored undated
    obtain ⟨j, found⟩ := List.mem_iff_getElem?.mp inside
    refine ⟨v, List.mem_of_getElem? (kept found ?_), expiring⟩
    rintro rfl
    exact idle expiring
  have since {counter : Counter} {expiresAt : Int} (stored : a.store.1.stored key = some counter)
      (date : counter.expiresAt = some expiresAt) : ∃ time event' v,
      (time, event') ∈ (a.advance i s' (store, a.store.1.now :: a.store.2) event).log ∧
        event'.op = .expire key config.TENANT_QUEUE_RATE_LIMIT_WINDOW_SECONDS ∧
        (a.advance i s' (store, a.store.1.now :: a.store.2) event).threads[event'.actor]? = some v ∧
        v.body.stage = .counted 1 ∧ expiresAt = time + config.windowMillis := by
    obtain ⟨time, event', v, logged, expire, found, ended, sum⟩ :=
      inv.since counter expiresAt stored date
    refine ⟨time, event', v, ?_, expire, kept found ?_, ended, sum⟩
    · rw [log]
      exact List.mem_cons_of_mem _ logged
    · rintro rfl
      exact notCounted ended
  have counts : countsOf key (a.advance i s' (store, a.store.1.now :: a.store.2) event).trace =
    (countOf key event).toList ++ countsOf key a.trace := countsOf_cons
  cases step with
  | idle same uncounted other =>
      have uncounted : countsOf key (a.advance i s'
          (store, a.store.1.now :: a.store.2) event).trace = countsOf key a.trace := by
        rw [counts, uncounted]
        rfl
      refine ⟨fun counter stored => inv.positive counter (same ▸ stored),
        fun counter stored undated => dated (same ▸ stored) undated fun expiring => ?_,
        fun counter expiresAt stored => since (same ▸ stored), uncounted ▸ inv.chain, ?_,
        uncounted ▸ counted⟩
      · -- a counter without an expiry is there
        have lives : a.store.1.get key = some counter :=
          Counters.get_eq_some.mpr ⟨same ▸ stored, by rw [Counter.lives, undated]; rfl⟩
        rw [other expiring.1 expiring.2] at lives
        cases lives
      · rw [uncounted]
        intro count newest
        obtain ⟨counter, stored, most⟩ := inv.newest count newest
        exact ⟨counter, same.trans stored, most⟩
  | made gone made one own expiring =>
      rw [one, actor] at counts
      refine ⟨fun counter stored => ?_, fun counter stored undated => ?_,
        fun counter expiresAt stored date => ?_, ?_, ?_, ?_⟩
      · cases made.symm.trans stored
        exact Nat.one_pos
      · exact ⟨_, List.mem_of_getElem? self, own, expiring⟩
      · cases made.symm.trans stored
        cases date
      · rw [counts]
        exact inv.chain.cons fun _ _ => .inl rfl
      · rw [counts]
        rintro _ ⟨⟩
        exact ⟨_, made, Nat.le_refl 1⟩
      · rw [counts]
        intro count inside
        rcases List.mem_cons.mp inside with rfl | earlier
        · exact ⟨Nat.one_pos, _, self, .inl ⟨expiring, rfl⟩⟩
        · exact counted count earlier
  | @more counter lives more count start =>
      have stored := (Counters.get_eq_some.mp lives).1
      have idle : ¬ Expiring key u := fun expiring => by
        cases start.symm.trans expiring.2
      have newest : ∀ count ∈ (countsOf key a.trace).head?, count.2 ≤ counter.value := by
        intro count newest
        obtain ⟨counter', stored', most⟩ := inv.newest count newest
        cases stored.symm.trans stored'
        exact most
      refine ⟨fun counter' stored' => ?_, fun counter' stored' undated => ?_,
        fun counter' expiresAt stored' date => ?_, ?_, ?_, ?_⟩
      · cases more.symm.trans stored'
        exact Nat.succ_pos _
      · cases more.symm.trans stored'
        exact dated stored undated idle
      · cases more.symm.trans stored'
        exact since stored date
      · rw [counts]
        rcases count with none | ⟨next, _⟩
        · rw [none]
          exact inv.chain
        · rw [next]
          exact inv.chain.cons fun count inside => .inr (Nat.lt_succ_of_le (newest count inside))
      · rw [counts]
        intro last inside
        refine ⟨_, more, ?_⟩
        rcases count with none | ⟨next, _⟩
        · rw [none] at inside
          exact Nat.le_succ_of_le (newest last inside)
        · rw [next] at inside
          cases inside
          exact Nat.le_refl _
      · rw [counts]
        intro last inside
        rcases count with none | ⟨next, ended⟩
        · rw [none] at inside
          exact counted last inside
        · rw [next, actor] at inside
          rcases List.mem_cons.mp inside with rfl | earlier
          · exact ⟨Nat.succ_pos _, _, self, .inr (.inl ended)⟩
          · exact counted last earlier
  | @dated counter lives dated uncounted expire ended =>
      have stored := (Counters.get_eq_some.mp lives).1
      rw [uncounted] at counts
      refine ⟨fun counter' stored' => ?_, fun counter' stored' undated => ?_,
        fun counter' expiresAt stored' date => ?_, ?_, ?_, ?_⟩
      · cases dated.symm.trans stored'
        exact inv.positive counter stored
      · cases dated.symm.trans stored'
        cases undated
      · cases dated.symm.trans stored'
        cases date
        refine ⟨a.store.1.now, event, { u with body := s' }, ?_, expire, ?_, ended, rfl⟩
        · rw [log]
          exact List.mem_cons_self
        · rw [actor]
          exact self
      · rw [counts]
        exact inv.chain
      · rw [counts]
        intro count newest
        obtain ⟨counter', stored', most⟩ := inv.newest count newest
        cases stored.symm.trans stored'
        exact ⟨_, dated, most⟩
      · rw [counts]
        exact counted

theorem Counting.env {event : RateEvent} {c : Change RateRequest (Counters × List Int)}
    {outcomes : List (Thread RateRequest Outcome)} {begin : RateRequest → Marked RateStage}
    (inv : Counting config key a) (changed : (timedRate config).env event a.store outcomes = some c) :
    Counting config key (a.change begin c) := by
  have unchanged : c.settle = none ∧ c.store.1.stored = a.store.1.stored ∧
      c.store.2 = a.store.2 := by
    cases event <;> cases changed <;> exact ⟨rfl, rfl, rfl⟩
  obtain ⟨unsettled, stored, stamps⟩ := unchanged
  have kept {j : Nat} {u : StagedRequest} (found : a.threads[j]? = some u) :
      (a.change begin c).threads[j]? = some u := by
    rw [World.change_kept found, unsettled]
    simp
  have log : (a.change begin c).log = a.log := by
    rw [World.log, World.change_store, World.change_trace, stamps, World.log]
  have counter : (a.change begin c).store.1.stored key = a.store.1.stored key := congrFun stored key
  refine ⟨counter ▸ inv.positive, ?_, ?_, inv.chain, counter ▸ inv.newest, ?_⟩
  · rw [counter]
    intro counter stored undated
    obtain ⟨u, inside, expiring⟩ := inv.dated counter stored undated
    obtain ⟨j, found⟩ := List.mem_iff_getElem?.mp inside
    exact ⟨u, List.mem_of_getElem? (kept found), expiring⟩
  · rw [counter, log]
    intro counter expiresAt stored date
    obtain ⟨time, event, u, logged, expire, found, rest⟩ := inv.since counter expiresAt stored date
    exact ⟨time, event, u, logged, expire, kept found, rest⟩
  · intro count inside
    obtain ⟨positive, u, found, has⟩ := inv.counted count inside
    exact ⟨positive, u, kept found, has⟩

/-! ## Every run -/

theorem Counting.reached (ran : (timedRate config).Run Replied opened w) :
    ∃ a, (rateStages config).Refines w a ∧ ∀ key, Counting config key a := by
  have first : (rateStages config).Refines opened opened :=
    ⟨rfl, rfl, rfl, fun found => by cases found⟩
  refine System.Run.invariant rateStages_starts
    (fun {w a i choice t o k answer store u s'} inv refines replied found pending there answered
      step key => ?_) (fun inv _ _ changed key => (inv key).env changed) first
    (fun _ => Counting.start) ran
  obtain ⟨after, handled, rfl⟩ := System.stamped_handle answered
  have move : RateMove config u.tag u.body.stage o answer s'.stage := step.2
  have replies := replied t found
  rw [pending, Prog.pending_op] at replies
  refine (inv key).run there rfl move.not_counted (fun _ => move.has) (move.keyStep handled ?_ ?_
    (fun key => (inv key).positive) key)
  · rintro key rfl gone
    exact replies (refines.store ▸ gone)
  · rintro key seconds rfl
    exact replies

theorem awaitsExpire_of_expiring {p : Prog RedisIface Unit} {s : Marked RateStage}
    (follows : p.Follows ((rateStages config).step request) ((rateStages config).ends request) s)
    (expiring : s.stage = .expiring) (own : request.key = some key) :
    awaitsExpire key p = true := by
  cases p with
  | pure a =>
      rcases follows.2 with ⟨ended, _⟩ | ⟨_, ended, _⟩ <;> cases expiring.symm.trans ended
  | throw e =>
      rcases follows.2 with ended | ⟨_, ended, _⟩ <;> cases expiring.symm.trans ended
  | op o k =>
      cases o with
      | incr key' =>
          obtain ⟨⟨stage', _⟩, ⟨-, move⟩, -⟩ := follows (.ok 1)
          rw [expiring] at move
          cases move
      | expire key' seconds =>
          obtain ⟨⟨stage', _⟩, ⟨-, move⟩, -⟩ := follows (.ok ())
          rw [expiring] at move
          cases move with
          | expire own' =>
              cases own.symm.trans own'
              exact decide_eq_true rfl

theorem returned_of_counted {p : Prog RedisIface Unit} {s : Marked RateStage} {count : Nat}
    (follows : p.Follows ((rateStages config).step request) ((rateStages config).ends request) s)
    (counted : s.stage = .counted count) (low : count ≤ config.TENANT_QUEUE_RATE_LIMIT_MAX) :
    p.outcome = .returned := by
  cases p with
  | pure a => rfl
  | throw e =>
      rcases follows.2 with ended | ⟨count', ended, high⟩
      · cases counted.symm.trans ended
      · cases counted.symm.trans ended
        omega
  | op o k =>
      obtain ⟨s', ⟨-, move⟩, -⟩ := follows (.error .redis)
      exact absurd counted move.not_counted

theorem low_of_returned {p : Prog RedisIface Unit} {s : Marked RateStage} {count : Nat}
    (follows : p.Follows ((rateStages config).step request) ((rateStages config).ends request) s)
    (returned : p.outcome = .returned) (has : s.stage.Has count) :
    count ≤ config.TENANT_QUEUE_RATE_LIMIT_MAX := by
  cases p with
  | pure a =>
      rcases follows.2 with ⟨ended, _⟩ | ⟨count', ended, low⟩
      · rcases has with ⟨other, _⟩ | other | other <;> cases ended.symm.trans other
      · rcases has with ⟨other, _⟩ | other | other <;> cases ended.symm.trans other
        exact low
  | throw e => cases returned
  | op o k => cases returned

/-- **Windows end.** In every run in which each call that makes a counter gets the replies of both
its commands, every counter has its expiry or a call that is about to set it, a tenant is refused
for less than one window after an accepted request, and a window has as many accepted requests as
the limit at most. -/
theorem windowsEnd (ran : (timedRate config).Run Replied opened w) :
    WindowsEnd config w := by
  obtain ⟨a, refines, inv⟩ := Counting.reached ran
  have store := refines.store
  have dated (key : String) (counter : Counter) (there : w.store.1.get key = some counter)
      (undated : counter.expiresAt = none) : ∃ t ∈ w.threads, awaitsExpire key t.body = true := by
    rw [← store] at there
    obtain ⟨u, inside, own, expiring⟩ :=
      (inv key).dated counter (Counters.get_eq_some.mp there).1 undated
    obtain ⟨j, found⟩ := List.mem_iff_getElem?.mp inside
    obtain ⟨t, there, same, _, follows⟩ := refines.thread_of_stage found
    exact ⟨t, List.mem_of_getElem? there, awaitsExpire_of_expiring follows expiring (same ▸ own)⟩
  refine ⟨dated, fun key refuses => ?_, fun key older suffix => ?_⟩
  · cases there : w.store.1.get key with
    | none =>
        rw [Counters.next_of_none there] at refuses
        have positive := config.max_pos
        dsimp only at refuses
        omega
    | some counter =>
        cases date : counter.expiresAt with
        | none => exact .inl (dated key counter there date)
        | some expiresAt =>
            obtain ⟨stored, lives⟩ := Counters.get_eq_some.mp there
            rw [Counter.lives, date] at lives
            have lives := of_decide_eq_true lives
            rw [← store] at stored
            obtain ⟨time, event, u, logged, expire, found, counted, sum⟩ :=
              (inv key).since counter expiresAt stored date
            obtain ⟨t, found, _, _, follows⟩ := refines.thread_of_stage found
            refine .inr ⟨time, event, ?_, expire, ?_, sum ▸ lives⟩
            · show (time, event) ∈ w.store.2.zip w.trace
              rw [← store, ← refines.trace]
              exact logged
            · rw [RateState.accepted, found]
              exact decide_eq_true (returned_of_counted follows counted config.max_pos)
  · have counts := (inv key).counted
    have chain := (inv key).chain
    rw [refines.trace] at counts chain
    refine length_filter_sinceFirst_le (chain.suffix suffix)
      (fun count inside => (counts count (suffix.subset inside)).1) fun count inside accepted => ?_
    obtain ⟨_, u, found, has⟩ := counts count (suffix.subset inside)
    obtain ⟨t, there, _, _, follows⟩ := refines.thread_of_stage found
    rw [RateState.accepted, there] at accepted
    exact low_of_returned follows (of_decide_eq_true accepted) has

end

/-! ### A call that dies between its commands -/

/-- One request in a second. -/
def onePerSecond : RateConfig := ⟨1, 1, Nat.one_pos, Nat.one_pos⟩

def replied (_ : RateState) : Act Reply RateEvent → Bool
  | .env _ => true
  | .run _ choice => choice = .answered

theorem replied_sound (w : RateState) (act : Act Reply RateEvent) (passes : replied w act = true) :
    Replied w act := by
  cases act with
  | env => trivial
  | run i choice =>
      have answered : choice = .answered := of_decide_eq_true passes
      intro t _
      cases t.body.pending with
      | none => trivial
      | some o =>
          cases o with
          | incr key =>
              intro _ lost
              cases answered.symm.trans lost
          | expire => exact answered

/-- A request is accepted, the next one is refused, and one after the window is accepted again. -/
def renewedActs : List (Act Reply RateEvent) :=
  [.env (.request (.task (some "acme"))), .run 0 .answered, .run 0 .answered,
    .env (.request (.task (some "acme"))), .run 1 .answered, .env (.wait 1000),
    .env (.request (.task (some "acme"))), .run 2 .answered]

/-- The window of the counter ends, and the next one starts. -/
theorem renewed_windowsEnd : ∃ w, (timedRate onePerSecond).Run Replied opened w ∧
    RateState.accepted w 0 = true ∧ RateState.accepted w 1 = false ∧
      countsOf "tenant-queue-rate:acme" w.trace = [(2, 1), (1, 2), (0, 1)] ∧
        WindowsEnd onePerSecond w := by
  have evaluated : ((timedRate onePerSecond).execute replied opened renewedActs).any
      (fun w => RateState.accepted w 0 && !RateState.accepted w 1 &&
        decide (countsOf "tenant-queue-rate:acme" w.trace = [(2, 1), (1, 2), (0, 1)])) = true := by
    decide +kernel
  obtain ⟨w, ran, holds⟩ := System.Run.exists_of_execute replied_sound evaluated
  simp only [Bool.and_eq_true, Bool.not_eq_true', decide_eq_true_eq] at holds
  exact ⟨w, ran, holds.1.1, holds.1.2, holds.2, windowsEnd ran⟩

/-- The call that makes the counter dies before it sets the expiry; an hour later a request is
refused. -/
def dyingActs : List (Act Reply RateEvent) :=
  [.env (.request (.task (some "acme"))), .run 0 .answered, .run 0 .unsent, .env (.wait 3600000),
    .env (.request (.task (some "acme"))), .run 1 .answered]

/-- A counter without an expiry stays, and its tenant is refused though no request was ever
accepted. -/
theorem dying_not_windowsEnd : ∃ w,
    (timedRate onePerSecond).Run (fun _ _ => True) opened w ∧
      (w.store.1.get "tenant-queue-rate:acme") = some ⟨2, none⟩ ∧
        (w.threads.map fun t => t.body.outcome) = [.threw, .threw] ∧
          ¬ WindowsEnd onePerSecond w := by
  have evaluated : ((timedRate onePerSecond).execute (fun _ _ => true) opened
      dyingActs).any (fun w =>
        decide (w.store.1.get "tenant-queue-rate:acme" = some ⟨2, none⟩) &&
        decide ((w.threads.map fun t => t.body.outcome) = [.threw, .threw]) &&
        w.threads.all fun t => !awaitsExpire "tenant-queue-rate:acme" t.body) = true := by
    decide +kernel
  obtain ⟨w, ran, holds⟩ := System.Run.exists_of_execute (fun _ _ _ => trivial) evaluated
  simp only [Bool.and_eq_true, decide_eq_true_eq] at holds
  obtain ⟨⟨there, dead⟩, idle⟩ := holds
  refine ⟨w, ran, there, dead, fun ends => ?_⟩
  obtain ⟨t, inside, awaits⟩ := ends.dated _ _ there rfl
  have none := List.all_eq_true.mp idle t inside
  rw [awaits] at none
  cases none

end QueueRate
