import BirthHub.Effect.Moves
import BirthHub.Webhooks.Model

/-!
# Disabling an endpoint after failures in a row

`Monitor` says what an endpoint is to be after the attempts and settings it has seen: disabled
by ten failures in a row, and enabled again with none. A delivery job reads the endpoint before
its request and writes it after the answer, and an endpoint that is enabled again keeps its
count; the stored endpoint is what the monitor says as long as a failure is written over the
count it was read at, and a count that is enabled again is zero.
-/

namespace Webhooks

open Data Effect

/-! ## What an endpoint is to be -/

/-- What an endpoint sees: an attempt has failed or delivered, or its status is set. -/
inductive Signal
  | failed
  | delivered
  | set (status : WebhookEndpointStatus)
deriving DecidableEq

/-- An endpoint with the number of attempts that failed since the last delivery or since it
was enabled again. -/
structure Monitor where
  status : WebhookEndpointStatus := .ACTIVE
  failures : Nat := 0
deriving DecidableEq

def Monitor.step (m : Monitor) : Signal → Monitor
  | .failed =>
      { status := if m.failures + 1 ≥ FAILURE_THRESHOLD then .DISABLED else m.status
        failures := m.failures + 1 }
  | .delivered => { m with failures := 0 }
  | .set .DISABLED => { m with status := .DISABLED }
  | .set .ACTIVE => if m.status = .DISABLED then {} else m

/-- What an update of an endpoint tells. -/
def EndpointUpdate.signal (data : EndpointUpdate) : Option Signal :=
  if data.lastFailureAt.isSome then some .failed
  else if data.lastDeliveredAt.isSome then some .delivered
  else data.status.map .set

/-- The signal of an event and the endpoint it is for. -/
def signal : Event WebhookIface → Option (String × Signal)
  | ⟨_, .updateEndpoint id data, .ok _⟩ => data.signal.map fun s => (id, s)
  | _ => none

def Monitor.observe (id : String) (m : Monitor) (e : Event WebhookIface) : Monitor :=
  match signal e with
  | some (id', s) => if id' = id then m.step s else m
  | none => m

/-- The monitor of an endpoint after a trace, newest event first. -/
def monitor (id : String) (trace : List (Event WebhookIface)) : Monitor :=
  trace.foldr (fun e m => m.observe id e) {}

@[simp] theorem monitor_cons {id : String} {e : Event WebhookIface}
    {trace : List (Event WebhookIface)} :
    monitor id (e :: trace) = (monitor id trace).observe id e := rfl

/-- A monitor that is enabled has fewer failures in a row than disable it. -/
def Monitor.IsSane (m : Monitor) : Prop := m.status = .ACTIVE → m.failures < FAILURE_THRESHOLD

theorem Monitor.IsSane.step {m : Monitor} (sane : m.IsSane) (s : Signal) : (m.step s).IsSane := by
  intro active
  have positive : 0 < FAILURE_THRESHOLD := by decide
  cases s with
  | failed =>
      simp only [Monitor.step] at active ⊢
      by_cases reached : m.failures + 1 ≥ FAILURE_THRESHOLD
      · rw [if_pos reached] at active
        cases active
      · omega
  | delivered => exact positive
  | set status =>
      cases status with
      | DISABLED => cases active
      | ACTIVE =>
          simp only [Monitor.step] at active ⊢
          by_cases disabled : m.status = .DISABLED
          · rw [if_pos disabled]
            exact positive
          · rw [if_neg disabled] at active ⊢
            exact sane active

theorem monitor_isSane {id : String} {trace : List (Event WebhookIface)} :
    (monitor id trace).IsSane := by
  induction trace with
  | nil => exact fun _ => Nat.succ_pos 9
  | cons e trace ih =>
      rw [monitor_cons, Monitor.observe]
      split
      · split
        · exact ih.step _
        · exact ih
      · exact ih

/-! ## The property -/

/-- The endpoint for which a thread has stored a delivery. -/
def attempted : Event WebhookIface → Option String
  | ⟨_, .createDelivery _ endpointId _, .ok _⟩ => some endpointId
  | _ => none

/-- What thread `i` has signalled, latest first. -/
def signals (i : Nat) (trace : List (Event WebhookIface)) : List (String × Signal) :=
  trace.filterMap fun e => if e.actor = i then signal e else none

/-- The endpoints for which thread `i` has stored deliveries. -/
def attempts (i : Nat) (trace : List (Event WebhookIface)) : List String :=
  trace.filterMap fun e => if e.actor = i then attempted e else none

/-- What an attempt that has ended so has signalled. -/
def Outcome.signals (id : String) : Outcome → List (String × Signal) → Prop
  | .running, l => l = [] ∨ ∃ s, l = [(id, s)]
  | .returned, l => l = [(id, .delivered)]
  | .threw, l => l = [(id, .failed)]

structure Tracked (w : WebhookWorld) : Prop where
  /-- A job that attempts a delivery signals once how this went. -/
  recorded : ∀ {i t id}, w.threads[i]? = some t → attempts i w.trace = [id] →
    Outcome.signals id t.body.outcome (signals i w.trace)
  status : ∀ {id row}, w.store.endpoint id = some row → row.status = (monitor id w.trace).status
  count : ∀ {id row}, w.store.endpoint id = some row → row.status = .ACTIVE →
    row.consecutiveFailures = (monitor id w.trace).failures ∧
      row.consecutiveFailures < FAILURE_THRESHOLD

/-- The next operation of thread `i` is of a call that enables an endpoint. -/
def Reactivates (w : WebhookWorld) (act : Act Choice WebhookEvent) : Prop :=
  ∃ i choice t input, act = .run i choice ∧ w.threads[i]? = some t ∧
    t.tag = .call (.update input) ∧ input.status = some .ACTIVE

/-- In runs within `guard` endpoints are what their monitors say, and one that is disabled stays
so until a call enables it. -/
structure EndpointsTracked (rt : Runtime) (guard : WebhookWorld → Act Choice WebhookEvent → Prop)
    (w₀ : WebhookWorld) : Prop where
  tracked : ∀ w, (webhooks rt).Run guard w₀ w → Tracked w
  disabled : ∀ w w' act id row row', (webhooks rt).Run guard w₀ w → guard w act →
    (webhooks rt).step w act = some w' → w.store.endpoint id = some row →
    row.status = .DISABLED → w'.store.endpoint id = some row' → row'.status = .ACTIVE →
    Reactivates w act

/-- No endpoint has been created yet. -/
def unsubscribed {β : Type} (organizations : List OrganizationRow)
    (deliveries : List WebhookDelivery) (jobs : List OutboundWebhookJobPayload) :
    World WebhookIface WebhookTask Store β := ⟨⟨organizations, [], deliveries, jobs⟩, [], []⟩

/-! ## The condition -/

/-- Thread `i` has stored a failure at an endpoint. -/
def hasFailed (i : Nat) (trace : List (Event WebhookIface)) : Bool :=
  (signals i trace).any fun s => decide (s.2 = .failed)

/-- Thread `i` has tried to store the text of an error. -/
def hasReported (i : Nat) (trace : List (Event WebhookIface)) : Bool :=
  trace.any fun e => decide (e.actor = i) && match e.op with
    | .updateDelivery _ data => data.errorMessage.isSome
    | _ => false

/-- The endpoint may be updated so: a failure counts on from the stored count and does not enable
it, and one that is enabled again has a count of zero. -/
def mayUpdate (data : EndpointUpdate) (row : WebhookEndpoint) : Bool :=
  if data.lastFailureAt.isSome then
    if row.status = .ACTIVE then
      decide (data.consecutiveFailures = some (row.consecutiveFailures + 1))
    else decide (data.status = some .DISABLED)
  else if data.lastDeliveredAt.isSome then true
  else decide (data.status ≠ some .ACTIVE) || decide (row.status = .ACTIVE) ||
    decide (row.consecutiveFailures = 0)

/-- A failure of an attempt is stored, once, and over the count it was read at. -/
def tracksFailures (w : WebhookWorld) : Act Choice WebhookEvent → Bool
  | .env _ => true
  | .run i choice =>
      match (w.threads[i]?).bind (·.body.pending) with
      | some (.updateDelivery id data) => match data.errorMessage with
          | some text => hasFailed i w.trace || (choice.fault.isNone &&
              w.store.deliveries.any (·.id = id) && !includes text "status")
          | none => true
      | some (.updateEndpoint id data) =>
          if choice.fault.isSome then
            data.lastFailureAt.isNone || !hasReported i w.trace
          else (w.store.endpoint id).all (mayUpdate data)
      | _ => true

/-! ## The stages of a job -/

/-- An update as jobs make it. -/
def IsOutcome (data : EndpointUpdate) : Prop :=
  (∃ endpoint time, data = failureUpdate endpoint time) ∨ ∃ time, data = successUpdate time

/-- An update as the task makes it. -/
def IsUpdateOf (task : WebhookTask) (data : EndpointUpdate) : Prop :=
  IsOutcome data ∨ ∃ input, task = .call (.update input) ∧ data = input.data

inductive Stage
  | call
  /-- A job before it has looked for its endpoint. -/
  | fresh
  | read (endpoint : WebhookEndpoint)
  /-- A job that attempts a delivery. -/
  | trying (endpoint : WebhookEndpoint)
  /-- A job that has stored the text of an error and goes on to store the failure. -/
  | reporting (endpoint : WebhookEndpoint)
  | failed (endpoint : WebhookEndpoint)
  | delivered (endpoint : WebhookEndpoint)
  /-- A job whose failure is not stored. -/
  | lost
  /-- A job that attempts no delivery. -/
  | idle

namespace Stage

def initial : WebhookTask → Stage
  | .call _ => .call
  | .job _ => .fresh

/-- What a call awaits: it stores no outcome of an attempt. -/
def IsOfCall (call : WebhookCall) : WebhookOp → Prop
  | .createDelivery .. => False
  | .updateEndpoint _ data => ∃ input, call = .update input ∧ data = input.data
  | _ => True

/-- What an attempt awaits between its start and the writing of its outcome. -/
def IsOfAttempt : WebhookOp → Prop
  | .now | .incrWithExpiry .. | .dispatch .. => True
  | .updateDelivery _ data => data.errorMessage = none
  | _ => False

/-- The answer leaves the failure of the attempt to be stored. -/
def LeadsOn (text : String) (answer : Except Thrown Unit) : Prop :=
  answer = .ok () ∧ includes text "status" = false

inductive Move : WebhookTask → Stage → (o : WebhookOp) → WebhookIface.Answer o → Stage → Prop
  | call {c : WebhookCall} {o : WebhookOp} {answer : WebhookIface.Answer o}
      (own : IsOfCall c o) : Move (.call c) .call o answer .call
  | find {p : OutboundWebhookJobPayload} {endpoint : WebhookEndpoint} :
      Move (.job p) .fresh (.findEndpoint p.endpointId) (.ok (some endpoint)) (.read endpoint)
  | skip {p : OutboundWebhookJobPayload}
      {answer : WebhookIface.Answer (.findEndpoint p.endpointId)} :
      Move (.job p) .fresh (.findEndpoint p.endpointId) answer .idle
  | create {p : OutboundWebhookJobPayload} {endpoint : WebhookEndpoint} {signature : String}
      {delivery : WebhookDelivery} : Move (.job p) (.read endpoint)
        (.createDelivery p endpoint.id signature) (.ok delivery) (.trying endpoint)
  | uncreated {p : OutboundWebhookJobPayload} {endpoint : WebhookEndpoint} {signature : String}
      {e : Thrown} : Move (.job p) (.read endpoint)
        (.createDelivery p endpoint.id signature) (.error e) .idle
  | attempt {p : OutboundWebhookJobPayload} {endpoint : WebhookEndpoint} {o : WebhookOp}
      {answer : WebhookIface.Answer o} (own : IsOfAttempt o) :
      Move (.job p) (.trying endpoint) o answer (.trying endpoint)
  | deliver {p : OutboundWebhookJobPayload} {endpoint row : WebhookEndpoint} {time : Int} :
      Move (.job p) (.trying endpoint) (.updateEndpoint endpoint.id (successUpdate time))
        (.ok row) (.delivered endpoint)
  | fail {p : OutboundWebhookJobPayload} {endpoint row : WebhookEndpoint} {time : Int} :
      Move (.job p) (.trying endpoint) (.updateEndpoint endpoint.id (failureUpdate endpoint time))
        (.ok row) (.failed endpoint)
  | retry {p : OutboundWebhookJobPayload} {endpoint : WebhookEndpoint} {data : EndpointUpdate}
      {e : Thrown} (shape : IsOutcome data) : Move (.job p) (.trying endpoint)
        (.updateEndpoint endpoint.id data) (.error e) (.trying endpoint)
  | report {p : OutboundWebhookJobPayload} {endpoint : WebhookEndpoint} {id text : String}
      {answer : WebhookIface.Answer (.updateDelivery id { errorMessage := some text })}
      (leads : LeadsOn text answer) : Move (.job p) (.trying endpoint)
        (.updateDelivery id { errorMessage := some text }) answer (.reporting endpoint)
  | lose {p : OutboundWebhookJobPayload} {endpoint : WebhookEndpoint} {id text : String}
      {answer : WebhookIface.Answer (.updateDelivery id { errorMessage := some text })}
      (ends : ¬ LeadsOn text answer) : Move (.job p) (.trying endpoint)
        (.updateDelivery id { errorMessage := some text }) answer .lost
  | clock {p : OutboundWebhookJobPayload} {endpoint : WebhookEndpoint} {time : Int} :
      Move (.job p) (.reporting endpoint) .now (.ok time) (.reporting endpoint)
  | unclocked {p : OutboundWebhookJobPayload} {endpoint : WebhookEndpoint} {e : Thrown} :
      Move (.job p) (.reporting endpoint) .now (.error e) .lost
  | count {p : OutboundWebhookJobPayload} {endpoint row : WebhookEndpoint} {time : Int} :
      Move (.job p) (.reporting endpoint)
        (.updateEndpoint endpoint.id (failureUpdate endpoint time)) (.ok row) (.failed endpoint)
  | uncounted {p : OutboundWebhookJobPayload} {endpoint : WebhookEndpoint} {time : Int}
      {e : Thrown} : Move (.job p) (.reporting endpoint)
        (.updateEndpoint endpoint.id (failureUpdate endpoint time)) (.error e) .lost
  | close {p : OutboundWebhookJobPayload} {endpoint : WebhookEndpoint} {id : String}
      {data : DeliveryUpdate} {answer : WebhookIface.Answer (.updateDelivery id data)} :
      Move (.job p) (.failed endpoint) (.updateDelivery id data) answer (.failed endpoint)

/-- Where a job or a call may end. -/
def Exit {α : Type} : Except Thrown α → Stage → Prop
  | .ok _, s => s = .call ∨ s = .idle ∨ ∃ endpoint, s = .delivered endpoint
  | .error _, s => s = .call ∨ s = .idle ∨ s = .lost ∨ ∃ endpoint, s = .failed endpoint

end Stage

section Programs

variable {rt : Runtime} {c : WebhookCall} {p : OutboundWebhookJobPayload}
  {endpoint : WebhookEndpoint}

theorem follows_call {α : Type} {program : Prog WebhookIface α}
    (within : program.Within (Stage.IsOfCall c)) :
    program.Follows (Stage.Move (.call c)) (fun _ s => s = .call) .call := by
  induction program with
  | pure a => rfl
  | throw e => rfl
  | op o k ih => exact fun answer => ⟨.call, .call within.1, ih answer (within.2 answer)⟩

theorem within_bind {α : Type} {A : WebhookOp → Prop} {o : WebhookOp}
    {rest : o.Result → Prog WebhookIface α} (first : A o) (next : ∀ r, (rest r).Within A) :
    (await o >>= rest).Within A :=
  Prog.Within.bind (Prog.Within.perform (I := WebhookIface) first) next

theorem resolveOrganization_within {tenantReference : String} :
    (resolveOrganization tenantReference).Within (Stage.IsOfCall c) := by
  refine within_bind trivial fun organization => ?_
  cases organization <;> trivial

theorem enqueueAll_within {input : TopicInput} (endpoints : List WebhookEndpoint) :
    (enqueueAll input endpoints).Within (Stage.IsOfCall c) := by
  induction endpoints with
  | nil => trivial
  | cons endpoint endpoints ih => exact within_bind trivial fun _ => ih

theorem call_within : c.program.Within (Stage.IsOfCall c) := by
  cases c with
  | create input =>
      exact Prog.Within.bind resolveOrganization_within fun _ => within_bind trivial fun _ => trivial
  | update input =>
      refine Prog.Within.bind resolveOrganization_within fun _ => within_bind trivial fun row => ?_
      cases row with
      | none => trivial
      | some row => exact within_bind ⟨input, rfl, rfl⟩ fun _ => trivial
  | publish input => exact within_bind trivial enqueueAll_within
  | retry deliveryId tenantReference =>
      refine Prog.Within.bind resolveOrganization_within fun _ => within_bind trivial fun row => ?_
      cases row with
      | none => trivial
      | some row => exact Prog.Within.perform (I := WebhookIface) trivial

/-- How the `try` block of a job ends: delivered, or by an error that is counted already, or is
not. -/
def TryEnds (endpoint : WebhookEndpoint) : Except Thrown JobResult → Stage → Prop
  | .ok _, s => s = .delivered endpoint
  | .error e, s => s = .trying endpoint ∨ s = .failed endpoint ∧ isCounted e = true

/-- An operation of the attempt, and then the rest. -/
theorem follows_attempt {α : Type} {Q : Except Thrown α → Stage → Prop} {o : WebhookOp}
    {rest : o.Result → Prog WebhookIface α} (own : Stage.IsOfAttempt o)
    (next : ∀ r, (rest r).Follows (Stage.Move (.job p)) Q (.trying endpoint))
    (fault : ∀ e, Q (.error e) (.trying endpoint)) :
    (await o >>= rest).Follows (Stage.Move (.job p)) Q (.trying endpoint) :=
  Prog.Follows.performBind (I := WebhookIface) (fun r => ⟨_, .attempt own, next r⟩)
    fun e => ⟨_, .attempt own, fault e⟩

theorem consume_follows {key : String} {limit windowSeconds : Nat} :
    (consume key limit windowSeconds).Follows (Stage.Move (.job p))
      (fun _ s => s = .trying endpoint) (.trying endpoint) := by
  refine follows_attempt (o := .now) trivial (fun now => follows_attempt
    (o := .incrWithExpiry _ _) trivial (fun results => ?_) fun _ => rfl) fun _ => rfl
  cases results with
  | none => rfl
  | some count =>
      by_cases exceeded : count > limit
      · simp only [exceeded, if_true]
        rfl
      · simp only [exceeded, if_false]
        rfl

/-- The error of an answer other than success is counted already. -/
theorem isCounted_failedWith {statusCode : Int} :
    isCounted (error s!"Webhook delivery failed with status {statusCode}") = true := by
  refine decide_eq_true ?_
  have word : "status".toList <:+: "Webhook delivery failed with status ".toList := by decide
  refine word.trans ?_
  rw [String.toList_append]
  exact (List.prefix_append _ _).isInfix

theorem attemptDelivery_follows {serializedPayload signature : String}
    {delivery : WebhookDelivery} :
    (attemptDelivery rt p endpoint serializedPayload signature delivery).Follows
      (Stage.Move (.job p)) (TryEnds endpoint) (.trying endpoint) := by
  have fault (e : Thrown) : TryEnds endpoint (.error e) (.trying endpoint) := .inl rfl
  unfold attemptDelivery
  cases host : rt.host endpoint.url with
  | error e => exact fault e
  | ok host =>
      change Prog.Follows _ _ ((consume _ 10 1).bind _) _
      refine Prog.Follows.bind (Prog.Follows.mono (fun x s (same : s = .trying endpoint) => ?_)
        consume_follows)
      subst same
      cases x with
      | error e => exact fault e
      | ok _ =>
          refine follows_attempt (o := .dispatch _ _ _ _) trivial (fun result =>
            follows_attempt (o := .now) trivial (fun deliveredAt =>
              follows_attempt (o := .updateDelivery _ _) rfl (fun _ => ?_) fault) fault) fault
          by_cases ok : result.ok = true
          · simp only [ok, if_true]
            exact follows_attempt (o := .now) trivial (fun time =>
              Prog.Follows.performBind (I := WebhookIface) (fun row => ⟨_, .deliver, rfl⟩)
                fun e => ⟨_, .retry (.inr ⟨_, rfl⟩), fault e⟩) fault
          · simp only [ok]
            exact follows_attempt (o := .now) trivial (fun time =>
              Prog.Follows.performBind (I := WebhookIface)
                (fun row => ⟨_, .fail, .inr ⟨rfl, isCounted_failedWith⟩⟩)
                fun e => ⟨_, .retry (.inl ⟨_, _, rfl⟩), fault e⟩) fault

/-- The text of an error has the word `status` when its message has. -/
theorem includes_errorText {e : Thrown} : includes (errorText e) "status" = isCounted e := by
  unfold errorText isCounted
  cases e.message with
  | none => decide
  | some message => rfl

theorem recoverDelivery_follows {delivery : WebhookDelivery} {e : Thrown} {s : Stage}
    (at_catch : TryEnds endpoint (.error e) s) :
    (recoverDelivery endpoint delivery e).Follows (Stage.Move (.job p)) Stage.Exit s := by
  have lost (e : Thrown) : Stage.Exit (.error e : Except Thrown JobResult) .lost :=
    .inr (.inr (.inl rfl))
  have failed (e : Thrown) : Stage.Exit (.error e : Except Thrown JobResult) (.failed endpoint) :=
    .inr (.inr (.inr ⟨endpoint, rfl⟩))
  rcases at_catch with rfl | ⟨rfl, counted⟩
  · by_cases counted : isCounted e = true
    · have left {answer : Except Thrown Unit} : ¬ Stage.LeadsOn (errorText e) answer := by
        rintro ⟨_, unspoken⟩
        rw [includes_errorText, counted] at unspoken
        cases unspoken
      refine Prog.Follows.performBind (I := WebhookIface) (fun _ => ⟨.lost, .lose left, ?_⟩)
        fun _ => ⟨.lost, .lose left, lost _⟩
      simp only [counted, if_true]
      exact lost e
    · have unspoken : includes (errorText e) "status" = false := by
        rw [includes_errorText]
        exact Bool.eq_false_iff.mpr counted
      refine Prog.Follows.performBind (I := WebhookIface)
        (fun _ => ⟨.reporting endpoint, .report ⟨rfl, unspoken⟩, ?_⟩)
        fun _ => ⟨.lost, .lose (by simp [Stage.LeadsOn]), lost _⟩
      simp only [counted]
      exact Prog.Follows.performBind (I := WebhookIface)
        (fun time => ⟨_, .clock, Prog.Follows.performBind (I := WebhookIface)
          (fun row => ⟨_, .count, failed e⟩) fun e' => ⟨_, .uncounted, lost e'⟩⟩)
        fun e' => ⟨_, .unclocked, lost e'⟩
  · refine Prog.Follows.performBind (I := WebhookIface) (fun _ => ⟨_, .close, ?_⟩)
      fun e' => ⟨_, .close, failed e'⟩
    simp only [counted, if_true]
    exact failed e

theorem processOutboundWebhookJob_follows :
    (processOutboundWebhookJob rt p).Follows (Stage.Move (.job p)) Stage.Exit .fresh := by
  refine Prog.Follows.performBind (I := WebhookIface) (fun found => ?_)
    fun e => ⟨_, .skip, .inr (.inl rfl)⟩
  have skipped : Stage.Exit (.ok { skipped := true } : Except Thrown JobResult) .idle :=
    .inr (.inl rfl)
  cases found with
  | none => exact ⟨_, .skip, skipped⟩
  | some endpoint =>
      by_cases disabled : endpoint.status = .DISABLED
      · simp only [disabled, if_true]
        exact ⟨_, .skip, skipped⟩
      by_cases unsubscribed : p.topic ∉ endpoint.topics
      · simp only [disabled, unsubscribed, if_false]
        exact ⟨_, .skip, skipped⟩
      · simp only [disabled, unsubscribed, if_false]
        refine ⟨_, .find, Prog.Follows.performBind (I := WebhookIface)
          (fun delivery => ⟨_, .create, Prog.Follows.tryCatch ?_⟩)
          fun e => ⟨_, .uncreated, .inr (.inl rfl)⟩⟩
        refine Prog.Follows.mono (fun x s ended => ?_) attemptDelivery_follows
        cases x with
        | ok result => exact .inr (.inr ⟨endpoint, ended⟩)
        | error e => exact recoverDelivery_follows ended

theorem webhookProgram_follows (task : WebhookTask) :
    (webhookProgram rt task).Follows (Stage.Move task) Stage.Exit (Stage.initial task) := by
  cases task with
  | call c =>
      refine Prog.Follows.bind (Prog.Follows.mono (fun x s (same : s = .call) => ?_)
        (follows_call call_within))
      cases x <;> exact .inl same
  | job p =>
      refine Prog.Follows.bind (Prog.Follows.mono (fun x s ended => ?_)
        processOutboundWebhookJob_follows)
      cases x <;> exact ended

/-- The discipline of the stages. -/
def webhookStages (rt : Runtime) : Discipline WebhookIface WebhookTask (Option JobResult) :=
  movesDiscipline (webhooks rt) Stage.initial Stage.Move fun _ => Stage.Exit

theorem webhookStages_starts (task : WebhookTask) :
    ((webhooks rt).program task).Follows ((webhookStages rt).step task)
      ((webhookStages rt).ends task) ((webhookStages rt).start task) :=
  @Prog.Follows.marked WebhookIface WebhookTask (Option JobResult) Stage Stage.Move
    (fun _ => Stage.Exit) task _ _ (webhookProgram_follows task)

end Programs

/-! ## What an operation does to endpoints -/

section Effects

variable {store store' : Store} {choice : Choice} {o : WebhookOp}
  {answer : WebhookIface.Answer o} {i : Nat} {id : String} {row : WebhookEndpoint}
  {data : EndpointUpdate} {m : Monitor}

/-- Everything an operation can do to endpoints, and what it signals. -/
theorem Store.handle_cases (answered : store.handle o choice = some (answer, store')) :
    (store'.endpoints = store.endpoints ∧ signal ⟨i, o, answer⟩ = none) ∨
    (∃ row, store.endpoint row.id = none ∧ row.status = .ACTIVE ∧ row.consecutiveFailures = 0 ∧
      store'.endpoints = store.endpoints ++ [row] ∧ signal ⟨i, o, answer⟩ = none) ∨
    ∃ id data row, o = .updateEndpoint id data ∧ choice.fault = none ∧
      store.endpoint id = some row ∧ store' = store.updateEndpoint id data ∧
      signal ⟨i, o, answer⟩ = data.signal.map fun s => (id, s) := by
  cases fault : choice.fault with
  | some e =>
      cases o with
      | now =>
          cases answered
          exact .inl ⟨rfl, rfl⟩
      | _ =>
          simp only [handle, fault, Option.some.injEq, Prod.mk.injEq] at answered
          obtain ⟨rfl, rfl⟩ := answered
          exact .inl ⟨rfl, rfl⟩
  | none =>
      cases o with
      | createEndpoint organization createdByUserId topics url =>
          simp only [handle, fault, perform] at answered
          split at answered
          · cases answered
          · rename_i fresh
            simp only [Option.some.injEq, Prod.mk.injEq] at answered
            obtain ⟨rfl, rfl⟩ := answered
            exact .inr (.inl ⟨_, Option.not_isSome_iff_eq_none.mp fresh, rfl, rfl, rfl, rfl⟩)
      | updateEndpoint id data =>
          simp only [handle, fault, perform] at answered
          split at answered
          · simp only [Option.some.injEq, Prod.mk.injEq] at answered
            obtain ⟨rfl, rfl⟩ := answered
            exact .inl ⟨rfl, rfl⟩
          · rename_i row found
            simp only [Option.some.injEq, Prod.mk.injEq] at answered
            obtain ⟨rfl, rfl⟩ := answered
            exact .inr (.inr ⟨id, data, row, rfl, rfl, found, rfl, rfl⟩)
      | createDelivery payload endpointId signature =>
          simp only [handle, fault, perform] at answered
          split at answered
          · cases answered
          · simp only [Option.some.injEq, Prod.mk.injEq] at answered
            obtain ⟨rfl, rfl⟩ := answered
            exact .inl ⟨rfl, rfl⟩
      | updateDelivery id data =>
          simp only [handle, fault, perform] at answered
          split at answered <;> simp only [Option.some.injEq, Prod.mk.injEq] at answered <;>
            obtain ⟨rfl, rfl⟩ := answered <;> exact .inl ⟨rfl, rfl⟩
      | _ =>
          simp only [handle, fault, perform, Option.some.injEq, Prod.mk.injEq] at answered
          obtain ⟨rfl, rfl⟩ := answered
          exact .inl ⟨rfl, rfl⟩

theorem Store.endpoint_congr (same : store'.endpoints = store.endpoints) (id : String) :
    store'.endpoint id = store.endpoint id := by
  rw [endpoint, same, endpoint]

theorem Store.endpoint_append (same : store'.endpoints = store.endpoints ++ [row]) (id : String) :
    store'.endpoint id = (store.endpoint id).or (if row.id = id then some row else none) := by
  rw [endpoint, same, List.find?_append, endpoint]
  by_cases named : row.id = id <;> simp [named]

theorem Store.endpoint_update (id id' : String) :
    (store.updateEndpoint id data).endpoint id' =
      (store.endpoint id').map fun row => if row.id = id then data.apply row else row := by
  simp only [endpoint, updateEndpoint, List.find?_map]
  congr 2
  funext row
  simp only [Function.comp]
  split <;> rfl

theorem Store.endpoint_id (found : store.endpoint id = some row) : row.id = id := by
  simpa using List.find?_some found

/-- The stored endpoint is what its monitor says. -/
def Agrees (row : WebhookEndpoint) (m : Monitor) : Prop :=
  row.status = m.status ∧ (row.status = .ACTIVE → row.consecutiveFailures = m.failures)

/-- An allowed update leaves an endpoint what its monitor says. -/
theorem Agrees.update {task : WebhookTask} (agrees : Agrees row m) (shape : IsUpdateOf task data)
    (may : mayUpdate data row = true) :
    Agrees (data.apply row) (data.signal.elim m m.step) := by
  obtain ⟨status, count⟩ := agrees
  rcases shape with (⟨endpoint, time, rfl⟩ | ⟨time, rfl⟩) | ⟨input, _, rfl⟩
  · simp only [EndpointUpdate.apply, failureUpdate, EndpointUpdate.signal, Option.isSome_some,
      if_true, Option.elim_some, Option.getD_some, Monitor.step]
    by_cases active : row.status = .ACTIVE
    · -- the failure counts on from the stored count, which is the monitor's
      have same : endpoint.consecutiveFailures = row.consecutiveFailures := by
        simpa [mayUpdate, failureUpdate, active] using may
      rw [same, count active, ← status, active]
      exact ⟨rfl, fun _ => rfl⟩
    · have reached : endpoint.consecutiveFailures + 1 ≥ FAILURE_THRESHOLD := by
        simpa [mayUpdate, failureUpdate, active] using may
      rw [if_pos reached]
      refine ⟨?_, nofun⟩
      have disabled : m.status = .DISABLED := by
        cases kept : m.status with
        | ACTIVE => exact (active (status.trans kept)).elim
        | DISABLED => rfl
      rw [disabled]
      simp
  · exact ⟨status, fun active => rfl⟩
  · cases input with
    | mk endpointId status' tenantReference topics url =>
        cases status' with
        | none => exact ⟨status, count⟩
        | some status' =>
            cases status' with
            | DISABLED => exact ⟨rfl, nofun⟩
            | ACTIVE =>
                simp only [EndpointUpdate.apply, EndpointUpdateInput.data, EndpointUpdate.signal,
                  Option.isSome_none, Bool.false_eq_true, if_false, Option.map_some,
                  Option.elim_some, Option.getD_some, Option.getD_none, Monitor.step]
                by_cases active : row.status = .ACTIVE
                · rw [if_neg (by rw [← status, active]; decide)]
                  exact ⟨active.symm.trans status, fun _ => count active⟩
                · -- it is enabled again, and its count is zero
                  have disabled : m.status = .DISABLED := by
                    cases kept : m.status with
                    | ACTIVE => exact (active (status.trans kept)).elim
                    | DISABLED => rfl
                  rw [if_pos disabled]
                  refine ⟨rfl, fun _ => ?_⟩
                  simpa [mayUpdate, EndpointUpdateInput.data, active] using may

end Effects

/-! ## What a thread has done -/

namespace Stage

/-- What a job has signalled; nothing is said of calls. -/
def record : Stage → Option (List (String × Signal))
  | .call | .lost => none
  | .failed endpoint => some [(endpoint.id, .failed)]
  | .delivered endpoint => some [(endpoint.id, .delivered)]
  | _ => some []

/-- The endpoints for which a job has stored deliveries. -/
def tried : Stage → List String
  | .trying endpoint | .reporting endpoint | .failed endpoint | .delivered endpoint =>
      [endpoint.id]
  | _ => []

/-- The endpoint that a job has read and is to write. -/
def endpoint : Stage → Option WebhookEndpoint
  | .read endpoint | .trying endpoint | .reporting endpoint => some endpoint
  | _ => none

end Stage

section Histories

variable {i j : Nat} {o : WebhookOp} {answer : WebhookIface.Answer o} {e : Event WebhookIface}
  {trace : List (Event WebhookIface)} {s s' : Stage} {task : WebhookTask}

theorem signals_cons :
    signals i (e :: trace) = (if e.actor = i then (signal e).toList else []) ++ signals i trace := by
  rw [signals, List.filterMap_cons]
  by_cases own : e.actor = i
  · rw [if_pos own, if_pos own]
    cases signal e <;> rfl
  · rw [if_neg own, if_neg own]
    rfl

theorem attempts_cons : attempts i (e :: trace) =
    (if e.actor = i then (attempted e).toList else []) ++ attempts i trace := by
  rw [attempts, List.filterMap_cons]
  by_cases own : e.actor = i
  · rw [if_pos own, if_pos own]
    cases attempted e <;> rfl
  · rw [if_neg own, if_neg own]
    rfl

/-- What thread `i` has done when it is at the stage. -/
structure History (i : Nat) (trace : List (Event WebhookIface)) (s : Stage) : Prop where
  signals : ∀ l, s.record = some l → signals i trace = l
  attempts : attempts i trace = s.tried
  reported : ∀ endpoint, s = .reporting endpoint → hasReported i trace = true

theorem History.other (history : History i trace s) (foreign : e.actor ≠ i) :
    History i (e :: trace) s where
  signals l recorded := by
    rw [signals_cons, if_neg foreign]
    exact history.signals l recorded
  attempts := by
    rw [attempts_cons, if_neg foreign]
    exact history.attempts
  reported endpoint same := by
    rw [hasReported, List.any_cons, Bool.or_eq_true]
    exact .inr (history.reported endpoint same)

theorem History.fresh (unseen : ∀ e ∈ trace, e.actor ≠ i) : History i trace (.initial task) := by
  have nothing {β : Type} (f : Event WebhookIface → Option β) :
      trace.filterMap (fun e => if e.actor = i then f e else none) = [] := by
    rw [List.filterMap_eq_nil_iff]
    intro e inside
    rw [if_neg (unseen e inside)]
  cases task with
  | call c => exact ⟨nofun, nothing attempted, nofun⟩
  | job p =>
      refine ⟨fun l recorded => ?_, nothing attempted, nofun⟩
      cases recorded
      exact nothing signal

theorem signal_of_attempt (own : Stage.IsOfAttempt o) : signal ⟨i, o, answer⟩ = none := by
  cases o with
  | updateEndpoint => exact own.elim
  | _ => rfl

theorem attempted_of_attempt (own : Stage.IsOfAttempt o) : attempted ⟨i, o, answer⟩ = none := by
  cases o with
  | createDelivery => exact own.elim
  | _ => rfl

theorem attempted_of_call {c : WebhookCall} (own : Stage.IsOfCall c o) :
    attempted ⟨i, o, answer⟩ = none := by
  cases o with
  | createDelivery => exact own.elim
  | _ => rfl

/-- A move adds the delivery that its operation stores. -/
theorem Stage.Move.tried (i : Nat) (move : Move task s o answer s') (unlost : s' ≠ .lost) :
    s'.tried = (attempted ⟨i, o, answer⟩).toList ++ s.tried := by
  cases move with
  | call own =>
      rw [attempted_of_call own]
      rfl
  | attempt own =>
      rw [attempted_of_attempt own]
      rfl
  | lose | uncounted | unclocked => exact (unlost rfl).elim
  | _ => rfl

/-- A move adds what its operation signals. -/
theorem Stage.Move.record (i : Nat) (move : Move task s o answer s')
    {l : List (String × Signal)} (recorded : s'.record = some l) :
    ∃ l', s.record = some l' ∧ l = (signal ⟨i, o, answer⟩).toList ++ l' := by
  cases move with
  | call | lose | uncounted | unclocked => cases recorded
  | attempt own =>
      refine ⟨l, recorded, ?_⟩
      rw [signal_of_attempt own]
      rfl
  | find | skip | create | uncreated | deliver | fail | retry | report | clock | count =>
      cases recorded
      exact ⟨_, rfl, rfl⟩
  | close =>
      cases recorded
      exact ⟨_, rfl, rfl⟩

/-- A job goes on to store its failure after it has tried to store the text of the error. -/
theorem Stage.Move.reports {endpoint : WebhookEndpoint} (i : Nat) (move : Move task s o answer s')
    (same : s' = .reporting endpoint) : s = .reporting endpoint ∨
      hasReported i (⟨i, o, answer⟩ :: trace) = true := by
  cases move with
  | report => exact .inr (by simp [hasReported])
  | clock => exact .inl same
  | _ => cases same

/-- A move adds to what the thread has done what its operation does. -/
theorem History.move (history : History i trace s) (move : Stage.Move task s o answer s')
    (unlost : s' ≠ .lost) : History i (⟨i, o, answer⟩ :: trace) s' where
  signals l recorded := by
    obtain ⟨l', before, rfl⟩ := move.record i recorded
    rw [signals_cons, if_pos rfl, history.signals l' before]
  attempts := by
    rw [attempts_cons, if_pos rfl, history.attempts, move.tried i unlost]
  reported endpoint same := by
    rcases move.reports i same with before | now
    · rw [hasReported, List.any_cons, Bool.or_eq_true]
      exact .inr (history.reported endpoint before)
    · exact now

end Histories

/-! ## The invariant -/

abbrev StagedWebhooks : Type := World WebhookIface WebhookTask Store (Marked Stage)

structure Watched (a : StagedWebhooks) : Prop where
  actors : ∀ e ∈ a.trace, e.actor < a.threads.length
  history : ∀ {i : Nat} {u : Thread WebhookTask (Marked Stage)}, a.threads[i]? = some u →
    History i a.trace u.body.stage
  unlost : ∀ {i : Nat} {u : Thread WebhookTask (Marked Stage)}, a.threads[i]? = some u →
    u.body.stage ≠ .lost
  known : ∀ {i : Nat} {u : Thread WebhookTask (Marked Stage)} {endpoint}, a.threads[i]? = some u →
    u.body.stage.endpoint = some endpoint → (a.store.endpoint endpoint.id).isSome = true
  unseen : ∀ {id}, a.store.endpoint id = none → monitor id a.trace = {}
  agrees : ∀ {id row}, a.store.endpoint id = some row → Agrees row (monitor id a.trace)

section Steps

variable {rt : Runtime} {w : WebhookWorld} {a : StagedWebhooks} {i : Nat} {choice : Choice}
  {o : WebhookOp} {t : Thread WebhookTask (Prog WebhookIface (Option JobResult))}
  {k : WebhookIface.Answer o → Prog WebhookIface (Option JobResult)}
  {answer : WebhookIface.Answer o} {store store' : Store} {id : String} {row : WebhookEndpoint}
  {task : WebhookTask} {s s' : Stage}

theorem Watched.fresh {organizations : List OrganizationRow} {deliveries : List WebhookDelivery}
    {jobs : List OutboundWebhookJobPayload} :
    Watched (unsubscribed organizations deliveries jobs) where
  actors _ inside := nomatch inside
  history found := nomatch found
  unlost found := nomatch found
  known found := nomatch found
  unseen _ := rfl
  agrees found := nomatch found

theorem Store.endpoint_kept (answered : store.handle o choice = some (answer, store'))
    (there : (store.endpoint id).isSome = true) : (store'.endpoint id).isSome = true := by
  rcases Store.handle_cases (i := 0) answered with ⟨same, _⟩ | ⟨row, _, _, _, added, _⟩ |
    ⟨id', data, row, _, _, _, rfl, _⟩
  · rw [Store.endpoint_congr same]
    exact there
  · rw [Store.endpoint_append added, Option.isSome_or, there]
    rfl
  · rw [Store.endpoint_update, Option.isSome_map]
    exact there

theorem Stage.Move.known {endpoint : WebhookEndpoint} (move : Move task s o answer s')
    (writes : s'.endpoint = some endpoint)
    (answered : store.handle o choice = some (answer, store')) :
    s.endpoint = some endpoint ∨ (store.endpoint endpoint.id).isSome = true := by
  cases move with
  | find =>
      cases writes
      cases fault : choice.fault with
      | some e => simp [Store.handle, fault] at answered
      | none =>
          simp only [Store.handle, fault, Store.perform, Option.some.injEq,
            Prod.mk.injEq] at answered
          have found := Except.ok.inj answered.1
          rw [Store.endpoint_id found, found]
          exact .inr rfl
  | create | attempt | retry | report | clock => exact .inl writes
  | _ => cases writes

/-- What an endpoint is updated with. -/
theorem Stage.Move.isUpdateOf {data : EndpointUpdate} (move : Move task s o answer s')
    (updates : o = .updateEndpoint id data) : IsUpdateOf task data := by
  cases move with
  | call own =>
      subst updates
      obtain ⟨input, rfl, rfl⟩ := own
      exact .inr ⟨input, rfl, rfl⟩
  | attempt own =>
      subst updates
      exact own.elim
  | deliver =>
      cases updates
      exact .inl (.inr ⟨_, rfl⟩)
  | fail | count | uncounted =>
      cases updates
      exact .inl (.inl ⟨_, _, rfl⟩)
  | retry shape =>
      cases updates
      exact .inl shape
  | _ => cases updates

/-- The condition on an update of an endpoint, where it does not fail. -/
theorem mayUpdate_of_allowed {data : EndpointUpdate}
    (allowed : tracksFailures w (.run i choice) = true) (found : w.threads[i]? = some t)
    (pending : t.body = .op o k) (updates : o = .updateEndpoint id data)
    (fault : choice.fault = none) (stored : w.store.endpoint id = some row) :
    mayUpdate data row = true := by
  subst updates
  simpa [tracksFailures, found, pending, fault, stored] using allowed

theorem Watched.unlost_step {u : Thread WebhookTask (Marked Stage)} (inv : Watched a)
    (refines : (webhookStages rt).Refines w a)
    (allowed : tracksFailures w (.run i choice) = true) (found : w.threads[i]? = some t)
    (pending : t.body = .op o k) (there : a.threads[i]? = some u)
    (answered : a.store.handle o choice = some (answer, store'))
    (move : Stage.Move u.tag u.body.stage o answer s') : s' ≠ .lost := by
  intro ended
  have history := inv.history there
  have known {endpoint : WebhookEndpoint} :
      u.body.stage.endpoint = some endpoint → (a.store.endpoint endpoint.id).isSome = true :=
    inv.known there
  generalize u.body.stage = s at move history known
  generalize u.tag = task at move
  rw [refines.store] at answered known
  rw [refines.trace] at history
  cases move with
  | lose ends =>
      -- nothing is stored yet, so storing the text succeeds and the job goes on
      have unsaid : hasFailed i w.trace = false := by
        rw [hasFailed, history.signals [] rfl]
        rfl
      simp only [tracksFailures, found, Option.bind_some, pending, Prog.pending_op, unsaid,
        Bool.false_or, Bool.and_eq_true, Option.isNone_iff_eq_none, Bool.not_eq_true'] at allowed
      obtain ⟨⟨fault, stored⟩, unspoken⟩ := allowed
      simp only [Store.handle, fault, Store.perform, stored, if_true, Option.some.injEq,
        Prod.mk.injEq] at answered
      exact ends ⟨answered.1.symm, unspoken⟩
  | unclocked => cases answered
  | uncounted =>
      have reported := history.reported _ rfl
      cases fault : choice.fault with
      | some e =>
          simp only [tracksFailures, found, Option.bind_some, pending, Prog.pending_op, fault,
            Option.isSome_some, if_true, reported, Bool.not_true, Bool.or_false] at allowed
          cases allowed
      | none =>
          obtain ⟨row, stored⟩ := Option.isSome_iff_exists.mp (known rfl)
          simp [Store.handle, fault, Store.perform, stored] at answered
  | _ => cases ended

/-- An allowed operation leaves the endpoints what their monitors say. -/
theorem Watched.agrees_step {event : Event WebhookIface} (inv : Watched a)
    (refines : (webhookStages rt).Refines w a)
    (allowed : tracksFailures w (.run i choice) = true) (found : w.threads[i]? = some t)
    (pending : t.body = .op o k) (answered : a.store.handle o choice = some (answer, store'))
    (move : Stage.Move task s o answer s') (same : event = ⟨i, o, answer⟩) :
    (store'.endpoint id = none → (monitor id a.trace).observe id event = {}) ∧
      ∀ row, store'.endpoint id = some row → Agrees row ((monitor id a.trace).observe id event) := by
  subst same
  rcases Store.handle_cases (i := i) answered with ⟨kept, silent⟩ |
    ⟨created, fresh, active, zero, added, silent⟩ |
    ⟨id', data, stored, rfl, fault, before, rfl, signalled⟩
  · rw [Monitor.observe, silent, Store.endpoint_congr kept]
    exact ⟨inv.unseen, fun _ => inv.agrees⟩
  · rw [Monitor.observe, silent, Store.endpoint_append added]
    by_cases named : created.id = id
    · subst named
      rw [fresh, inv.unseen fresh]
      refine ⟨by simp, fun row now => ?_⟩
      rw [if_pos rfl, Option.none_or] at now
      cases now
      exact ⟨active, fun _ => zero⟩
    · rw [if_neg named, Option.or_none]
      exact ⟨inv.unseen, fun _ => inv.agrees⟩
  · rw [Monitor.observe, signalled, Store.endpoint_update]
    have may := mayUpdate_of_allowed allowed found pending rfl fault (refines.store ▸ before)
    by_cases named : id' = id
    · subst named
      have after := (inv.agrees before).update (move.isUpdateOf rfl) may
      rw [before, Option.map_some, if_pos (Store.endpoint_id before)]
      refine ⟨nofun, fun row now => ?_⟩
      cases now
      cases told : data.signal with
      | none =>
          rw [told] at after
          exact after
      | some s =>
          rw [told] at after
          simpa using after
    · have kept : (a.store.endpoint id).map (fun row => if row.id = id' then data.apply row else row) =
          a.store.endpoint id := by
        cases found : a.store.endpoint id with
        | none => rfl
        | some row => rw [Option.map_some, if_neg (by rw [Store.endpoint_id found]; exact Ne.symm named)]
      have unmoved : (match data.signal.map fun s => (id', s) with
          | some (id'', s) => if id'' = id then (monitor id a.trace).step s else monitor id a.trace
          | none => monitor id a.trace) = monitor id a.trace := by
        cases data.signal with
        | none => rfl
        | some s => exact if_neg named
      rw [kept, unmoved]
      exact ⟨inv.unseen, fun _ => inv.agrees⟩

theorem Watched.run {u : Thread WebhookTask (Marked Stage)} {s' : Marked Stage} (inv : Watched a)
    (refines : (webhookStages rt).Refines w a)
    (allowed : tracksFailures w (.run i choice) = true) (found : w.threads[i]? = some t)
    (pending : t.body = .op o k) (there : a.threads[i]? = some u)
    (answered : a.store.handle o choice = some (answer, store'))
    (step : (webhookStages rt).step u.tag u.body o answer s') :
    Watched (a.advance i s' store' ⟨i, o, answer⟩) := by
  obtain ⟨_, move⟩ := step
  have unlost := inv.unlost_step refines allowed found pending there answered move
  constructor
  case actors =>
    intro e inside
    rw [World.advance_length]
    rcases List.mem_cons.mp inside with rfl | before
    · exact (List.getElem?_eq_some_iff.mp there).1
    · exact inv.actors e before
  case history =>
    intro j v there'
    rcases World.advance_cases there there' with ⟨rfl, rfl⟩ | ⟨other, before⟩
    · exact (inv.history there).move move unlost
    · exact (inv.history before).other (Ne.symm other)
  case unlost =>
    intro j v there'
    rcases World.advance_cases there there' with ⟨rfl, rfl⟩ | ⟨other, before⟩
    · exact unlost
    · exact inv.unlost before
  case known =>
    intro j v endpoint there' writes
    refine Store.endpoint_kept answered ?_
    rcases World.advance_cases there there' with ⟨rfl, rfl⟩ | ⟨other, before⟩
    · rcases move.known writes answered with earlier | now
      · exact inv.known there earlier
      · exact now
    · exact inv.known before writes
  case unseen =>
    intro id absent
    exact (inv.agrees_step refines allowed found pending answered move rfl).1 absent
  case agrees =>
    intro id row stored
    exact (inv.agrees_step refines allowed found pending answered move rfl).2 row stored

theorem Watched.env {start : WebhookTask → Marked Stage} {event : WebhookEvent}
    {threads : List (Thread WebhookTask Outcome)} {c : Change WebhookTask Store}
    (starts : ∀ task, (start task).stage = .initial task) (inv : Watched a)
    (changed : (webhooks rt).env event a.store threads = some c) : Watched (a.change start c) := by
  have same : c.store = a.store := by
    cases event with
    | call call =>
        cases changed
        rfl
    | deliver n =>
        obtain ⟨payload, _, rfl⟩ := Option.map_eq_some_iff.mp changed
        rfl
  constructor
  case actors =>
    intro e inside
    rw [World.change_length]
    exact Nat.lt_add_right _ (inv.actors e inside)
  case history =>
    intro j v there
    rcases World.change_cases there with ⟨u, before, rfl⟩ | ⟨tag, beyond, _, rfl⟩
    · have held := inv.history before
      exact held
    · refine (starts tag).symm ▸ History.fresh fun e inside own => ?_
      have bound := inv.actors e inside
      omega
  case unlost =>
    intro j v there
    rcases World.change_cases there with ⟨u, before, rfl⟩ | ⟨tag, _, _, rfl⟩
    · have held := inv.unlost before
      exact held
    · rw [starts tag]
      cases tag <;> nofun
  case known =>
    intro j v endpoint there writes
    rw [World.change_store, same]
    rcases World.change_cases there with ⟨u, before, rfl⟩ | ⟨tag, _, _, rfl⟩
    · exact inv.known before writes
    · rw [starts tag] at writes
      cases tag <;> cases writes
  case unseen =>
    intro id absent
    rw [World.change_store, same] at absent
    exact inv.unseen absent
  case agrees =>
    intro id row stored
    rw [World.change_store, same] at stored
    exact inv.agrees stored

/-- What a thread has signalled by the time it ends so. -/
theorem outcome_signals {trace : List (Event WebhookIface)} {u : Marked Stage}
    (history : History i trace u.stage) (unlost : u.stage ≠ .lost)
    (follows : t.body.Follows ((webhookStages rt).step t.tag) ((webhookStages rt).ends t.tag) u)
    (attempted : attempts i trace = [id]) :
    Outcome.signals id t.body.outcome (signals i trace) := by
  have tried : u.stage.tried = [id] := history.attempts.symm.trans attempted
  have recorded := history.signals
  cases body : t.body with
  | pure result =>
      rw [body] at follows
      obtain ⟨_, idle | idle | ⟨endpoint, delivered⟩⟩ := follows
      · rw [idle] at tried
        cases tried
      · rw [idle] at tried
        cases tried
      · rw [delivered] at tried recorded
        cases tried
        exact recorded _ rfl
  | throw e =>
      rw [body] at follows
      obtain ⟨_, idle | idle | lost | ⟨endpoint, failed⟩⟩ := follows
      · rw [idle] at tried
        cases tried
      · rw [idle] at tried
        cases tried
      · exact (unlost lost).elim
      · rw [failed] at tried recorded
        cases tried
        exact recorded _ rfl
  | op o k =>
      cases stage : u.stage with
      | trying endpoint | reporting endpoint =>
          rw [stage] at recorded
          exact .inl (recorded _ rfl)
      | failed endpoint | delivered endpoint =>
          rw [stage] at recorded tried
          cases tried
          exact .inr ⟨_, recorded _ rfl⟩
      | _ =>
          rw [stage] at tried
          cases tried

/-- An allowed step does not enable an endpoint, unless it is of a call that does. -/
theorem Watched.disabled_step {row' : WebhookEndpoint} (refines : (webhookStages rt).Refines w a)
    {w' : WebhookWorld} {act : Act Choice WebhookEvent} (allowed : tracksFailures w act = true)
    (taken : (webhooks rt).step w act = some w') (stored : w.store.endpoint id = some row)
    (disabled : row.status = .DISABLED) (stored' : w'.store.endpoint id = some row')
    (active : row'.status = .ACTIVE) : Reactivates w act := by
  have unchanged (same : w'.store.endpoint id = w.store.endpoint id) : False := by
    rw [same, stored] at stored'
    cases stored'
    rw [disabled] at active
    cases active
  cases act with
  | env event =>
      obtain ⟨c, changed, rfl⟩ := System.step_env taken
      refine (unchanged ?_).elim
      cases event with
      | call call =>
          cases changed
          rfl
      | deliver n =>
          obtain ⟨payload, _, rfl⟩ := Option.map_eq_some_iff.mp changed
          rfl
  | run i choice =>
      obtain ⟨t, o, k, answer, store', found, pending, answered, rfl⟩ := System.step_run taken
      change store'.endpoint id = some row' at stored'
      change store'.endpoint id = w.store.endpoint id → False at unchanged
      rcases Store.handle_cases (i := i) answered with ⟨same, _⟩ | ⟨created, _, _, _, added, _⟩ |
        ⟨id', data, before, rfl, fault, found', rfl, _⟩
      · exact (unchanged (Store.endpoint_congr same id)).elim
      · refine (unchanged ?_).elim
        rw [Store.endpoint_append added, stored, Option.some_or]
      · rw [Store.endpoint_update, stored, Option.map_some] at stored' unchanged
        by_cases named : row.id = id'
        · rw [if_pos named] at stored'
          cases stored'
          obtain ⟨u, there, sameTag, _, follows⟩ := refines.stage_of_thread found
          rw [pending] at follows
          obtain ⟨s', ⟨_, move⟩, _⟩ := follows answer
          have may := mayUpdate_of_allowed allowed found pending rfl fault
            (named.symm.trans (Store.endpoint_id stored) ▸ stored)
          rcases move.isUpdateOf rfl with (⟨endpoint, time, rfl⟩ | ⟨time, rfl⟩) |
            ⟨input, call, rfl⟩
          · -- a failure does not enable
            have reached : (failureUpdate endpoint time).status = some .DISABLED := by
              simpa [mayUpdate, disabled, failureUpdate] using may
            simp only [EndpointUpdate.apply, reached, Option.getD_some] at active
            cases active
          · have kept : row.status = .ACTIVE := active
            rw [disabled] at kept
            cases kept
          · refine ⟨i, choice, t, input, rfl, found, call, ?_⟩
            cases status : input.status with
            | none =>
                simp only [EndpointUpdate.apply, EndpointUpdateInput.data, status, Option.getD_none,
                  disabled] at active
                cases active
            | some status' =>
                simp only [EndpointUpdate.apply, EndpointUpdateInput.data, status,
                  Option.getD_some] at active
                rw [active]
        · exact (unchanged (by rw [if_neg named])).elim

end Steps

/-! ## Runs -/

section Runs

variable {rt : Runtime} {organizations : List OrganizationRow}
  {deliveries : List WebhookDelivery} {jobs : List OutboundWebhookJobPayload}

theorem refines_unsubscribed : (webhookStages rt).Refines
    (unsubscribed organizations deliveries jobs) (unsubscribed organizations deliveries jobs) where
  store := rfl
  trace := rfl
  length := rfl
  follows found := nomatch found

theorem watched_of_run {w : WebhookWorld}
    (reached : (webhooks rt).Run (fun w act => tracksFailures w act = true)
      (unsubscribed organizations deliveries jobs) w) :
    ∃ a, (webhookStages rt).Refines w a ∧ Watched a :=
  System.Run.invariant webhookStages_starts
    (fun inv refines allowed found pending there answered step =>
      inv.run refines allowed found pending there answered step)
    (fun inv _ _ changed => inv.env (fun _ => rfl) changed) refines_unsubscribed Watched.fresh
    reached

/-- When each failure is stored over the count it was read at, endpoints are what their monitors
say. -/
theorem endpointsTracked_of_tracksFailures (rt : Runtime) (organizations : List OrganizationRow)
    (deliveries : List WebhookDelivery) (jobs : List OutboundWebhookJobPayload) :
    EndpointsTracked rt (fun w act => tracksFailures w act = true)
      (unsubscribed organizations deliveries jobs) where
  tracked w reached := by
    obtain ⟨a, refines, inv⟩ := watched_of_run reached
    constructor
    case recorded =>
      intro i t id found attempted
      obtain ⟨u, there, _, _, follows⟩ := refines.stage_of_thread found
      rw [← refines.trace] at attempted ⊢
      exact outcome_signals (inv.history there) (inv.unlost there) follows attempted
    case status =>
      intro id row stored
      rw [← refines.store] at stored
      rw [← refines.trace]
      exact (inv.agrees stored).1
    case count =>
      intro id row stored active
      rw [← refines.store] at stored
      rw [← refines.trace]
      obtain ⟨status, count⟩ := inv.agrees stored
      refine ⟨count active, ?_⟩
      rw [count active]
      exact monitor_isSane (status.symm.trans active)
  disabled w w' act id row row' reached allowed taken stored disabled stored' active := by
    obtain ⟨a, refines, _⟩ := watched_of_run reached
    exact Watched.disabled_step refines allowed taken stored disabled stored' active

end Runs

/-! ### An endpoint whose server fails -/

def plainRuntime : Runtime where
  hmac _ _ := ""
  host _ := .ok "hooks.example"

def oneOrganization : List OrganizationRow := [{ id := "org", slug := "org", tenantId := "tenant" }]

def hookInput : EndpointCreateInput where
  tenantReference := "tenant"
  topics := ["workflow.completed"]
  url := "https://hooks.example/in"

def hookTopic : TopicInput where
  organizationId := "org"
  payload := .object []
  tenantId := "tenant"
  topic := "workflow.completed"

/-- The next operations of thread `i`; a row is created under this id, and the server fails. -/
def performs (i operations : Nat) (newId : String) : List (Act Choice WebhookEvent) :=
  List.replicate operations (.run i {
    newId, response := { ok := false, responseBody := "", statusCode := 500 } })

/-- An endpoint is created, and a job for it has read it. -/
def created : List (Act Choice WebhookEvent) :=
  [.env (.call (.create hookInput))] ++ performs 0 2 "hook" ++
    [.env (.call (.publish hookTopic))] ++ performs 1 2 "" ++
    [.env (.deliver 0)] ++ performs 2 1 ""

/-- The endpoint has failed once and is enabled. -/
def failedOnce (w : WebhookWorld) : Bool :=
  (w.store.endpoint "hook").any fun row =>
    decide (row.status = .ACTIVE) && decide (row.consecutiveFailures = 1)

/-- One delivery fails, and both the endpoint and its monitor have one failure. -/
theorem failedOnce_tracked :
    ∃ (w : WebhookWorld) (row : WebhookEndpoint),
      (webhooks plainRuntime).Run (fun w act => tracksFailures w act = true)
        (unsubscribed oneOrganization [] []) w ∧
      w.store.endpoint "hook" = some row ∧ row.consecutiveFailures = 1 ∧
      row.status = (monitor "hook" w.trace).status ∧
      row.consecutiveFailures = (monitor "hook" w.trace).failures := by
  have evaluated : ((webhooks plainRuntime).execute tracksFailures
      (unsubscribed oneOrganization [] []) (created ++ performs 2 9 "delivery")).any
        failedOnce = true := by decide
  obtain ⟨w, reached, failed⟩ := System.Run.exists_of_execute (fun _ _ allowed => allowed) evaluated
  obtain ⟨row, stored, both⟩ := (Option.any_eq_true _ _).mp failed
  rw [Bool.and_eq_true, decide_eq_true_eq, decide_eq_true_eq] at both
  have tracked := (endpointsTracked_of_tracksFailures plainRuntime oneOrganization [] []).tracked
    w reached
  exact ⟨w, row, reached, stored, both.2, tracked.status stored, (tracked.count stored both.1).1⟩

def disableInput : EndpointUpdateInput where
  endpointId := "hook"
  status := some .DISABLED
  tenantReference := "tenant"

/-- The endpoint is disabled while the server is asked. -/
def disabledMeanwhile : List (Act Choice WebhookEvent) :=
  created ++ [.env (.call (.update disableInput))] ++ performs 3 3 "" ++ performs 2 7 "delivery"

/-- The job goes on to enable the endpoint. -/
def enables (w : WebhookWorld) : Bool :=
  ((w.threads[2]?).any fun t => match t.tag with
    | .job _ => true
    | .call _ => false) &&
  (w.store.endpoint "hook").any (fun row => decide (row.status = .DISABLED)) &&
  ((webhooks plainRuntime).step w (.run 2 {})).any fun w' =>
    (w'.store.endpoint "hook").any fun row => decide (row.status = .ACTIVE)

/-- A failed delivery that has read the endpoint before it was disabled enables it again. -/
theorem disabledMeanwhile_not_tracked :
    ¬ EndpointsTracked plainRuntime (fun _ _ => True) (unsubscribed oneOrganization [] []) ∧
      ∃ (w w' : WebhookWorld) (row row' : WebhookEndpoint),
        (webhooks plainRuntime).Run (fun _ _ => True) (unsubscribed oneOrganization [] []) w ∧
        (webhooks plainRuntime).step w (.run 2 {}) = some w' ∧
        w.store.endpoint "hook" = some row ∧ row.status = .DISABLED ∧
        w'.store.endpoint "hook" = some row' ∧ row'.status = .ACTIVE := by
  have evaluated : ((webhooks plainRuntime).execute (fun _ _ => true)
      (unsubscribed oneOrganization [] []) disabledMeanwhile).any enables = true := by
    decide
  obtain ⟨w, reached, enabled⟩ := System.Run.exists_of_execute (fun _ _ _ => trivial) evaluated
  rw [enables, Bool.and_eq_true, Bool.and_eq_true, Option.any_eq_true, Option.any_eq_true,
    Option.any_eq_true] at enabled
  obtain ⟨⟨⟨t, found, job⟩, row, stored, disabled⟩, w', taken, after⟩ := enabled
  obtain ⟨row', stored', active⟩ := (Option.any_eq_true _ _).mp after
  have disabled := of_decide_eq_true disabled
  have active := of_decide_eq_true active
  refine ⟨fun tracked => ?_, w, w', row, row', reached, taken, stored, disabled, stored', active⟩
  obtain ⟨i, choice, t', input, same, found', call, _⟩ :=
    tracked.disabled w w' _ "hook" row row' reached trivial taken stored disabled stored' active
  cases same
  rw [found] at found'
  cases found'
  rw [call] at job
  cases job

end Webhooks
