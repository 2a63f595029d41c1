import BirthHub.Effect.Rely
import BirthHub.Orchestrator.Recovery

/-!
# The tenant of an orchestrator job

A job of a queue becomes a request by `createJobProcessor` of `apps/agent-orchestrator/worker.ts`
and `EventRunRequest` of `main.py`, and its flow of `orchestrator/flows.py` publishes events for the
agents. The body of a request is given as the value of its JSON text.
-/

namespace Orchestrator

open Data Effect

/-! ## The worker of the queues -/

inductive QueueName
  | BOARD_REPORT
  | CHURN_RISK_HIGH
  | DEAL_CLOSED_WON
  | HEALTH_SCORE_UPDATE

def QueueName.text : QueueName → String
  | .BOARD_REPORT => "BOARD_REPORT"
  | .CHURN_RISK_HIGH => "CHURN_RISK_HIGH"
  | .DEAL_CLOSED_WON => "DEAL_CLOSED_WON"
  | .HEALTH_SCORE_UPDATE => "HEALTH_SCORE_UPDATE"

def QUEUE_TO_EVENT : QueueName → EventType
  | .BOARD_REPORT => .BOARD_REPORT
  | .CHURN_RISK_HIGH => .CHURN_RISK_HIGH
  | .DEAL_CLOSED_WON => .DEAL_CLOSED_WON
  | .HEALTH_SCORE_UPDATE => .HEALTH_ALERT

structure MinimalJob where
  id : String
  data : Dict
  priority : Option Nat := none

/-- `job.data[key]`; `none` is `undefined`. -/
def MinimalJob.get (job : MinimalJob) (key : String) : Option Json := job.data.lookup key

/-- `value ?? other`. -/
def coalesce (value other : Option Json) : Option Json :=
  match value with
  | none | some .null => other
  | some value => some value

/-- `value || other`. -/
def orElse (value other : Option Json) : Option Json :=
  if value.any Json.truthy then value else other

def readString (value : Option Json) (fallback : String) : String :=
  match value with
  | some (.string text) => if trim text = "" then fallback else text
  | _ => fallback

def resolveEntityId (job : MinimalJob) (eventType : EventType) : String :=
  match eventType with
  | .DEAL_CLOSED_WON =>
      readString (coalesce (coalesce (job.get "dealId") (job.get "deal_id"))
        (job.get "entity_id")) "unknown"
  | _ =>
      readString (coalesce (coalesce (job.get "customerId") (job.get "customer_id"))
        (job.get "entity_id")) "unknown"

/-- `job.data.tenantId || job.data.tenant_id || null`. -/
def MinimalJob.tenant_id (job : MinimalJob) : Json :=
  (orElse (orElse (job.get "tenantId") (job.get "tenant_id")) (some .null)).getD .null

def buildOrchestratorEventPayload (queueName : QueueName) (job : MinimalJob) : Dict :=
  let eventType := QUEUE_TO_EVENT queueName
  [("context", Json.fromEntries ([("job_id", .string job.id),
      ("priority", Json.nat (job.priority.getD 0)), ("queue", .string queueName.text),
      ("tenant_id", job.tenant_id)] ++ job.data)),
    ("entity_id", .string (resolveEntityId job eventType)),
    ("event_id", .string (queueName.text ++ ":" ++ job.id)),
    ("event_type", .string eventType.name)]

/-! ## The body of a request -/

/-- The members of a body as an `EventRunRequest`; `tenant_id` has a default. -/
def EventRunRequest.ofBody (body : Dict) : Option EventRunRequest :=
  let tenant_id :=
    match body.lookup "tenant_id" with
    | none => some "unknown"
    | some (.string tenant_id) => some tenant_id
    | some _ => none
  match body.lookup "event_id", body.lookup "event_type", body.lookup "entity_id",
    body.lookup "context", tenant_id with
  | some (.string event_id), some (.string event_type), some (.string entity_id),
    some (.object context), some tenant_id =>
      match EventType.ofName event_type with
      | some event_type =>
          if event_id_min : 3 ≤ event_id.length then
            if tenant_id_min : 1 ≤ tenant_id.length then
              some {
                event_id, event_type, entity_id, context, tenant_id, event_id_min, tenant_id_min }
            else none
          else none
      | none => none
  | _, _, _, _, _ => none

def requestOf (queueName : QueueName) (job : MinimalJob) : Option EventRunRequest :=
  EventRunRequest.ofBody (buildOrchestratorEventPayload queueName job)

/-! ## The flows -/

structure AgentTaskEvent where
  event_id : String
  tenant_id : String
  agent_type : String
  task : String
  payload : Dict
  timestamp : String
  correlation_id : String

inductive FlowOp
  | uuid4
  | now
  | publish (event : AgentTaskEvent)

abbrev FlowOp.Result : FlowOp → Type
  | .uuid4 => String
  | .now => String
  | .publish _ => String

abbrev FlowIface : Iface where
  Op := FlowOp
  Res := FlowOp.Result
  Err := String

def bus (o : FlowOp) : Prog FlowIface o.Result := Prog.perform (I := FlowIface) o

structure LifecycleEventState where
  entity_id : String
  context : Dict
  actions_taken : List String
  error : String

/-- A node, by the actions that it adds. -/
abbrev Node := LifecycleEventState → Prog FlowIface (List String)

/-- `str(value)` of a value that is not a text is `repr`. -/
def _trigger_agent_action (repr : Json → String) (agent_type task : String) (payload : Dict)
    (action_name : String) : Prog FlowIface (List String) := do
  let event_id : String ← bus .uuid4
  let tenant_id :=
    match payload.lookup "tenant_id" with
    | none => "unknown"
    | some (.string tenant_id) => tenant_id
    | some value => repr value
  let correlation_id : String ← bus .uuid4
  let timestamp : String ← bus .now
  let _ : String ← bus (.publish {
    event_id, tenant_id, agent_type, task, payload, timestamp, correlation_id })
  pure [action_name]

/-- What the nodes give to an agent. -/
def nodePayload (event : EventType) (state : LifecycleEventState) : Dict :=
  [("event", .string event.name), ("entity_id", .string state.entity_id),
    ("context", .object state.context)]

section

variable (repr : Json → String)

def financeiro_emit_invoice : Node := fun state =>
  _trigger_agent_action repr "financeiro" "run" (nodePayload .DEAL_CLOSED_WON state)
    "financeiro_emit_invoice_requested"

def juridico_generate_contract : Node := fun state =>
  _trigger_agent_action repr "juridico" "run" (nodePayload .DEAL_CLOSED_WON state)
    "juridico_generate_contract_requested"

def pos_venda_start_onboarding : Node := fun state =>
  _trigger_agent_action repr "pos-venda" "run" (nodePayload .DEAL_CLOSED_WON state)
    "pos_venda_start_onboarding_requested"

def analista_log_anomaly : Node := fun state =>
  _trigger_agent_action repr "analista" "run" (nodePayload .HEALTH_ALERT state)
    "analista_log_anomaly_requested"

def pos_venda_trigger_playbook : Node := fun state =>
  _trigger_agent_action repr "pos-venda" "run" (nodePayload .HEALTH_ALERT state)
    "pos_venda_trigger_playbook_requested"

/-- `_post_with_retry` logs, and returns what it was given. -/
def pos_venda_trigger_churn_playbook : Node := fun _ =>
  pure ["pos_venda_trigger_churn_playbook_requested"]

def analista_log_churn_risk : Node := fun state =>
  _trigger_agent_action repr "analista" "run" (nodePayload .CHURN_RISK_HIGH state)
    "analista_log_churn_risk_requested"

def financeiro_prepare_retention_offer : Node := fun state =>
  _trigger_agent_action repr "financeiro" "run" (nodePayload .CHURN_RISK_HIGH state)
    "financeiro_prepare_retention_offer_requested"

def analista_generate_board_report : Node := fun state =>
  _trigger_agent_action repr "analista" "run" (nodePayload .BOARD_REPORT state)
    "analista_generate_board_report_requested"

def FLOW_RUNNERS : EventType → List Node
  | .DEAL_CLOSED_WON =>
      [financeiro_emit_invoice repr, juridico_generate_contract repr,
        pos_venda_start_onboarding repr]
  | .HEALTH_ALERT => [analista_log_anomaly repr, pos_venda_trigger_playbook repr]
  | .CHURN_RISK_HIGH =>
      [analista_log_churn_risk repr, financeiro_prepare_retention_offer repr,
        pos_venda_trigger_churn_playbook]
  | .BOARD_REPORT => [analista_generate_board_report repr]

end

/-- A flow whose nodes follow one another. -/
def linearFlow : List Node → LifecycleEventState → Prog FlowIface LifecycleEventState
  | [], state => pure state
  | node :: nodes, state => do
      let actions ← node state
      linearFlow nodes { state with actions_taken := state.actions_taken ++ actions }

/-- `runner.ainvoke` of a request. -/
def flowOf (repr : Json → String) (request : EventRunRequest) :
    Prog FlowIface LifecycleEventState :=
  linearFlow (FLOW_RUNNERS repr request.event_type) {
    entity_id := request.entity_id, context := request.context, actions_taken := [], error := "" }

/-! ## What is to hold -/

/-- The tenant that a job names. -/
def MinimalJob.names (job : MinimalJob) : Option String :=
  match orElse (job.get "tenantId") (job.get "tenant_id") with
  | some (.string tenant) => some tenant
  | _ => none

/-- The record of an event that is stored by an operation, or whose flow it runs. -/
def OrchestratorOp.stored : OrchestratorOp → Option EventRecord
  | .upsert_agent_task record => some record
  | .ainvoke _ record => some record
  | _ => none

/-- The tenant is that of the event of a job, and that of what its flow publishes. -/
structure TenantKept (queueName : QueueName) (job : MinimalJob) (tenant : String) : Prop where
  stored : ∀ (driver : Driver) (tasks : AgentTasks) (w : OrchestratorState),
    (orchestrator driver).Run (fun _ _ => True) (started tasks) w →
      ∀ event ∈ w.trace, ∀ t request, w.threads[event.actor]? = some t → t.tag = .run request →
        requestOf queueName job = some request →
          ∀ record, event.op.stored = some record → record.tenant_id = tenant
  published : ∀ (repr : Json → String) (request : EventRunRequest),
    requestOf queueName job = some request →
      ∀ events left, (flowOf repr request).Goes events left → ∀ event ∈ events,
        ∀ published, event.1 = .publish published → published.tenant_id = tenant

def KeepsTenant (queueName : QueueName) (job : MinimalJob) : Prop :=
  ∀ tenant, job.names = some tenant → TenantKept queueName job tenant

/-! ## The request of a job -/

section

variable {queueName : QueueName} {job : MinimalJob} {request : EventRunRequest}

theorem EventType.ofName_name (event_type : EventType) :
    ofName event_type.name = some event_type := by
  cases event_type <;> decide

/-- The body has no tenant of its own, so the default is taken. -/
theorem requestOf_eq (queueName : QueueName) (job : MinimalJob) :
    ∃ request, requestOf queueName job = some request ∧ request.tenant_id = "unknown" := by
  have long : 3 ≤ (queueName.text ++ ":" ++ job.id).length := by
    have queue : 3 ≤ queueName.text.length := by cases queueName <;> decide
    rw [String.length_append, String.length_append]
    omega
  obtain ⟨context, made⟩ : ∃ context, Json.fromEntries ([("job_id", .string job.id),
      ("priority", Json.nat (job.priority.getD 0)), ("queue", .string queueName.text),
      ("tenant_id", job.tenant_id)] ++ job.data) = .object context := ⟨_, rfl⟩
  have default_min : 1 ≤ "unknown".length := by decide
  refine ⟨⟨queueName.text ++ ":" ++ job.id, QUEUE_TO_EVENT queueName,
    resolveEntityId job (QUEUE_TO_EVENT queueName), context, "unknown", long, default_min⟩, ?_, rfl⟩
  rw [requestOf, EventRunRequest.ofBody, buildOrchestratorEventPayload, made]
  simp [List.lookup, EventType.ofName_name, -String.length_append, long, default_min]

end

/-! ## What the flows publish -/

section

variable {repr : Json → String}

/-- An event that is published has no tenant. -/
def PublishesUnknown (o : FlowOp) : Prop :=
  ∀ published, o = .publish published → published.tenant_id = "unknown"

theorem trigger_within {agent_type task action_name : String} {payload : Dict}
    (absent : payload.lookup "tenant_id" = none) :
    (_trigger_agent_action repr agent_type task payload action_name).Within PublishesUnknown := by
  have silent {o : FlowOp} (other : ∀ event, o ≠ .publish event) : PublishesUnknown o :=
    fun published same => absurd same (other published)
  refine .bind (.perform (silent nofun)) fun event_id => ?_
  refine .bind (.perform (silent nofun)) fun correlation_id => ?_
  refine .bind (.perform (silent nofun)) fun timestamp => ?_
  refine .bind (.perform fun published same => ?_) fun _ => trivial
  cases same
  rw [absent]

theorem linearFlow_within {nodes : List Node}
    (each : ∀ node ∈ nodes, ∀ state, (node state).Within PublishesUnknown)
    (state : LifecycleEventState) : (linearFlow nodes state).Within PublishesUnknown := by
  induction nodes generalizing state with
  | nil => exact trivial
  | cons node nodes ih =>
      refine .bind (each node List.mem_cons_self state) fun actions => ?_
      exact ih (fun other inside => each other (List.mem_cons_of_mem _ inside)) _

/-- No node gives the tenant to its agent. -/
theorem flowOf_within (request : EventRunRequest) :
    (flowOf repr request).Within PublishesUnknown := by
  refine linearFlow_within (fun node inside state => ?_) _
  have absent (event : EventType) : (nodePayload event state).lookup "tenant_id" = none := rfl
  cases event : request.event_type with
  | BOARD_REPORT =>
      rw [event] at inside
      obtain rfl := List.mem_singleton.mp inside
      exact trigger_within (absent _)
  | DEAL_CLOSED_WON =>
      rw [event] at inside
      rcases List.mem_cons.mp inside with rfl | inside
      · exact trigger_within (absent _)
      rcases List.mem_cons.mp inside with rfl | inside
      · exact trigger_within (absent _)
      obtain rfl := List.mem_singleton.mp inside
      exact trigger_within (absent _)
  | HEALTH_ALERT =>
      rw [event] at inside
      rcases List.mem_cons.mp inside with rfl | inside
      · exact trigger_within (absent _)
      obtain rfl := List.mem_singleton.mp inside
      exact trigger_within (absent _)
  | CHURN_RISK_HIGH =>
      rw [event] at inside
      rcases List.mem_cons.mp inside with rfl | inside
      · exact trigger_within (absent _)
      rcases List.mem_cons.mp inside with rfl | inside
      · exact trigger_within (absent _)
      obtain rfl := List.mem_singleton.mp inside
      exact trivial

end

/-! ## What is stored -/

section

variable {driver : Driver} {request : EventRunRequest} {now : String}

/-- What a request does with its own event. -/
def Stores : Request → OrchestratorOp → Prop
  | .run request, .execute request' => request' = request
  | .run request, .accept request' _ _ => request' = request
  | .run request, .ainvoke _ record => record.tenant_id = request.tenant_id
  | .run request, .upsert_agent_task record => record.tenant_id = request.tenant_id
  | _, _ => True

/-- What it relies on: the record that it gets has its tenant. -/
def Returns : Request → (o : OrchestratorOp) → OrchestratorIface.Answer o → Prop
  | .run request, .execute _, .ok first =>
      ∀ record, first = some (.started record) → record.tenant_id = request.tenant_id
  | .run request, .accept .., .ok admission =>
      ∀ record, admission = .started record → record.tenant_id = request.tenant_id
  | .run request, .ainvoke .., .ok ended => ended.record.tenant_id = request.tenant_id
  | _, _, _ => True

theorem accept_tenant {memory : Memory} {allow_retry : Bool} {existing : Option EventRecord}
    {record : EventRecord}
    (started : (memory.accept now request allow_retry existing).1 = .started record) :
    record.tenant_id = request.tenant_id := by
  unfold Memory.accept at started
  split at started
  · cases started
  · cases started
    rfl

theorem execute_tenant {memory : Memory} {allow_retry : Bool} {record : EventRecord}
    (started : (memory.execute now request allow_retry).1 = some (.started record)) :
    record.tenant_id = request.tenant_id := by
  unfold Memory.execute at started
  split at started
  · exact accept_tenant (Option.some.inj started)
  · cases started

theorem handle_returns {tag : Request} {o : OrchestratorOp} {choice : Choice} {s s' : Store}
    {answer : OrchestratorIface.Answer o} (stores : Stores tag o)
    (answered : (orchestrator driver).handle o choice s = some (answer, s')) :
    Returns tag o answer := by
  cases tag with
  | reprocess id => cases o <;> exact trivial
  | cancel id => cases o <;> exact trivial
  | run request =>
      cases o with
      | execute request' =>
          cases answered
          obtain rfl : request' = request := stores
          exact fun record started => execute_tenant started
      | accept request' allow_retry existing =>
          cases answered
          obtain rfl : request' = request := stores
          exact fun record started => accept_tenant started
      | ainvoke request' record =>
          cases answered
          have own : record.tenant_id = request.tenant_id := stores
          rcases choice with ⟨now, fails, detail | result⟩ <;> exact own
      | _ => cases answer <;> exact trivial

abbrev Keeps (request : EventRunRequest) {α : Type} (p : Prog OrchestratorIface α) : Prop :=
  p.Under (Stores (.run request)) (Returns (.run request)) fun _ => True

theorem upsert_keeps {record : EventRecord} (own : record.tenant_id = request.tenant_id) :
    Keeps request (_safe_upsert_event record) := by
  unfold _safe_upsert_event
  split
  · exact trivial
  · refine ⟨own, fun answer _ => ?_⟩
    cases answer <;> exact trivial

theorem runFlow_keeps {admission : Admission}
    (own : ∀ record, admission = .started record → record.tenant_id = request.tenant_id) :
    Keeps request (runFlow request admission) := by
  cases admission with
  | duplicate record => exact trivial
  | started record =>
      have own := own record rfl
      refine .bind ((upsert_keeps own).mono fun x _ => ?_)
      cases x with
      | error e => exact trivial
      | ok _ =>
          refine .performBind own (fun ended kept => ?_) fun _ _ => trivial
          refine .bind ((upsert_keeps kept).mono fun x _ => ?_)
          cases x with
          | error e => exact trivial
          | ok _ => cases ended <;> exact trivial

theorem run_event_keeps : Keeps request (run_event request) := by
  refine .performBind rfl (fun first started => ?_) fun _ _ => trivial
  cases first with
  | some admission =>
      exact runFlow_keeps fun record same => started record (congrArg some same)
  | none =>
      have accepts (existing : Option EventRecord) :
          Keeps request ((await (.accept request false existing)).bind (runFlow request)) :=
        .performBind rfl (fun admission started => runFlow_keeps started) fun _ _ => trivial
      refine ⟨trivial, fun answer _ => ?_⟩
      cases answer with
      | ok existing => exact accepts existing
      | error e => exact accepts none

theorem serve_under (tag : Request) :
    (serve tag).Under (Stores tag) (Returns tag) fun _ => True := by
  have any {tag : Request} (other : ∀ o, Stores tag o)
      (p : Prog OrchestratorIface Response) : p.Under (Stores tag) (Returns tag) fun _ => True := by
    induction p with
    | pure a => exact trivial
    | throw e => exact trivial
    | op o k ih => exact ⟨other o, fun answer _ => ih answer⟩
  cases tag with
  | run request => exact run_event_keeps
  | reprocess id => exact any (fun o => by cases o <;> exact trivial) _
  | cancel id => exact any (fun o => by cases o <;> exact trivial) _

theorem stored_tenant {tasks : AgentTasks} {w : OrchestratorState}
    (reached : (orchestrator driver).Run (fun _ _ => True) (started tasks) w)
    {event : Event OrchestratorIface} (happened : event ∈ w.trace)
    {t : Thread Request (Prog OrchestratorIface Response)}
    (found : w.threads[event.actor]? = some t) (tag : t.tag = .run request) {record : EventRecord}
    (stored : event.op.stored = some record) : record.tenant_id = request.tenant_id := by
  obtain ⟨t', found', own⟩ := reached.asked serve_under handle_returns rfl rfl event happened
  obtain rfl := Option.some.inj (found.symm.trans found')
  rw [tag] at own
  obtain ⟨actor, o, answer⟩ := event
  cases o with
  | upsert_agent_task saved =>
      cases stored
      exact own
  | ainvoke request' record' =>
      cases stored
      exact own
  | _ => cases stored

end

/-! ## Jobs -/

section

variable {queueName : QueueName} {job : MinimalJob} {request : EventRunRequest} {tenant : String}

/-- A request without a tenant stores a record. -/
theorem exists_stored (unnamed : request.tenant_id = "unknown") : ∃ w,
    (orchestrator plainDriver).Run (fun _ _ => True) (started []) w ∧ ∃ event ∈ w.trace,
      (∃ record, event.op.stored = some record) ∧
        ∃ t, w.threads[event.actor]? = some t ∧ t.tag = .run request := by
  obtain ⟨event_id, event_type, entity_id, context, _, event_id_min, tenant_id_min⟩ := request
  cases unnamed
  have ran : (orchestrator plainDriver).execute (fun _ _ => true) (started [])
      [.env (.run ⟨event_id, event_type, entity_id, context, "unknown", event_id_min,
        tenant_id_min⟩), .run 0 {}, .run 0 {}, .run 0 {}, .run 0 {}] = some _ := rfl
  exact ⟨_, System.Run.of_execute (fun _ _ _ => trivial) ran, _, List.mem_cons_self, ⟨_, rfl⟩, _,
    rfl, rfl⟩

theorem unknown_kept : TenantKept queueName job "unknown" where
  stored driver tasks w reached event happened t request found tag own record stored := by
    obtain ⟨request', own', unnamed⟩ := requestOf_eq queueName job
    obtain rfl := Option.some.inj (own'.symm.trans own)
    exact (stored_tenant reached happened found tag stored).trans unnamed
  published _ request _ _ _ goes event inside published same :=
    (flowOf_within request).goes goes event inside published same

/-- What is stored for a job has no tenant. -/
theorem unknown_of_kept (kept : TenantKept queueName job tenant) : tenant = "unknown" := by
  obtain ⟨request, own, unnamed⟩ := requestOf_eq queueName job
  obtain ⟨w, reached, event, happened, ⟨record, stored⟩, t, found, tag⟩ := exists_stored unnamed
  have named := kept.stored _ _ w reached event happened t request found tag own record stored
  have same := stored_tenant reached happened found tag stored
  exact named.symm.trans (same.trans unnamed)

/-- The tenant that a job names is kept just when it is the text for an unknown one. -/
theorem keepsTenant_iff :
    KeepsTenant queueName job ↔ ∀ tenant, job.names = some tenant → tenant = "unknown" :=
  ⟨fun keeps tenant named => unknown_of_kept (keeps tenant named),
    fun same tenant named => same tenant named ▸ unknown_kept⟩

end

/-- The deal of a tenant. -/
def dealOf (tenant : String) : MinimalJob where
  id := "1"
  data := [("tenantId", .string tenant), ("dealId", .string "deal_42")]

theorem dealOf_not_kept : ¬ KeepsTenant .DEAL_CLOSED_WON (dealOf "tenant_alpha") := by
  intro keeps
  have named : (dealOf "tenant_alpha").names = some "tenant_alpha" := by decide
  exact absurd (unknown_of_kept (keeps "tenant_alpha" named)) (by decide)

end Orchestrator
