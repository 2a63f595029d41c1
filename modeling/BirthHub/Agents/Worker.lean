import BirthHub.Agents.Runtime
import BirthHub.Workflow.Interpolation
import BirthHub.Workflow.Runner

/-!
# The worker

Agents are run for the steps of workflows, by `runWorkflowAgent`, and for the jobs of the
task queues, by `processJob`. Both write the row of the execution before and after the run.
`agentSystem` is the system of any number of these and of consumptions by the API.
-/

namespace Agents

open Data Effect Tasks Workflow

/-- What the worker is deployed with. -/
structure Deployment where
  config : WorkerConfig
  catalog : List CatalogManifest
  /-- The options of a plan executor that is called directly. -/
  options : PlanExecutorOptions
  signPayload : (payload secret : String) → String
  /-- The check of `z.string().datetime()`. -/
  isDatetime : String → Bool
  toISOString : Int → String

/-! ## Workflow steps -/

/-- The configuration of an `AGENT_EXECUTE` step. -/
structure AgentExecuteConfig where
  agentId : String
  input : Option Members := none

def triggerText : TriggerType → String
  | .MANUAL => "MANUAL"
  | .WEBHOOK => "WEBHOOK"
  | .CRON => "CRON"
  | .EVENT => "EVENT"

/-- The context of a step as the templates see it. -/
def contextJson (context : RuntimeContext) : Json := .object [
  ("executionId", .string context.executionId),
  ("steps", context.steps),
  ("tenantId", .string context.tenantId),
  ("trigger", .object [
    ("output", context.triggerOutput),
    ("type", .string (triggerText context.triggerType))]),
  ("workflowId", .string context.workflowId)]

def summarizeContext (context : RuntimeContext) : String :=
  let stepCount := match context.steps with
    | .object members => members.length
    | _ => 0
  "workflow=" ++ context.workflowId ++ "; execution=" ++ context.executionId ++ "; tenant=" ++
    context.tenantId ++ "; steps=" ++ toString stepCount

/-- `prisma` rejects a value that is not a string. -/
def invalidTenant : Thrown := error "Argument `tenantId`: Invalid value provided."

/-- `(input.tenantId as string | undefined) ?? "default-tenant"`. -/
def tenantOfInput (input : Members) : Except Thrown String :=
  match (Json.object input).member "tenantId" with
  | none | some .null => .ok "default-tenant"
  | some (.string tenantId) => .ok tenantId
  | some _ => .error invalidTenant

/-- What the `agentExecutor` of the workflow runner is called with. -/
structure WorkflowAgentCall where
  agentId : String
  contextSummary : String
  input : Members

/-- The call that `executeAgentNode` makes. -/
def agentNodeCall (config : AgentExecuteConfig) (context : RuntimeContext) : WorkflowAgentCall where
  agentId := interpolateTemplate config.agentId (contextJson context)
  contextSummary := summarizeContext context
  input := (config.input.map (interpolateMembers (contextJson context))).getD []

/-- The input of a run for a workflow step. -/
def WorkflowAgentCall.runtimeInput (call : WorkflowAgentCall) (tenantId executionId : String)
    (organizationId : Option String) : RuntimeExecutionInput where
  agentId := call.agentId
  catalogAgentId := some call.agentId
  contextSummary := some call.contextSummary
  executionId
  input := Json.setMember call.input "workflowContextSummary" (.string call.contextSummary)
  organizationId
  tenantId

/-- The `agentExecutor` of the workflow runner. -/
def runWorkflowAgent (deployment : Deployment) (call : WorkflowAgentCall) :
    Prog AgentIface AgentRuntimeOutput := do
  let tenantId ← Prog.ofExcept (tenantOfInput call.input)
  let organization : Option Organization ← await (.findOrganization tenantId)
  let now : Int ← await .now
  let executionId := "workflow-agent:" ++ toString now ++ ":" ++ call.agentId
  let input := call.runtimeInput tenantId executionId (organization.map (·.id))
  await (.upsertExecution {
    agentId := input.agentId
    executionId
    inputPayload := input.input
    organizationId := input.organizationId
    source := .WORKFLOW
    tenantId
    userId := none })
  Prog.tryCatch (do
    let result ← executeManifestAgentRuntime deployment.config deployment.catalog input
    await (.updateExecution executionId result.status none)
    pure result.output) fun e => do
      await (.updateExecution executionId .FAILED
        (some (e.message.getD "Workflow agent execution failed")))
      .throw e

/-! ## Jobs -/

/-- A job of `agentExecutionJobSchema`. -/
structure AgentExecutionJob where
  agentId : String
  catalogAgentId : Option String := none
  executionId : String
  input : Members
  organizationId : Option String := none
  tenantId : String
  userId : Option String := none

/-- `agentExecutionJobSchema` of data whose fields have their types. -/
def AgentExecutionJob.conforms (job : AgentExecutionJob) : Bool :=
  job.agentId != "" && job.catalogAgentId != some "" && job.executionId != "" &&
    job.organizationId != some "" && job.tenantId != "" && job.userId != some ""

inductive Job
  /-- A job of the queue of tasks. -/
  | task (jobId : String) (data : TaskJob)
  | agent (data : AgentExecutionJob)

/-- What both kinds of jobs come to. -/
structure ExecutionPayload where
  agentId : String
  approvalRequired : Bool
  catalogAgentId : Option String
  executionId : String
  executionMode : ExecutionMode
  input : Members
  organizationId : Option String
  requestId : String
  tenantId : String
  userId : Option String

def readTaskJob (deployment : Deployment) (jobId : String) (data : TaskJob) :
    Prog AgentIface ExecutionPayload := do
  let payload ← Prog.ofExcept (parseTaskJob deployment.isDatetime data)
  let organization : Option Organization ←
    await (.findOrganization (payload.tenantId.getD "default-tenant"))
  let tenantSecret ← (match organization with
    | some organization => await (.findJobSigningSecret organization.tenantId)
    | none => pure none : Prog AgentIface (Option String))
  let now : Int ← await .now
  let tenantId ← Prog.ofExcept (validateLegacyTaskJob deployment.signPayload {
    fallbackSecret := deployment.config.JOB_HMAC_GLOBAL_SECRET
    jobId
    payload
    tenantSecret := given tenantSecret
    now := deployment.toISOString now })
  pure {
    agentId := payload.type.text
    approvalRequired := payload.approvalRequired
    catalogAgentId := none
    executionId := payload.requestId ++ ":" ++ jobId
    executionMode := payload.executionMode
    input := payload.payload
    organizationId := organization.map (·.id)
    requestId := payload.requestId
    tenantId
    userId := payload.userId }

def readAgentJob (payload : AgentExecutionJob) : Prog AgentIface ExecutionPayload := do
  if !payload.conforms then .throw (error "ZodError")
  else do
    let organization : Option Organization ←
      await (.findOrganization (payload.organizationId.getD payload.tenantId))
    pure {
      agentId := payload.agentId
      approvalRequired := false
      catalogAgentId := payload.catalogAgentId
      executionId := payload.executionId
      executionMode := .LIVE
      input := payload.input
      organizationId := (organization.map (·.id)).or payload.organizationId
      requestId := payload.executionId
      tenantId := payload.tenantId
      userId := payload.userId }

def readJob (deployment : Deployment) : Job → Prog AgentIface ExecutionPayload
  | .task jobId data => readTaskJob deployment jobId data
  | .agent data => readAgentJob data

/-- The status of the billing of a tenant, which the cache may hold. -/
def resolveBillingLock (config : WorkerConfig) (tenantReference : String) :
    Prog AgentIface BillingStatus := do
  let cached : Option BillingStatus ← await (.getBillingStatus tenantReference)
  match cached with
  | some status => pure status
  | none => do
      let subscription : Option BilledSubscription ← await (.findSubscription tenantReference)
      let now : Int ← await .now
      let locked := subscription.any fun subscription =>
        subscription.status = "past_due" ∧
          subscription.gracePeriodEndsAt.getD
            (subscription.updatedAt + config.BILLING_GRACE_PERIOD_DAYS * 24 * 60 * 60 * 1000) ≤ now
      let payload : BillingStatus := { locked, status := subscription.map (·.status) }
      await (.setBillingStatus tenantReference payload)
      pure payload

inductive JobResult
  | blocked
  | completed (executionId requestId : String) (status : Option ExecutionStatus)

namespace ExecutionPayload

variable (payload : ExecutionPayload)

def start : ExecutionStart where
  agentId := payload.agentId
  executionId := payload.executionId
  inputPayload := payload.input
  organizationId := payload.organizationId
  source := .MANUAL
  tenantId := payload.tenantId
  userId := payload.userId

def runtimeInput : RuntimeExecutionInput where
  agentId := payload.agentId
  catalogAgentId := payload.catalogAgentId
  executionId := payload.executionId
  input := payload.input
  organizationId := payload.organizationId
  tenantId := payload.tenantId
  userId := payload.userId

def fanOut (status : ExecutionStatus) : Prog AgentIface Unit :=
  match Tasks.given payload.organizationId with
  | none => pure ()
  | some _ => await (.fanOutExecutionOutcome payload.executionId payload.tenantId status)

/-- The body of the `try` of `processJob`. -/
def run (deployment : Deployment) : Prog AgentIface JobResult := do
  let billing ← resolveBillingLock deployment.config payload.tenantId
  if billing.locked then do
    await (.updateExecution payload.executionId .FAILED (some "billing_past_due"))
    payload.fanOut .FAILED
    pure .blocked
  else if payload.executionMode = .DRY_RUN then do
    await (.updateExecution payload.executionId .SUCCESS none)
    pure (.completed payload.executionId payload.requestId (some .SUCCESS))
  else if payload.approvalRequired then do
    await (.updateExecution payload.executionId .WAITING_APPROVAL none)
    pure (.completed payload.executionId payload.requestId (some .WAITING_APPROVAL))
  else do
    let result ← executeManifestAgentRuntime deployment.config deployment.catalog
      payload.runtimeInput
    await (.updateExecution payload.executionId result.status none)
    payload.fanOut result.status
    pure (.completed payload.executionId payload.requestId none)

/-- The `catch` of `processJob`. -/
def fail (e : Thrown) : Prog AgentIface JobResult := do
  await (.updateExecution payload.executionId .FAILED
    (some (e.message.getD "Unknown agent execution failure")))
  payload.fanOut .FAILED
  .throw e

end ExecutionPayload

def processJob (deployment : Deployment) (job : Job) : Prog AgentIface JobResult := do
  let payload ← readJob deployment job
  await (.upsertExecution payload.start)
  (payload.run deployment).tryCatch payload.fail

/-! ## The system -/

inductive AgentTask
  /-- A call of `PlanExecutor.execute`, and the circuit breakers of the executor. -/
  | execute (request : AgentExecutionRequest) (breakers : CircuitBreakers)
  | step (config : AgentExecuteConfig) (context : RuntimeContext)
  | job (job : Job)
  /-- A consumption by the API. -/
  | consume (input : ApiCharge)

inductive AgentResponse
  | executed (result : PlanExecutionResult)
  | stepped (output : AgentRuntimeOutput)
  | processed (result : JobResult)
  | consumed (record : BudgetRecord)

def serveTask (deployment : Deployment) : AgentTask → Prog AgentIface AgentResponse
  | .execute request breakers => do
      pure (.executed (← Agents.execute deployment.options {} breakers request))
  | .step config context => do
      pure (.stepped (← runWorkflowAgent deployment (agentNodeCall config context)))
  | .job job => do pure (.processed (← processJob deployment job))
  | .consume input => do pure (.consumed (← consumeBudget input))

/-- What the environment does: it gives a task to a worker, or lets time pass. -/
inductive AgentEvent
  | request (task : AgentTask)
  | tick (ms : Nat)

def agentSystem (deployment : Deployment) : System AgentIface AgentTask Store AgentResponse where
  Choice := Choice
  handle o choice store := store.handle o choice
  program := serveTask deployment
  Env := AgentEvent
  env event store _ := some (match event with
    | .request task => { store, spawn := [task] }
    | .tick ms => { store := { store with clock := store.clock + ms } })

end Agents
