import BirthHub.Data.Encoding
import BirthHub.Data.JsonText

/-!
# Tasks from the API to the worker

`postTask` is the route that accepts a task, `enqueueTask` puts it on the queue, and
`validateLegacyTaskJob` is the check a worker makes before it runs the job: the context
of the job must name its tenant, actor and id, and its signature must be the MAC of a
canonical text of the job, or the word for an unsigned one.
-/

namespace Tasks

open Data

inductive ExecutionMode
  | LIVE
  | DRY_RUN
deriving DecidableEq

def ExecutionMode.text : ExecutionMode → String
  | .LIVE => "LIVE"
  | .DRY_RUN => "DRY_RUN"

inductive TaskType
  | syncSession
  | sendWelcomeEmail
  | refreshHealth
deriving DecidableEq

def TaskType.text : TaskType → String
  | .syncSession => "sync-session"
  | .sendWelcomeEmail => "send-welcome-email"
  | .refreshHealth => "refresh-health"

structure JobContext where
  actorId : String
  jobId : String
  organizationId : String
  scopedAt : String
  tenantId : String
deriving DecidableEq

/-- A job's data; its version is the constant `"1"`. -/
structure TaskJob where
  agentId : String := "ceo-pack"
  approvalRequired : Bool := false
  context : Option JobContext := none
  estimatedCostBRL : Number := .finite false 5 (-1)
  executionMode : ExecutionMode := .LIVE
  /-- The members of a record. -/
  payload : List (String × Json)
  requestId : String
  signature : String := "unsigned"
  tenantId : Option String
  type : TaskType
  userId : Option String

/-! ## The schema -/

/-- `z.number().nonnegative()`. -/
def isNonnegative : Number → Bool
  | .finite negative digits _ => !negative || digits == 0
  | .infinite negative => !negative
  | .nan => false

/-- `jobContextSchema`, where `isDatetime` is the check of `z.string().datetime()`. -/
def JobContext.conforms (isDatetime : String → Bool) (context : JobContext) : Bool :=
  context.actorId != "" && context.jobId != "" && context.organizationId != "" &&
    isDatetime context.scopedAt && context.tenantId != ""

/-- `taskJobSchema` of data whose fields have their types. -/
def TaskJob.conforms (isDatetime : String → Bool) (job : TaskJob) : Bool :=
  job.agentId != "" && (job.context.map (·.conforms isDatetime)).getD true &&
    isNonnegative job.estimatedCostBRL && decide (8 ≤ job.signature.length)

/-- `taskJobSchema.parse`. -/
def parseTaskJob (isDatetime : String → Bool) (job : TaskJob) : Except Thrown TaskJob :=
  if job.conforms isDatetime then .ok job else .error (error "ZodError")

/-! ## The API -/

structure TaskRequest where
  agentId : String := "ceo-pack"
  approvalRequired : Bool := false
  estimatedCostBRL : Number := .finite false 5 (-1)
  executionMode : ExecutionMode := .LIVE
  payload : List (String × Json) := []
  type : TaskType

structure RequestContext where
  organizationId : Option String
  requestId : String
  tenantId : Option String
  userId : Option String

structure ProblemDetails where
  detail : String
  status : Nat
  title : String
deriving DecidableEq

/-- Why the route answers with an error. -/
inductive ApiError
  | problem (details : ProblemDetails)
  | thrown (e : Thrown)

inductive BudgetError
  | exceeded (agentId : String)
  | thrown (e : Thrown)

structure QueueConfig where
  QUEUE_BACKPRESSURE_THRESHOLD : Nat := 10000
  TENANT_QUEUE_RATE_LIMIT_MAX : Nat := 120

/-- The queue in Redis: the counter that gives jobs their ids, the jobs with their ids, the
numbers of jobs that wait, and the enqueues of each tenant in the present window. -/
structure TaskQueue where
  counter : Nat := 0
  jobs : List (String × TaskJob) := []
  waitingCount : Nat := 0
  delayedCount : Nat := 0
  prioritizedCount : Nat := 0
  rates : String → Nat := fun _ => 0

inductive EnqueueError
  | tenantQueueRateLimit (tenantId : String) (threshold : Nat)
  | queueBackpressure (pendingJobs threshold : Nat)
  | thrown (e : Thrown)

/-- A context value that is there and not empty. -/
def given (value : Option String) : Option String := value.filter (decide <| · ≠ "")

abbrev Enqueue := ExceptT EnqueueError (StateM TaskQueue)

def assertTenantQueueRateLimit (config : QueueConfig) (tenantId : Option String) :
    Enqueue Unit := do
  if let some tenantId := given tenantId then
    let current := (← get).rates tenantId + 1
    modify fun queue => { queue with rates := Function.update queue.rates tenantId current }
    if config.TENANT_QUEUE_RATE_LIMIT_MAX < current then
      throw (.tenantQueueRateLimit tenantId config.TENANT_QUEUE_RATE_LIMIT_MAX)

/-- `queue.add` without a job id: BullMQ counts. -/
def TaskQueue.add (queue : TaskQueue) (job : TaskJob) : String × TaskQueue :=
  let counter := queue.counter + 1
  (toString counter, { queue with
    counter
    jobs := queue.jobs ++ [(toString counter, job)]
    waitingCount := queue.waitingCount + 1 })

def enqueueTask (isDatetime : String → Bool) (config : QueueConfig) (payload : TaskJob) :
    Enqueue String := do
  let validated ← ((parseTaskJob isDatetime payload).mapError EnqueueError.thrown : Except _ _)
  assertTenantQueueRateLimit config validated.tenantId
  let queue ← get
  let pendingJobs := queue.waitingCount + queue.delayedCount + queue.prioritizedCount
  if config.QUEUE_BACKPRESSURE_THRESHOLD ≤ pendingJobs then
    throw (.queueBackpressure pendingJobs config.QUEUE_BACKPRESSURE_THRESHOLD)
  modifyGet fun queue => queue.add validated

/-- The job that the route makes of a request. -/
def taskJobOf (now requestId organizationId tenantId userId : String) (body : TaskRequest) :
    TaskJob where
  agentId := body.agentId
  approvalRequired := body.approvalRequired
  context := some {
    actorId := userId
    jobId := requestId
    organizationId
    scopedAt := now
    tenantId }
  estimatedCostBRL := body.estimatedCostBRL
  executionMode := body.executionMode
  payload := body.payload
  requestId
  signature := base64url (tenantId ++ ":" ++ requestId)
  tenantId := some tenantId
  type := body.type
  userId := some userId

def enqueueProblem : EnqueueError → ApiError
  | .tenantQueueRateLimit tenantId _ => .problem {
      detail := "Tenant " ++ tenantId ++ " exceeded the queue rate limit. Retry later."
      status := 429
      title := "Too Many Requests" }
  | .queueBackpressure pendingJobs _ => .problem {
      detail := "Queue backlog reached " ++ toString pendingJobs ++ " pending jobs. Retry later."
      status := 503
      title := "Service Unavailable" }
  | .thrown e => .thrown e

def budgetProblem : BudgetError → ApiError
  | .exceeded agentId => .problem {
      detail := "Agent " ++ agentId ++ " reached 100% budget usage and is blocked."
      status := 402
      title := "Budget Exceeded" }
  | .thrown e => .thrown e

/-- `POST /api/v1/tasks` with a body that passes `taskRequestSchema`; `budget` is what
`consumeBudget` does with the request. -/
def postTask (isDatetime : String → Bool) (config : QueueConfig) (now : String)
    (budget : Except BudgetError Unit) (context : RequestContext) (body : TaskRequest) :
    ExceptT ApiError (StateM TaskQueue) String :=
  match given context.organizationId, given context.tenantId, given context.userId with
  | some organizationId, some tenantId, some userId => do
      (budget.mapError budgetProblem : Except _ _)
      ExceptT.adapt enqueueProblem (enqueueTask isDatetime config
        (taskJobOf now context.requestId organizationId tenantId userId body))
  | _, _, _ => throw (.problem {
      detail := "A valid authenticated session is required."
      status := 401
      title := "Unauthorized" })

/-! ## The worker -/

def JobContext.json (context : JobContext) : Json := .object [
  ("actorId", .string context.actorId),
  ("jobId", .string context.jobId),
  ("organizationId", .string context.organizationId),
  ("scopedAt", .string context.scopedAt),
  ("tenantId", .string context.tenantId)]

/-- A nullable string. -/
def nullable (value : Option String) : Json := (value.map .string).getD .null

/-- What the signature of a job is a signature of. -/
def signatureJson (context : JobContext) (payload : TaskJob) : Json := .object [
  ("agentId", .string payload.agentId),
  ("approvalRequired", .bool payload.approvalRequired),
  ("context", context.json),
  ("estimatedCostBRL", .number payload.estimatedCostBRL),
  ("executionMode", .string payload.executionMode.text),
  ("payload", .object payload.payload),
  ("requestId", .string payload.requestId),
  ("tenantId", nullable payload.tenantId),
  ("type", .string payload.type.text),
  ("userId", nullable payload.userId),
  ("version", .string "1")]

def serializeLegacyTaskSignaturePayload (context : JobContext) (payload : TaskJob) : String :=
  (signatureJson context payload).stringify

/-- What `validateLegacyTaskJob` is called with, and the time it reads. -/
structure Validation where
  fallbackSecret : String
  jobId : String
  payload : TaskJob
  tenantSecret : Option String := none
  now : String

namespace Validation

def context (input : Validation) : JobContext :=
  input.payload.context.getD {
    actorId := input.payload.userId.getD "system"
    jobId := input.jobId
    organizationId := input.payload.tenantId.getD "default-tenant"
    scopedAt := input.now
    tenantId := input.payload.tenantId.getD "default-tenant" }

def secret (input : Validation) : String := input.tenantSecret.getD input.fallbackSecret

end Validation

/-- `signPayload payload secret` is the hexadecimal HMAC-SHA256 of the payload. -/
def validateLegacyTaskJob (signPayload : (payload secret : String) → String)
    (input : Validation) : Except Thrown String :=
  match given input.payload.tenantId with
  | none => .error (error "JOB_CONTEXT_TENANT_MISMATCH")
  | some tenantId =>
      if tenantId ≠ input.context.tenantId then .error (error "JOB_CONTEXT_TENANT_MISMATCH")
      else
        match given input.payload.userId with
        | none => .error (error "JOB_CONTEXT_ACTOR_MISMATCH")
        | some userId =>
            if userId ≠ input.context.actorId then .error (error "JOB_CONTEXT_ACTOR_MISMATCH")
            else if input.context.jobId ≠ input.jobId then
              .error (error "JOB_CONTEXT_ID_MISMATCH")
            else
              let signedPayload := serializeLegacyTaskSignaturePayload input.context input.payload
              let expectedSignature := signPayload signedPayload input.secret
              if input.payload.signature ≠ "unsigned" ∧
                  expectedSignature ≠ input.payload.signature then
                .error (error "JOB_SIGNATURE_INVALID")
              else .ok tenantId

section

variable {signPayload : String → String → String} {input : Validation} {tenantId : String}

theorem validateLegacyTaskJob_ok (accepted : validateLegacyTaskJob signPayload input = .ok tenantId) :
    given input.payload.tenantId = some tenantId ∧ tenantId = input.context.tenantId ∧
      given input.payload.userId = some input.context.actorId ∧
      input.context.jobId = input.jobId ∧
      (input.payload.signature = "unsigned" ∨ input.payload.signature =
        signPayload (serializeLegacyTaskSignaturePayload input.context input.payload)
          input.secret) := by
  unfold validateLegacyTaskJob at accepted
  split at accepted
  · cases accepted
  rename_i tenant present
  split at accepted
  · cases accepted
  rename_i sameTenant
  split at accepted
  · cases accepted
  rename_i userId given
  split at accepted
  · cases accepted
  rename_i sameActor
  split at accepted
  · cases accepted
  rename_i sameJob
  dsimp only at accepted
  split at accepted
  · cases accepted
  rename_i signed
  cases accepted
  rw [not_and_or, not_not, not_not] at signed
  rw [ne_eq, not_not] at sameTenant sameActor sameJob
  exact ⟨present, sameTenant, sameActor ▸ given, sameJob, signed.imp_right Eq.symm⟩

end

end Tasks
