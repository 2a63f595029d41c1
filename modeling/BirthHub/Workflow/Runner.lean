import BirthHub.Effect.Prog
import BirthHub.Workflow.Canvas

/-!
# The workflow runner

`WorkflowRunner` of `apps/worker/src/engine/runner.ts`: the jobs of the trigger queue
and of the execution queue as programs over the operations they await. The hash, the
step schema and the executors of the steps are not modelled: `Runtime` has the first
two as functions, and `executeStep` is an operation whose result is arbitrary.
-/

namespace Workflow

open Data Effect

/-! ## Rows and payloads -/

inductive ExecutionStatus
  | RUNNING
  | SUCCESS
  | FAILED
  | CANCELLED
  | WAITING
deriving DecidableEq, Repr

inductive TriggerType
  | MANUAL
  | WEBHOOK
  | CRON
  | EVENT
deriving DecidableEq, Repr

inductive StepResultStatus
  | SUCCESS
  | FAILED
  | SKIPPED
  | WAITING
deriving DecidableEq, Repr

inductive QuotaResourceType
  | EMAILS_SENT
  | AI_PROMPTS
  | WORKFLOW_RUNS
  | STORAGE_GB
  | API_REQUESTS
deriving DecidableEq, Repr

structure WorkflowExecution where
  id : String
  tenantId : String
  organizationId : String
  workflowId : String
  status : ExecutionStatus := .RUNNING
  triggerType : TriggerType
  triggerPayload : Json
  depth : Int := 0
  startedAt : Int
  completedAt : Option Int := none
  durationMs : Option Int := none
  errorMessage : Option String := none

structure StepResult where
  tenantId : String
  organizationId : String
  workflowId : String
  executionId : String
  stepId : String
  status : StepResultStatus
  attempt : Nat
  input : Json
  output : Json := .null
  outputSize : Nat
  outputPreview : Option String := none
  externalPayloadUrl : Option String := none
  startedAt : Int
  finishedAt : Option Int
  errorMessage : Option String := none

structure QuotaUsage where
  id : String
  tenantId : String
  resourceType : QuotaResourceType
  count : Int
  limit : Int
  resetAt : Int

structure WorkflowExecutionJobPayload where
  attempt : Nat
  executionId : String
  organizationId : String
  stepKey : String
  tenantId : String
  triggerPayload : Json
  triggerType : TriggerType
  workflowId : String

structure WorkflowTriggerJobPayload where
  organizationId : String
  tenantId : String
  triggerPayload : Json
  triggerType : TriggerType
  workflowId : String

/-- The columns an update of an execution sets. -/
structure ExecutionUpdate where
  depth : Option Int := none
  status : Option ExecutionStatus := none
  completedAt : Option Int := none
  durationMs : Option Int := none
  errorMessage : Option String := none

def ExecutionUpdate.apply (data : ExecutionUpdate) (row : WorkflowExecution) :
    WorkflowExecution :=
  { row with
    depth := data.depth.getD row.depth
    status := data.status.getD row.status
    completedAt := data.completedAt <|> row.completedAt
    durationMs := data.durationMs <|> row.durationMs
    errorMessage := data.errorMessage <|> row.errorMessage }

/-- The options of `queue.add`; without a `delay` the job is ready at once. -/
structure JobOptions where
  jobId : String
  delay : Option Number := none

/-- The context a step is executed in; `steps` is the object built from the results. -/
structure RuntimeContext where
  executionId : String
  steps : Json
  tenantId : String
  triggerOutput : Json
  triggerType : TriggerType
  workflowId : String

/-! ## Operations -/

inductive RunnerOp
  | findExecution (id : String)
  | findPublishedWorkflow (id tenantId : String)
  | findWorkflow (id tenantId : String)
  | createExecution (payload : WorkflowTriggerJobPayload)
  | updateExecution (id : String) (data : ExecutionUpdate)
  | findStepResults (executionId : String)
  | findCacheCandidates (workflowId stepId : String) (finishedFrom : Int)
  | createStepResult (data : StepResult)
  | findQuota (tenantId : String)
  | incrementQuota (id : String)
  | executeStep (step : Json) (context : RuntimeContext)
  | addJob (payload : WorkflowExecutionJobPayload) (options : JobOptions)
  /-- `Date.now()`, which does not fail. -/
  | now

/-- What each operation answers. A result row comes with the key of its step, and an
executed step answers `none` for `undefined`. -/
def RunnerOp.Result : RunnerOp → Type
  | .findExecution _ => Option WorkflowExecution
  | .findPublishedWorkflow .. => Option Definition
  | .findWorkflow .. => Option Definition
  | .createExecution _ => WorkflowExecution
  | .updateExecution .. => Unit
  | .findStepResults _ => List (String × StepResult)
  | .findCacheCandidates .. => List StepResult
  | .createStepResult _ => Unit
  | .findQuota _ => Option QuotaUsage
  | .incrementQuota _ => Unit
  | .executeStep .. => Option Json
  | .addJob .. => Unit
  | .now => Int

abbrev RunnerIface : Iface where
  Op := RunnerOp
  Res := RunnerOp.Result
  Err := Thrown

/-- Code the runner calls and this development does not model: `sha256` of a text in
hexadecimal, and `stepSchema.parse`. -/
structure Runtime where
  sha256 : String → String
  parseStep : Json → Except Thrown Json

def await (o : RunnerOp) : Prog RunnerIface o.Result := Prog.perform (I := RunnerIface) o

/-! ## Routing and outputs -/

/-- `isConditionTrue`; `none` is `undefined`. -/
def isConditionTrue (output : Option Json) : Bool :=
  match output with
  | some value => value.isObject && ((value.member "result").map Json.truthy).getD false
  | none => false

def shouldFollowTransition (route : Route) (output : Option Json) (failed : Bool) : Bool :=
  if failed then route == .ON_FAILURE || route == .FALLBACK
  else
    match route with
    | .ALWAYS | .ON_SUCCESS => true
    | .IF_TRUE => isConditionTrue output
    | .IF_FALSE => !isConditionTrue output
    | .ON_FAILURE | .FALLBACK => false

def calculateBackoff (attempt : Nat) : Nat := min 60000 (2 ^ attempt * 1000)

def OUTPUT_MAX_BYTES : Nat := 200 * 1024

def MAX_ATTEMPTS : Nat := 5

/-- The longest prefix of at most `units` UTF-16 code units. -/
def sliceUnits : Nat → List Char → List Char
  | _, [] => []
  | units, c :: cs =>
      let width := if c.toNat < 0x10000 then 1 else 2
      if width ≤ units then c :: sliceUnits (units - width) cs else []

structure StepOutputEnvelope where
  externalPayloadUrl : Option String
  output : Json
  outputPreview : Option String
  outputSize : Nat

def normalizeOutput (rt : Runtime) (output : Option Json) (executionId stepKey : String) :
    StepOutputEnvelope :=
  let serialized := (output.getD .null).stringify
  let outputSize := serialized.utf8ByteSize
  if outputSize ≤ OUTPUT_MAX_BYTES then
    { externalPayloadUrl := none
      output := output.getD .null
      outputPreview := none
      outputSize }
  else
    { externalPayloadUrl := some
        s!"s3://workflow-step-results/{executionId}/{stepKey}/{rt.sha256 serialized}.json"
      output := .null
      outputPreview := some (String.ofList (sliceUnits 1500 serialized.toList) ++ "...")
      outputSize }

def StepType.text : StepType → String
  | .TRIGGER_WEBHOOK => "TRIGGER_WEBHOOK"
  | .TRIGGER_CRON => "TRIGGER_CRON"
  | .TRIGGER_EVENT => "TRIGGER_EVENT"
  | .HTTP_REQUEST => "HTTP_REQUEST"
  | .CONDITION => "CONDITION"
  | .CODE => "CODE"
  | .TRANSFORMER => "TRANSFORMER"
  | .SEND_NOTIFICATION => "SEND_NOTIFICATION"
  | .AGENT_EXECUTE => "AGENT_EXECUTE"
  | .AGENT_HANDOFF => "AGENT_HANDOFF"
  | .CRM_UPSERT => "CRM_UPSERT"
  | .WHATSAPP_SEND => "WHATSAPP_SEND"
  | .GOOGLE_EVENT => "GOOGLE_EVENT"
  | .MS_EVENT => "MS_EVENT"
  | .AI_TEXT_EXTRACT => "AI_TEXT_EXTRACT"
  | .DELAY => "DELAY"

def StepResultStatus.text : StepResultStatus → String
  | .SUCCESS => "SUCCESS"
  | .FAILED => "FAILED"
  | .SKIPPED => "SKIPPED"
  | .WAITING => "WAITING"

/-- The object of earlier results by step key: the newest result of a step wins. -/
def stepsContext (previousResults : List (String × StepResult)) : Json :=
  Json.fromEntries (previousResults.map fun (key, result) =>
    (key, .object [
      ("input", result.input),
      ("output", result.output),
      ("status", .string result.status.text)]))

/-- What the runner parses with `stepSchema`. -/
def stepInput (step : WorkflowStep) : Json :=
  .object (
    [("config", step.config)] ++
    (if step.isTrigger then [("isTrigger", .bool true)] else []) ++
    [("key", .string step.key), ("name", .string step.name), ("type", .string step.type.text)])

def stepInputHash (rt : Runtime) (step : WorkflowStep) (steps : Json)
    (payload : WorkflowExecutionJobPayload) : String :=
  rt.sha256 (Json.stringify (.object [
    ("stepKey", .string step.key),
    ("stepsContext", steps),
    ("triggerPayload", payload.triggerPayload)]))

/-- The `input` column of a stored result. -/
def resultInput (hash : String) (payload : WorkflowExecutionJobPayload) : Json :=
  .object [("_cacheHash", .string hash), ("triggerPayload", payload.triggerPayload)]

/-- The candidate is a result of the same input with an output. -/
def isCacheHit (hash : String) (candidate : StepResult) : Bool :=
  (match candidate.input.member "_cacheHash" with
    | some (.string s) => s == hash
    | _ => false) &&
  (match candidate.output with
    | .null => false
    | _ => true)

/-- The delay of the successors of a `DELAY` step. -/
def successorDelay (step : WorkflowStep) (output : Option Json) : Number :=
  if step.type = .DELAY then
    let delayMs :=
      match (output.bind (·.member "delayMs")).filter (fun value => !value matches .null) with
      | some value => value.toNumber
      | none => ((step.config.member "duration_ms").map Json.toNumber).getD .nan
    if delayMs.isFinite then delayMs.maxZero else .ofNat 0
  else .ofNat 0

def nextTransitions (workflow : Definition) (step : WorkflowStep) (output : Option Json)
    (failed : Bool) : List WorkflowTransition :=
  workflow.transitions.filter fun transition =>
    transition.sourceStepId == step.id && shouldFollowTransition transition.route output failed

/-! ## Jobs -/

def consumeSharedAgentBudget (tenantId : String) : Prog RunnerIface Unit := do
  let record ← await (.findQuota tenantId)
  match record with
  | none => pure ()
  | some record =>
      if record.count ≥ record.limit then .throw (error "SHARED_RATE_LIMIT_EXCEEDED")
      else await (.incrementQuota record.id)

/-- End the execution as failed, as on the paths that find nothing to run. -/
def failExecution (executionId message : String) : Prog RunnerIface Unit := do
  let completedAt : Int ← await .now
  await (.updateExecution executionId {
    completedAt := some completedAt
    errorMessage := some message
    status := some .FAILED })

/-- `workflow.steps.find(...)` of the trigger job. -/
def triggerStep (workflow : Definition) : Option WorkflowStep :=
  workflow.steps.find? (·.type.isTrigger)

/-- The job of the first step of an execution. -/
def firstJob (executionId : String) (payload : WorkflowTriggerJobPayload) (stepKey : String) :
    WorkflowExecutionJobPayload where
  attempt := 1
  executionId
  organizationId := payload.organizationId
  stepKey
  tenantId := payload.tenantId
  triggerPayload := payload.triggerPayload
  triggerType := payload.triggerType
  workflowId := payload.workflowId

def processTriggerJob (payload : WorkflowTriggerJobPayload) : Prog RunnerIface Unit := do
  let workflow ← await (.findPublishedWorkflow payload.workflowId payload.tenantId)
  match workflow with
  | none => pure ()
  | some workflow =>
      let execution ← await (.createExecution { payload with workflowId := workflow.id })
      match triggerStep workflow with
      | none => failExecution execution.id "Workflow has no trigger step configured."
      | some step =>
          await (.addJob (firstJob execution.id payload step.key)
            { jobId := s!"{execution.id}:{step.key}:1" })

/-- `executionQueue.add` for the target of each transition whose target exists. -/
def enqueueSuccessors (payload : WorkflowExecutionJobPayload) (workflow : Definition)
    (delay : Option Number) : List WorkflowTransition → Prog RunnerIface Unit
  | [] => pure ()
  | transition :: transitions =>
      match workflow.steps.find? (·.id = transition.targetStepId) with
      | none => enqueueSuccessors payload workflow delay transitions
      | some nextStep => do
          let now : Int ← await .now
          await (.addJob { payload with attempt := 1, stepKey := nextStep.key }
            { jobId := s!"{payload.executionId}:{nextStep.key}:{now}", delay })
          enqueueSuccessors payload workflow delay transitions

/-- What `processExecutionJob` has read when it reaches its `try`. -/
structure JobContext where
  execution : WorkflowExecution
  workflow : Definition
  step : WorkflowStep

/-- The cached output of the step, when caching is on and a candidate matches. -/
def findCachedOutput (payload : WorkflowExecutionJobPayload) (step : WorkflowStep)
    (hash : String) : Prog RunnerIface (Option Json) :=
  let cacheTTLSeconds := step.cacheTTLSeconds.getD 0
  if cacheTTLSeconds > 0 ∧ (step.type = .AGENT_EXECUTE ∨ step.type = .HTTP_REQUEST) then do
    let now : Int ← await .now
    let candidates ← await
      (.findCacheCandidates payload.workflowId step.id (now - cacheTTLSeconds * 1000))
    pure ((candidates.find? (isCacheHit hash)).map (·.output))
  else pure none

/-- The output of the step: the cached one, or else the one of executing it. -/
def obtainOutput (payload : WorkflowExecutionJobPayload) (step : WorkflowStep)
    (parsedStep steps : Json) (hash : String) : Prog RunnerIface (Option Json) := do
  let cached ← findCachedOutput payload step hash
  match cached with
  | some output => pure (some output)
  | none =>
      if step.type = .AGENT_EXECUTE then
        consumeSharedAgentBudget payload.tenantId
      await (.executeStep parsedStep {
        executionId := payload.executionId
        steps
        tenantId := payload.tenantId
        triggerOutput := payload.triggerPayload
        triggerType := payload.triggerType
        workflowId := payload.workflowId })

/-- The row stored for an output. -/
def outputResult (rt : Runtime) (payload : WorkflowExecutionJobPayload) (step : WorkflowStep)
    (hash : String) (now : Int) (output : Option Json) : StepResult :=
  let normalized := normalizeOutput rt output payload.executionId step.key
  { tenantId := payload.tenantId
    organizationId := payload.organizationId
    workflowId := payload.workflowId
    executionId := payload.executionId
    stepId := step.id
    status := if step.type = .DELAY then .WAITING else .SUCCESS
    attempt := payload.attempt
    input := resultInput hash payload
    output := normalized.output
    outputSize := normalized.outputSize
    outputPreview := normalized.outputPreview
    externalPayloadUrl := normalized.externalPayloadUrl
    startedAt := now
    finishedAt := some now }

/-- The row stored for an attempt that failed. -/
def failureResult (payload : WorkflowExecutionJobPayload) (step : WorkflowStep)
    (hash : String) (now : Int) (e : Thrown) : StepResult where
  tenantId := payload.tenantId
  organizationId := payload.organizationId
  workflowId := payload.workflowId
  executionId := payload.executionId
  stepId := step.id
  status := .FAILED
  attempt := payload.attempt
  input := resultInput hash payload
  outputSize := 0
  startedAt := now
  finishedAt := some now
  errorMessage := some (e.message.getD "Unknown step execution error")

/-- After the step's output is stored: count the depth, then complete the execution or
enqueue the steps that routing selects. -/
def advanceExecution (payload : WorkflowExecutionJobPayload) (c : JobContext)
    (output : Option Json) : Prog RunnerIface Unit := do
  await (.updateExecution payload.executionId { depth := some (c.execution.depth + 1) })
  match nextTransitions c.workflow c.step output false with
  | [] => do
      let completedAt : Int ← await .now
      let ended : Int ← await .now
      await (.updateExecution payload.executionId {
        completedAt := some completedAt
        durationMs := some (ended - c.execution.startedAt)
        status := some .SUCCESS })
  | transitions =>
      enqueueSuccessors payload c.workflow (some (successorDelay c.step output)) transitions

/-- The body of the `try`. -/
def attemptStep (rt : Runtime) (payload : WorkflowExecutionJobPayload) (c : JobContext)
    (parsedStep steps : Json) (hash : String) (now : Int) : Prog RunnerIface Unit := do
  let output ← obtainOutput payload c.step parsedStep steps hash
  await (.createStepResult (outputResult rt payload c.step hash now output))
  advanceExecution payload c output

/-- The end of the `catch`: the execution has failed. -/
def finishFailed (payload : WorkflowExecutionJobPayload) (c : JobContext) (e : Thrown) :
    Prog RunnerIface Unit := do
  let completedAt : Int ← await .now
  let ended : Int ← await .now
  await (.updateExecution payload.executionId {
    completedAt := some completedAt
    durationMs := some (ended - c.execution.startedAt)
    errorMessage := some (e.message.getD "Workflow execution failed")
    status := some .FAILED })

/-- The body of the `catch`. -/
def recoverStep (payload : WorkflowExecutionJobPayload) (c : JobContext)
    (hash : String) (now : Int) (e : Thrown) : Prog RunnerIface Unit := do
  await (.createStepResult (failureResult payload c.step hash now e))
  if payload.attempt < MAX_ATTEMPTS then
    await (.addJob { payload with attempt := payload.attempt + 1 } {
      delay := some (.ofNat (calculateBackoff payload.attempt))
      jobId := s!"{payload.executionId}:{payload.stepKey}:{payload.attempt + 1}" })
  else if c.step.onError = .CONTINUE then
    match nextTransitions c.workflow c.step (some .null) true with
    | [] => finishFailed payload c e
    | fallbackTransitions => enqueueSuccessors payload c.workflow none fallbackTransitions
  else finishFailed payload c e

/-- From the point where the step is known. -/
def runStep (rt : Runtime) (payload : WorkflowExecutionJobPayload) (c : JobContext) :
    Prog RunnerIface Unit := do
  let previousResults ← await (.findStepResults payload.executionId)
  let steps := stepsContext previousResults
  let parsedStep ← Prog.ofExcept (rt.parseStep (stepInput c.step))
  let now : Int ← await .now
  let hash := stepInputHash rt c.step steps payload
  (attemptStep rt payload c parsedStep steps hash now).tryCatch
    (recoverStep payload c hash now)

def maxDepth (workflow : Definition) : Int := max 1 workflow.maxDepth

def processExecutionJob (rt : Runtime) (payload : WorkflowExecutionJobPayload) :
    Prog RunnerIface Unit := do
  let execution ← await (.findExecution payload.executionId)
  match execution with
  | none => pure ()
  | some execution =>
      if execution.status = .CANCELLED then pure ()
      else
        let workflow ← await (.findWorkflow payload.workflowId payload.tenantId)
        match workflow with
        | none =>
            failExecution payload.executionId "Workflow definition not found during execution."
        | some workflow =>
            if execution.depth ≥ maxDepth workflow then
              failExecution payload.executionId
                s!"Execution reached max_depth={maxDepth workflow}."
            else
              match workflow.steps.find? (·.key = payload.stepKey) with
              | none =>
                  failExecution payload.executionId
                    s!"Step '{payload.stepKey}' not found in workflow."
              | some step => runStep rt payload ⟨execution, workflow, step⟩

end Workflow
