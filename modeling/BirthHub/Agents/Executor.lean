import BirthHub.Agents.Model

/-!
# The plan executor

`execute` runs the tool calls of a plan for an execution: it answers the result that is
retained for the execution, or takes the lock of the execution, runs the calls one after
another, stores the result, and releases the lock whatever happened.
-/

namespace Agents

open Data Effect

/-- A tool as the executor sees it; no time limit stands for one that is not a number. -/
structure Tool where
  timeoutMs : Option Int

structure PlanExecutorOptions where
  executionTimeoutMs : Option Int := none
  maxCostBrl : Option ℚ := none
  maxPlanSteps : Option Nat := none
  retryAttempts : Nat := 5
  /-- The estimated cost of a call, unless it is not finite. -/
  toolCostEstimator : PlannedToolCall → Option ℚ
  tools : List (String × Tool)

structure Hooks where
  onPlanBuilt : List PlannedToolCall → Prog AgentIface Unit := fun _ => .pure ()
  onStepCompleted : PlanExecutionStep → (index total : Nat) → Prog AgentIface Unit :=
    fun _ _ _ => .pure ()
  onExecutionCompleted : PlanExecutionResult → Prog AgentIface Unit := fun _ => .pure ()

structure CircuitBreakerState where
  failureCount : Nat := 0
  openUntil : Option Int := none

/-- The circuit breakers of an executor, by the name of the tool. -/
abbrev CircuitBreakers := String → CircuitBreakerState

/-- `Math.round`. -/
def mathRound (q : ℚ) : Int := ⌊q + 1 / 2⌋

/-- `Math.round(value * 100) / 100`. -/
def roundCurrency (value : ℚ) : ℚ := mathRound (value * 100) / 100

/-- `createExecutorError`. -/
def executorError (code message : String) : Thrown :=
  { message := some message, code := some code }

/-- The text of an amount with two decimals. -/
def toFixed2 (value : ℚ) : String :=
  let cents := mathRound (|value| * 100)
  let whole := cents / 100
  let rest := cents % 100
  (if value < 0 then "-" else "") ++ toString whole ++ "." ++
    (if rest < 10 then "0" else "") ++ toString rest

/-! ## Plans -/

/-- An item of `input.toolCalls` that is a planned call. -/
def plannedToolCall (value : Json) : Option PlannedToolCall :=
  match value with
  | .object _ =>
      match value.member "tool", value.member "input" with
      | some (.string tool), some input => some { tool, input }
      | _, _ => none
  | _ => none

/-- `MockPlanBuilder.build`: the calls that the input provides. -/
def buildPlan (request : AgentExecutionRequest) : List PlannedToolCall :=
  match (Json.object request.input).member "toolCalls" with
  | some (.array providedCalls) => providedCalls.filterMap plannedToolCall
  | _ => []

namespace PlanExecutorOptions

variable (options : PlanExecutorOptions)

def assertExecutionBudget (estimatedCostBrl currentTotal : ℚ) : Except Thrown Unit :=
  match options.maxCostBrl with
  | none => .ok ()
  | some maxCostBrl =>
      if maxCostBrl < currentTotal + estimatedCostBrl then
        .error (executorError "AGENT_COST_LIMIT_EXCEEDED"
          ("Execution exceeded the configured cost ceiling (" ++ toFixed2 maxCostBrl ++ " BRL)."))
      else .ok ()

def assertPlanSize (toolCalls : List PlannedToolCall) : Except Thrown Unit :=
  match options.maxPlanSteps with
  | none => .ok ()
  | some maxPlanSteps =>
      if maxPlanSteps < toolCalls.length then
        .error (executorError "AGENT_PLAN_TOO_LARGE"
          ("Generated plan has " ++ toString toolCalls.length ++
            " step(s), above the configured limit of " ++ toString maxPlanSteps ++ "."))
      else .ok ()

def estimateToolCost (call : PlannedToolCall) : ℚ :=
  match options.toolCostEstimator call with
  | none => 0
  | some estimated => if estimated < 0 then 0 else roundCurrency estimated

def executionTimeout (executionTimeoutMs : Int) : Thrown :=
  executorError "AGENT_EXECUTION_TIMEOUT"
    ("Execution exceeded the configured timeout (" ++ toString executionTimeoutMs ++ "ms).")

def assertExecutionDeadline (startedAtMs : Int) : Prog AgentIface Unit := do
  match options.executionTimeoutMs with
  | none => pure ()
  | some executionTimeoutMs =>
      let now : Int ← await .now
      if executionTimeoutMs ≤ now - startedAtMs then .throw (executionTimeout executionTimeoutMs)
      else pure ()

def resolveToolTimeout (tool : Tool) (executionStartedAtMs : Int) :
    Prog AgentIface (Option Int) := do
  match options.executionTimeoutMs with
  | none => pure tool.timeoutMs
  | some executionTimeoutMs =>
      let now : Int ← await .now
      let remainingMs := executionTimeoutMs - (now - executionStartedAtMs)
      if remainingMs ≤ 0 then .throw (executionTimeout executionTimeoutMs)
      else pure (some (max 1 (min (tool.timeoutMs.getD remainingMs) remainingMs)))

end PlanExecutorOptions

/-! ## Circuit breakers -/

/-- The state of a breaker whose time has passed is reset. -/
def getCircuitBreakerState (current : CircuitBreakerState) :
    Prog AgentIface CircuitBreakerState := do
  match current.openUntil with
  | none => pure current
  | some openUntil =>
      let now : Int ← await .now
      pure (if openUntil ≤ now then {} else current)

def assertCircuitOpen (toolName : String) (current : CircuitBreakerState) :
    Prog AgentIface Unit := do
  let state ← getCircuitBreakerState current
  match state.openUntil with
  | none => pure ()
  | some openUntil =>
      let now : Int ← await .now
      if now < openUntil then
        .throw (executorError "AGENT_TOOL_CIRCUIT_OPEN"
          ("Tool '" ++ toolName ++ "' is temporarily blocked by the circuit breaker."))
      else pure ()

/-! ## The calls of a plan -/

def RETRY_DELAYS_MS : List Nat := [1000, 5000, 30000]

def retryDelay (attempt : Nat) : Nat :=
  (RETRY_DELAYS_MS[min attempt (RETRY_DELAYS_MS.length - 1)]?).getD 1000

/-- A call that is being run. -/
structure RunningCall where
  request : AgentExecutionRequest
  call : PlannedToolCall
  estimatedCostBrl : ℚ
  tool : Tool
  executionStartedAtMs : Int
  breaker : CircuitBreakerState

/-- One attempt, with the error it throws. -/
def attemptCall (options : PlanExecutorOptions) (running : RunningCall) :
    Prog AgentIface (Except Thrown Json) :=
  Prog.tryCatch (do
    let timeoutMs ← options.resolveToolTimeout running.tool running.executionStartedAtMs
    let output ← await (.runTool running.request running.call running.estimatedCostBrl timeoutMs)
    pure (.ok output)) fun error => pure (.error error)

/-- The attempts from number `attempt` on, of which `left` are left. -/
def executeWithRetry (options : PlanExecutorOptions) (running : RunningCall) :
    (left attempt : Nat) → (lastError : Option Thrown) → Prog AgentIface Json
  | 0, _, lastError =>
      .throw ((lastError.filter (·.message.isSome)).getD (error "PlanExecutor failed after retries."))
  | left + 1, attempt, _ => do
      options.assertExecutionDeadline running.executionStartedAtMs
      assertCircuitOpen running.call.tool running.breaker
      let attempted ← attemptCall options running
      match attempted with
      | .ok output => pure output
      | .error lastError =>
          if lastError.code = some "AGENT_TOOL_CIRCUIT_OPEN" then .throw lastError
          else if left = 0 then executeWithRetry options running 0 (attempt + 1) (some lastError)
          else do
            await (.wait (retryDelay attempt))
            executeWithRetry options running left (attempt + 1) (some lastError)

/-- The variables of the loop over the calls. -/
structure PlanProgress where
  steps : List PlanExecutionStep := []
  recursiveContext : OrderedMap String Json
  estimatedCostBrlTotal : ℚ := 0
  traceNodes : List TraceNode
  breakers : CircuitBreakers

def traceRootId (request : AgentExecutionRequest) : String := "trace_" ++ request.executionId

/-- The nodes that a call adds to the trace. -/
def toolNodes (request : AgentExecutionRequest) (call : PlannedToolCall) (index : Nat) :
    List TraceNode :=
  let nodeId := "tool_" ++ request.executionId ++ "_" ++ toString (index + 1)
  [{ id := nodeId, label := call.tool, parentId := some (traceRootId request), type := .tool },
   { id := nodeId ++ "_result", label := "result", parentId := some nodeId, type := .result }]

/-- The body of the loop over the calls. -/
def runCall (options : PlanExecutorOptions) (hooks : Hooks) (request : AgentExecutionRequest)
    (executionStartedAtMs : Int) (total index : Nat) (call : PlannedToolCall)
    (progress : PlanProgress) : Prog AgentIface PlanProgress := do
  options.assertExecutionDeadline executionStartedAtMs
  match options.tools.lookup call.tool with
  | none => .throw (error ("Tool '" ++ call.tool ++ "' is not registered."))
  | some tool =>
      let estimatedCostBrl := options.estimateToolCost call
      Prog.ofExcept (options.assertExecutionBudget estimatedCostBrl progress.estimatedCostBrlTotal)
      let startedAt ← await .now
      let output ← executeWithRetry options {
        request, call, estimatedCostBrl, tool, executionStartedAtMs
        breaker := progress.breakers call.tool } options.retryAttempts 0 none
      let finishedAt ← await .now
      let step := { call, estimatedCostBrl, output, startedAt, finishedAt }
      hooks.onStepCompleted step (index + 1) total
      pure {
        steps := progress.steps ++ [step]
        recursiveContext := progress.recursiveContext.set ("step_" ++ toString (index + 1)) output
        estimatedCostBrlTotal := roundCurrency (progress.estimatedCostBrlTotal + estimatedCostBrl)
        traceNodes := progress.traceNodes ++ toolNodes request call index
        breakers := Function.update progress.breakers call.tool {} }

def runCalls (options : PlanExecutorOptions) (hooks : Hooks) (request : AgentExecutionRequest)
    (executionStartedAtMs : Int) (total : Nat) :
    (index : Nat) → List PlannedToolCall → PlanProgress → Prog AgentIface PlanProgress
  | _, [], progress => pure progress
  | index, call :: calls, progress => do
      let progress ← runCall options hooks request executionStartedAtMs total index call progress
      runCalls options hooks request executionStartedAtMs total (index + 1) calls progress

/-! ## Executions -/

def planResult (request : AgentExecutionRequest) (progress : PlanProgress) : PlanExecutionResult where
  executionId := request.executionId
  tenantId := request.tenantId
  agentId := request.agentId
  cached := false
  estimatedCostBrlTotal := progress.estimatedCostBrlTotal
  output := progress.recursiveContext.entries
  steps := progress.steps
  traceId := traceRootId request
  traceNodes := progress.traceNodes

/-- What is done under the lock. -/
def executePlan (options : PlanExecutorOptions) (hooks : Hooks) (breakers : CircuitBreakers)
    (request : AgentExecutionRequest) (executionStartedAtMs : Int) :
    Prog AgentIface PlanExecutionResult := do
  let toolCalls := request.toolCalls.getD (buildPlan request)
  Prog.ofExcept (options.assertPlanSize toolCalls)
  hooks.onPlanBuilt toolCalls
  let progress ← runCalls options hooks request executionStartedAtMs toolCalls.length 0 toolCalls {
    recursiveContext := request.input.foldl (fun context (key, value) => context.set key value) .empty
    traceNodes := [{ id := traceRootId request, label := "agent:" ++ request.agentId, type := .plan }]
    breakers }
  let result := planResult request progress
  await (.redis (.setResult request result))
  hooks.onExecutionCompleted result
  pure result

/-- `PlanExecutor.execute`. -/
def execute (options : PlanExecutorOptions) (hooks : Hooks) (breakers : CircuitBreakers)
    (request : AgentExecutionRequest) : Prog AgentIface PlanExecutionResult := do
  let cachedResult ← await (.redis (.getResult request))
  match cachedResult with
  | some result => pure { result with cached := true }
  | none => do
      let locked ← await (.redis (.setLock request.executionId))
      if !locked then
        .throw (error ("Execution '" ++ request.executionId ++ "' is already running."))
      else do
        let executionStartedAtMs ← await .now
        (executePlan options hooks breakers request executionStartedAtMs).finallyDo
          (await (.redis (.delLock request.executionId)))

end Agents
