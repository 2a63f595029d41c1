import BirthHub.Agents.Budget

/-!
# The runtime of agents

`executeManifestAgentRuntime` resolves the agent of a tenant and its manifest, plans one
call for each tool of the manifest, checks the budget, executes the plan, consumes the
budget, and publishes what was learned and put out.
-/

namespace Agents

open Data Effect

/-! ## Manifests -/

structure ManifestTool where
  id : String
  name : String
  description : String
  timeoutMs : Int := 15000

/-- The manifest of a catalog entry. -/
structure CatalogManifest extends AgentManifest where
  agentId : String
  agentName : String
  keywords : List String
  tools : List ManifestTool
  /-- The tags of kind `use-case`. -/
  useCases : List String

/-- Each run of whitespace, underscores and dashes becomes one dash. -/
def joinWords : List Char → List Char
  | [] => []
  | c :: cs =>
      if isWhitespace c || c = '_' || c = '-' then
        match joinWords cs with
        | '-' :: rest => '-' :: rest
        | rest => '-' :: rest
      else c :: joinWords cs

def canonicalizeAgentId (value : String) : String :=
  String.ofList (joinWords (trim value).toLower.toList)

def findManifestCatalogEntryByAgentId (catalog : List CatalogManifest) (agentId : String) :
    Option CatalogManifest :=
  catalog.find? fun entry => canonicalizeAgentId entry.agentId = canonicalizeAgentId agentId

/-- The string members of an array. -/
def stringsOf (items : List Json) : List String :=
  items.filterMap fun
    | .string s => some s
    | _ => none

def parseManagedPolicy (value : Json) : Option ManagedAgentPolicy :=
  match value.member "id", value.member "name", value.member "effect", value.member "actions" with
  | some (.string id), some (.string _), some (.string effect), some (.array actions) => some {
      actions := stringsOf actions
      effect := if effect = "deny" then .deny else .allow
      enabled := match value.member "enabled" with
        | some (.bool enabled) => some enabled
        | _ => none
      id }
  | _, _, _, _ => none

structure AgentConfigSnapshot where
  managedPolicies : List ManagedAgentPolicy
  sourceAgentId : Option String

def parseAgentConfig (config : Json) : AgentConfigSnapshot where
  managedPolicies := match config.member "managedPolicies" with
    | some (.array policies) => policies.filterMap parseManagedPolicy
    | _ => []
  sourceAgentId := match config.member "sourceAgentId" with
    | some (.string sourceAgentId) => some sourceAgentId
    | _ => none

/-! ## The plan of an agent -/

/-- A string that is not blank, trimmed. -/
def readString : Option Json → Option String
  | some (.string s) => if trim s = "" then none else some (trim s)
  | _ => none

/-- A member of the input's `context`. -/
def contextMember (key : String) (input : Members) : Option Json :=
  ((Json.object input).member "context").bind (·.member key)

def readObjective (input : Members) : String :=
  let directCandidates :=
    ["objective", "brief", "prompt", "task", "goal"].map (Json.object input).member ++
      [contextMember "objective" input]
  (directCandidates.findSome? readString).getD
    "Executar o agente com rastreabilidade, governanca e proximo passo claro."

def readSessionId (input : Members) : Option String :=
  (readString ((Json.object input).member "sessionId")).or
    (readString (contextMember "sessionId" input))

def summarizeLearning (records : List AgentLearningRecord) : Json :=
  .array ((records.take 5).map fun record => .object [
    ("confidence", .number record.confidence),
    ("id", .string record.id),
    ("summary", .string record.summary)])

/-- What an agent runs with. -/
structure AgentRuntimePlanInput where
  contextSummary : Option String
  input : Members
  manifest : CatalogManifest
  sharedLearning : List AgentLearningRecord

/-- The calls of `buildAgentRuntimePlan`: one for each tool of the manifest. -/
def buildAgentRuntimePlan (plan : AgentRuntimePlanInput) : List PlannedToolCall :=
  plan.manifest.tools.zipIdx.map fun (tool, index) => {
    tool := tool.id
    input := .object [
      ("contextSummary", Tasks.nullable plan.contextSummary),
      ("objective", .string (readObjective plan.input)),
      ("sequence", .nat (index + 1)),
      ("sharedLearning", summarizeLearning plan.sharedLearning),
      ("sourcePayload", .object plan.input),
      ("toolDescription", .string tool.description),
      ("toolName", .string tool.name)] }

/-- Whether `part` occurs in `text`. -/
def includes (part : List Char) : List Char → Bool
  | [] => part.isEmpty
  | c :: text => part.isPrefixOf (c :: text) || includes part text

def toolIsSensitive (toolId : String) : Bool :=
  ["approval", "audit", "notification", "sync", "write", "adapter"].any fun word =>
    includes word.toList toolId.toLower.toList

/-- The `requireApproval` of `inferOutputGovernance`. -/
def requiresApproval (manifest : CatalogManifest) (toolCalls : List PlannedToolCall) : Bool :=
  toolCalls.any (fun call => toolIsSensitive call.tool) ||
    manifest.useCases.any fun tag =>
      tag ∈ ["autonomous-monitoring", "commercial-operations", "multi-agent-execution"]

/-- The part of the output of an agent that depends on its run. -/
structure AgentRuntimeOutput where
  approvals_or_dependencies : List String
  summary : String
  tool_results : List (String × Json)

def buildAgentRuntimeOutput (manifest : CatalogManifest) (toolCalls : List PlannedToolCall)
    (steps : List PlanExecutionStep) : AgentRuntimeOutput :=
  let requireApproval := requiresApproval manifest toolCalls
  { approvals_or_dependencies :=
      if requireApproval then ["Aprovacao humana recomendada antes de compartilhar externamente."]
      else []
    summary :=
      if requireApproval then
        manifest.agentName ++
          " concluiu a execucao live e abriu governanca adicional antes da publicacao final."
      else
        manifest.agentName ++ " concluiu a execucao live com " ++ toString steps.length ++
          " ferramenta(s) do manifesto."
    tool_results := steps.map fun step => (step.call.tool, step.output) }

/-! ## Costs and tools -/

structure WorkerConfig where
  AGENT_DEFAULT_TOOL_COST_BRL : ℚ := 37 / 100
  AGENT_EXECUTION_TIMEOUT_MS : Int := 120000
  AGENT_MAX_COST_BRL : ℚ := 20
  AGENT_MAX_PLAN_STEPS : Nat := 12
  AGENT_TOOL_RETRY_ATTEMPTS : Nat := 5
  BILLING_GRACE_PERIOD_DAYS : Nat := 3
  JOB_HMAC_GLOBAL_SECRET : String

def buildToolCostTable (defaultToolCostBrl : ℚ) (manifest : CatalogManifest) :
    OrderedMap String ℚ :=
  let builtin := [("db-read", (8 / 100 : ℚ)), ("db-write", 12 / 100), ("http", 22 / 100),
    ("send-email", 6 / 100)]
  let table := builtin.foldl (fun table (id, cost) => table.set id cost) .empty
  manifest.tools.foldl (fun table tool =>
    let timeoutWeight := min ((tool.timeoutMs : ℚ) / 60000) 1 * (8 / 100)
    table.set tool.id (roundCurrency (defaultToolCostBrl + timeoutWeight))) table

/-- The tools of `createRuntimeTools`. -/
def createRuntimeTools (manifest : CatalogManifest) : OrderedMap String Tool :=
  let builtin := ["db-read", "db-write", "http", "send-email"]
  let tools := builtin.foldl (fun tools id => tools.set id ⟨some 30000⟩) .empty
  manifest.tools.foldl (fun tools tool => tools.set tool.id ⟨some tool.timeoutMs⟩) tools

/-- The estimated cost of a call. -/
def toolCost (config : WorkerConfig) (costs : OrderedMap String ℚ) (call : PlannedToolCall) : ℚ :=
  (costs.get call.tool).getD config.AGENT_DEFAULT_TOOL_COST_BRL

def runtimeOptions (config : WorkerConfig) (manifest : CatalogManifest) : PlanExecutorOptions where
  executionTimeoutMs := some config.AGENT_EXECUTION_TIMEOUT_MS
  maxCostBrl := some config.AGENT_MAX_COST_BRL
  maxPlanSteps := some config.AGENT_MAX_PLAN_STEPS
  retryAttempts := config.AGENT_TOOL_RETRY_ATTEMPTS
  toolCostEstimator := fun call => some
    (toolCost config (buildToolCostTable config.AGENT_DEFAULT_TOOL_COST_BRL manifest) call)
  tools := (createRuntimeTools manifest).entries

/-- The cost of a plan as the runtime adds it up. -/
def plannedCostBrl (config : WorkerConfig) (manifest : CatalogManifest)
    (toolCalls : List PlannedToolCall) : ℚ :=
  let costs := buildToolCostTable config.AGENT_DEFAULT_TOOL_COST_BRL manifest
  roundCurrency (toolCalls.foldl (fun total call => total + toolCost config costs call) 0)

/-! ## Memory -/

/-- The tenant under which the memory keeps a key: `key.split(":")[0]`. -/
def memoryTenant (key : String) : String :=
  String.ofList (key.toList.takeWhile (decide <| · ≠ ':'))

def isBlank (s : String) : Bool := trim s = ""

def buildNamespacedKey (tenantId agentId memoryKey : String) : Except Thrown String :=
  if isBlank tenantId || isBlank agentId || isBlank memoryKey then
    .error (error "tenantId, agentId and memoryKey are mandatory")
  else .ok (tenantId ++ ":" ++ agentId ++ ":" ++ memoryKey)

def buildSharedLearningKey (tenantId memoryKey : String) : Except Thrown String :=
  if isBlank tenantId || isBlank memoryKey then
    .error (error "tenantId and memoryKey are mandatory")
  else .ok (tenantId ++ ":shared-learning:" ++ memoryKey)

/-- The value of a finite number. -/
def numberValue : Number → Option ℚ
  | .finite negative digits exponent =>
      some ((if negative then -(digits : ℚ) else digits) * 10 ^ exponent)
  | _ => none

/-- `MINIMUM_APPROVED_LEARNING_CONFIDENCE ≤ confidence`. -/
def isConfident (confidence : Number) : Bool :=
  match confidence with
  | .infinite negative => !negative
  | n => (numberValue n).any fun q => 7 / 10 ≤ q

def SHARED_LEARNING_LIMIT : Nat := 8

def latestFirst (records : List AgentLearningRecord) : List AgentLearningRecord :=
  records.mergeSort fun left right => right.createdAt ≤ left.createdAt

/-- Whether a record has one of the keywords, each prepared by `normalize`. -/
def hasKeyword (normalize : String → String) (keywords : List String)
    (record : AgentLearningRecord) : Bool :=
  record.keywords.any fun keyword => (keywords.map normalize).any (decide <| normalize keyword = ·)

def querySharedLearning (keywords : List String) (tenantId : String) :
    Prog AgentIface (List AgentLearningRecord) := do
  let pattern ← Prog.ofExcept (buildSharedLearningKey tenantId "*")
  let stored : List AgentLearningRecord ← await (.listMemory pattern)
  let fromMemory := (latestFirst stored).filter fun record =>
    record.approved && isConfident record.confidence &&
      (keywords.isEmpty || hasKeyword (fun keyword => (trim keyword).toLower) keywords record)
  let published : List AgentLearningRecord ← await (.findPublishedLearning tenantId)
  let fromAuditLogs := published.filter (hasKeyword String.toLower keywords)
  let merged := OrderedMap.setAll AgentLearningRecord.id .empty (fromMemory ++ fromAuditLogs)
  pure ((latestFirst (merged.values.filter (isConfident ·.confidence))).take SHARED_LEARNING_LIMIT)

/-- The message of an agent or of its user in the conversation of the session. -/
def appendConversationMessage (agentId organizationId tenantId : String)
    (session : Option String) : Prog AgentIface Unit := do
  match session with
  | none => pure ()
  | some sessionId => do
      let key ← Prog.ofExcept (buildNamespacedKey tenantId agentId ("conversation:" ++ sessionId))
      await (.getMemory key)
      await (.setMemory key)
      let existing : Option String ← await (.findConversationThread sessionId organizationId)
      match existing with
      | some id => do
          await (.updateConversationThread id)
          await (.createConversationMessage tenantId organizationId id)
      | none => do
          let id : String ← await (.createConversationThread tenantId organizationId)
          await (.createConversationMessage tenantId organizationId id)

/-! ## The run -/

structure RuntimeExecutionInput where
  agentId : String
  catalogAgentId : Option String := none
  contextSummary : Option String := none
  executionId : String
  input : Members
  organizationId : Option String := none
  tenantId : String
  userId : Option String := none

structure RuntimeAgentResolution where
  installedAgentId : Option String
  manifest : CatalogManifest
  organizationId : Option String
  runtimeAgentId : String

def resolveRuntimeAgent (catalog : List CatalogManifest) (agentId : String)
    (catalogAgentId : Option String) (tenantId : String) : Prog AgentIface RuntimeAgentResolution := do
  let installedAgent : Option InstalledAgent ← await (.findAgent agentId tenantId)
  let sourceAgentId := installedAgent.bind fun agent => (parseAgentConfig agent.config).sourceAgentId
  let resolvedCatalogAgentId := catalogAgentId.getD (sourceAgentId.getD agentId)
  match findManifestCatalogEntryByAgentId catalog resolvedCatalogAgentId with
  | none => .throw (error ("Catalog manifest '" ++ resolvedCatalogAgentId ++ "' was not found."))
  | some manifest => pure {
      installedAgentId := installedAgent.map (·.id)
      manifest
      organizationId := installedAgent.map (·.organizationId)
      runtimeAgentId := (installedAgent.map (·.id)).getD agentId }

def resolveManagedPolicies (installedAgentId : Option String) (tenantId : String) :
    Prog AgentIface (List ManagedAgentPolicy) := do
  match installedAgentId.filter (decide <| · ≠ "") with
  | none => pure []
  | some id => do
      let agent : Option InstalledAgent ← await (.findAgent id tenantId)
      pure ((agent.map fun agent => (parseAgentConfig agent.config).managedPolicies).getD [])

/-- The organization that a run is for. -/
def resolveOrganization (input : RuntimeExecutionInput) (resolved : RuntimeAgentResolution) :
    Prog AgentIface String := do
  let organizationId ← (match input.organizationId.or resolved.organizationId with
    | some id => pure (some id)
    | none => do
        let organization : Option Organization ← await (.findOrganizationOfTenant input.tenantId)
        pure (organization.map (·.id)) : Prog AgentIface (Option String))
  match organizationId.filter (decide <| · ≠ "") with
  | none => .throw (error ("Organization not found for tenant " ++ input.tenantId ++ "."))
  | some id => pure id

structure RuntimeExecutionResult where
  learningRecordId : String
  managedPolicies : List ManagedAgentPolicy
  output : AgentRuntimeOutput
  outputArtifactId : String
  plannedCostBrl : ℚ
  budget : BudgetState
  status : ExecutionStatus
  steps : Nat
  toolCost : ℚ

/-- The hooks of the runtime: each persists the logs. -/
def persistingHooks (executionId : String) : Hooks where
  onPlanBuilt _ := await (.persistLogs executionId)
  onStepCompleted _ _ _ := await (.persistLogs executionId)

/-- What is known of a run before its plan is executed. -/
structure PreparedRun where
  resolved : RuntimeAgentResolution
  organizationId : String
  managedPolicies : List ManagedAgentPolicy
  toolCalls : List PlannedToolCall

namespace RuntimeExecutionInput

variable (input : RuntimeExecutionInput)

/-- The part of the run before the budget is checked. -/
def prepare (catalog : List CatalogManifest) : Prog AgentIface PreparedRun := do
  let resolved ← resolveRuntimeAgent catalog input.agentId input.catalogAgentId input.tenantId
  let organizationId ← resolveOrganization input resolved
  let sharedLearning ← querySharedLearning resolved.manifest.keywords input.tenantId
  let managedPolicies ← resolveManagedPolicies resolved.installedAgentId input.tenantId
  let toolCalls := buildAgentRuntimePlan {
    contextSummary := input.contextSummary
    input := input.input
    manifest := resolved.manifest
    sharedLearning }
  (appendConversationMessage resolved.runtimeAgentId organizationId input.tenantId
    (readSessionId input.input)).tryCatch fun _ => pure ()
  await (.persistLogs input.executionId)
  pure { resolved, organizationId, managedPolicies, toolCalls }

/-- What the budget is charged. -/
def charge (run : PreparedRun) (costBrl : ℚ) : WorkerCharge where
  actorId := input.userId.getD "system"
  agentId := run.resolved.runtimeAgentId
  costBrl
  executionId := input.executionId
  organizationId := run.organizationId
  tenantId := input.tenantId

/-- The request to the plan executor. -/
def request (run : PreparedRun) : AgentExecutionRequest where
  agentId := run.resolved.manifest.agentId
  executionId := input.executionId
  input := input.input
  tenantId := input.tenantId
  toolCalls := some run.toolCalls

/-- The part of the run after the budget is consumed. -/
def publish (run : PreparedRun) (plannedCostBrl : ℚ) (execution : PlanExecutionResult)
    (budget : BudgetState) : Prog AgentIface RuntimeExecutionResult := do
  let output := buildAgentRuntimeOutput run.resolved.manifest run.toolCalls execution.steps
  let status : ExecutionStatus :=
    if output.approvals_or_dependencies.isEmpty then .SUCCESS else .WAITING_APPROVAL
  let learningRecordId : String ← await .randomUUID
  let outputArtifactId : String ← await (.createOutputArtifact input.tenantId run.organizationId
    run.resolved.manifest.agentId status)
  await (.createAuditLog input.tenantId input.executionId "AGENT_OUTPUT_CREATED")
  await (.createAuditLog input.tenantId learningRecordId "AGENT_LEARNING_PUBLISHED")
  let key ← Prog.ofExcept (buildSharedLearningKey input.tenantId
    (learningRecordId ++ ":" ++ run.resolved.runtimeAgentId))
  await (.setMemory key)
  (appendConversationMessage run.resolved.runtimeAgentId run.organizationId input.tenantId
    (readSessionId input.input)).tryCatch fun _ => pure ()
  await (.persistLogs input.executionId)
  pure {
    learningRecordId
    managedPolicies := run.managedPolicies
    output
    outputArtifactId
    plannedCostBrl
    budget
    status
    steps := execution.steps.length
    toolCost := execution.estimatedCostBrlTotal }

end RuntimeExecutionInput

def executeManifestAgentRuntime (config : WorkerConfig) (catalog : List CatalogManifest)
    (input : RuntimeExecutionInput) : Prog AgentIface RuntimeExecutionResult := do
  let run ← input.prepare catalog
  let planned := plannedCostBrl config run.resolved.manifest run.toolCalls
  let _ ← ensureBudgetHeadroom (input.charge run planned)
  await (.persistLogs input.executionId)
  let execution ← execute (runtimeOptions config run.resolved.manifest)
    (persistingHooks input.executionId) (fun _ => {}) (input.request run)
  let budget ← chargeExecution (input.charge run execution.estimatedCostBrlTotal)
  input.publish run planned execution budget

end Agents
