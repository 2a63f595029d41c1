import BirthHub.Data.Json
import BirthHub.Data.OrderedMap

/-!
# Policies of an agent's tools

The policies of an agent's manifest and the managed policies of its installation are
expanded into one rule for each of their actions, and merged under the id of the policy
and the action. `PolicyEngine.evaluate` decides a tool call by the merged rules, and
`BaseTool.run` asks it before the tool is executed.
-/

namespace Agents

open Data

inductive PolicyEffect
  | allow
  | deny
deriving DecidableEq

/-! ## The policy engine -/

structure PolicyRule where
  id : String
  action : String
  effect : PolicyEffect
  enabled : Option Bool := none
  reason : Option String := none
  agentId : Option String := none
  tenantId : Option String := none
deriving DecidableEq

structure PolicyEvaluationResult where
  granted : Bool
  reason : String
  matchedRuleId : Option String := none
deriving DecidableEq

structure PolicyContext where
  tenantId : Option String := none

/-- What `.` of a regular expression does not match. -/
def isLineTerminator (c : Char) : Bool :=
  c.toNat == 10 || c.toNat == 13 || c.toNat == 0x2028 || c.toNat == 0x2029

/-- The texts left after some characters that `.` matches. -/
def skips : List Char → List (List Char)
  | [] => [[]]
  | d :: text => (d :: text) :: if isLineTerminator d then [] else skips text

/-- The regular expression of a pattern whose characters stand for themselves, but for `*`,
which is `.*`. -/
def matchesWildcards : List Char → List Char → Bool
  | [], text => text.isEmpty
  | c :: pattern, text =>
      if c = '*' then (skips text).any (matchesWildcards pattern)
      else
        match text with
        | [] => false
        | d :: text => decide (c = d) && matchesWildcards pattern text

def matchesAction (pattern action : String) : Bool :=
  if pattern = "*" then true
  else if '*' ∉ pattern.toList then decide (pattern = action)
  else matchesWildcards pattern.toList action.toList

def isRuleEnabled (rule : PolicyRule) : Bool := rule.enabled.getD true

def matchesScope (rule : PolicyRule) (agentId : String) (context : PolicyContext) : Bool :=
  let tenantMatches := rule.tenantId.isNone || rule.tenantId == context.tenantId
  let agentMatches := rule.agentId.isNone || rule.agentId == some agentId
  tenantMatches && agentMatches

structure PolicyEngine where
  rules : List PolicyRule

namespace PolicyEngine

def matchingRules (engine : PolicyEngine) (agentId action : String) (context : PolicyContext) :
    List PolicyRule :=
  engine.rules.filter fun rule =>
    isRuleEnabled rule && matchesScope rule agentId context && matchesAction rule.action action

def evaluate (engine : PolicyEngine) (agentId action : String) (context : PolicyContext) :
    PolicyEvaluationResult :=
  let matchingRules := engine.matchingRules agentId action context
  match matchingRules.find? (decide <| ·.effect = .deny) with
  | some denyRule => {
      granted := false
      matchedRuleId := some denyRule.id
      reason := denyRule.reason.getD
        ("Action '" ++ action ++ "' blocked by rule '" ++ denyRule.id ++ "'.") }
  | none =>
      match matchingRules.find? (decide <| ·.effect = .allow) with
      | some allowRule => {
          granted := true
          matchedRuleId := some allowRule.id
          reason := allowRule.reason.getD
            ("Action '" ++ action ++ "' allowed by rule '" ++ allowRule.id ++ "'.") }
      | none => {
          granted := false
          reason := "Action '" ++ action ++ "' denied by default policy (no allow rule found)." }

end PolicyEngine

/-! ## Tools -/

structure ToolExecutionContext where
  agentId : String
  tenantId : String
  action : Option String := none
  policyContext : Option PolicyContext := none

/-- Why a call of a tool fails. -/
inductive ToolFailure
  /-- The schema rejects the input. -/
  | input (error : Thrown)
  | policyDenied (reason : String)
  /-- The tool throws, or takes longer than its time limit. -/
  | execution (error : Thrown)
  /-- The schema rejects the output. -/
  | output (error : Thrown)

/-- A tool whose raw output is of type `ρ`. -/
structure BaseTool (ι ρ ο : Type) where
  name : String
  inputSchema : Json → Except Thrown ι
  outputSchema : ρ → Except Thrown ο
  /-- What `execute` returns or throws within its time limit. -/
  execute : ι → ToolExecutionContext → Except Thrown ρ
  policyEngine : Option PolicyEngine := none

namespace BaseTool

variable {ι ρ ο : Type}

/-- The action a call is checked for. -/
def action (tool : BaseTool ι ρ ο) (context : ToolExecutionContext) : String :=
  context.action.getD ("tool." ++ tool.name)

/-- The part of `run` after the policy check. -/
def perform (tool : BaseTool ι ρ ο) (input : ι) (context : ToolExecutionContext) :
    Except ToolFailure ο := do
  let output ← (tool.execute input context).mapError .execution
  (tool.outputSchema output).mapError .output

def run (tool : BaseTool ι ρ ο) (rawInput : Json) (context : ToolExecutionContext) :
    Except ToolFailure ο := do
  let input ← (tool.inputSchema rawInput).mapError .input
  if let some policyEngine := tool.policyEngine then
    let evaluation := policyEngine.evaluate context.agentId (tool.action context)
      (context.policyContext.getD { tenantId := some context.tenantId })
    if !evaluation.granted then
      throw (.policyDenied evaluation.reason)
  tool.perform input context

end BaseTool

/-! ## The rules of an agent -/

/-- A policy of a manifest, or a managed one; `enabled` is for managed ones. -/
structure ManagedAgentPolicy where
  actions : List String
  effect : PolicyEffect
  enabled : Option Bool := none
  id : String

structure PolicyManifest where
  actions : List String
  effect : PolicyEffect
  id : String

/-- The part of a manifest that decides about tool calls. -/
structure AgentManifest where
  policies : List PolicyManifest

def normalizePolicyAction (action : String) : String :=
  let trimmed := trim action
  if trimmed = "" then ""
  else if trimmed = "tool:execute" then "tool.*"
  else if "tool:".toList.isPrefixOf trimmed.toList then
    "tool." ++ String.ofList (trimmed.toList.drop "tool:".length)
  else if "tool.".toList.isPrefixOf trimmed.toList then trimmed
  else String.ofList (trimmed.toList.map fun c => if c = ':' then '.' else c)

/-- The rules of one policy: one for each action that is not blank. -/
def rulesOf (id : String) (effect : PolicyEffect) (actions : List String) : List PolicyRule :=
  ((actions.map normalizePolicyAction).filter (decide <| · ≠ "")).map fun normalizedAction => {
    action := normalizedAction
    effect
    id := id ++ ":" ++ normalizedAction }

def buildRuntimePolicyRulesFromManifest (manifest : AgentManifest) : List PolicyRule :=
  manifest.policies.flatMap fun policy => rulesOf policy.id policy.effect policy.actions

def buildRuntimePolicyRulesFromManagedPolicies (managedPolicies : List ManagedAgentPolicy) :
    List PolicyRule :=
  (managedPolicies.filter (·.enabled.getD true)).flatMap fun policy =>
    rulesOf policy.id policy.effect policy.actions

/-- The rules of both sources, in the order in which they are merged. -/
def expandedRules (manifest : AgentManifest) (managedPolicies : List ManagedAgentPolicy) :
    List PolicyRule :=
  buildRuntimePolicyRulesFromManifest manifest ++
    buildRuntimePolicyRulesFromManagedPolicies managedPolicies

def buildRuntimePolicyRules (manifest : AgentManifest)
    (managedPolicies : List ManagedAgentPolicy) : List PolicyRule :=
  (OrderedMap.setAll PolicyRule.id .empty (expandedRules manifest managedPolicies)).values

/-! ## What the engine decides -/

section

variable {engine : PolicyEngine} {agentId action : String} {context : PolicyContext}
  {effect : PolicyEffect}

/-- Some rule with the effect matches the call. -/
def PolicyEngine.Has (engine : PolicyEngine) (effect : PolicyEffect) (agentId action : String)
    (context : PolicyContext) : Prop :=
  ∃ rule ∈ engine.matchingRules agentId action context, rule.effect = effect

theorem PolicyEngine.has_iff_find :
    engine.Has effect agentId action context ↔
      ((engine.matchingRules agentId action context).find? (decide <| ·.effect = effect)).isSome := by
  simp [Has, List.find?_isSome]

/-- The engine grants a call that an allow rule matches and no deny rule does. -/
theorem PolicyEngine.evaluate_granted :
    (engine.evaluate agentId action context).granted = true ↔
      ¬ engine.Has .deny agentId action context ∧ engine.Has .allow agentId action context := by
  rw [has_iff_find, has_iff_find, evaluate]
  cases (engine.matchingRules agentId action context).find? (decide <| ·.effect = .deny) with
  | some denyRule => simp
  | none =>
      cases (engine.matchingRules agentId action context).find? (decide <| ·.effect = .allow) with
      | some allowRule => simp
      | none => simp

theorem BaseTool.perform_not_policyDenied {ι ρ ο : Type} {tool : BaseTool ι ρ ο} {input : ι}
    {call : ToolExecutionContext} {reason : String} :
    tool.perform input call ≠ .error (.policyDenied reason) := by
  unfold perform
  cases tool.execute input call with
  | error e => simp [Except.mapError, bind, Except.bind]
  | ok output =>
      cases accepted : tool.outputSchema output with
      | error e => simp [Except.mapError, bind, Except.bind, accepted]
      | ok result => simp [Except.mapError, bind, Except.bind, accepted]

/-- A call with valid input is refused exactly when the engine does not grant it. -/
theorem BaseTool.run_policyDenied {ι ρ ο : Type} {tool : BaseTool ι ρ ο} {rawInput : Json}
    {input : ι} {call : ToolExecutionContext} (parses : tool.inputSchema rawInput = .ok input)
    (guarded : tool.policyEngine = some engine) :
    (∃ reason, tool.run rawInput call = .error (.policyDenied reason)) ↔
      (engine.evaluate call.agentId (tool.action call)
        (call.policyContext.getD { tenantId := some call.tenantId })).granted = false := by
  have begins : tool.run rawInput call =
      let evaluation := engine.evaluate call.agentId (tool.action call)
        (call.policyContext.getD { tenantId := some call.tenantId })
      if !evaluation.granted then .error (.policyDenied evaluation.reason)
      else tool.perform input call := by
    unfold run
    rw [parses, guarded]
    dsimp only [Except.mapError, bind, Except.bind]
    split <;> rfl
  rw [begins]
  cases granted : (engine.evaluate call.agentId (tool.action call)
    (call.policyContext.getD { tenantId := some call.tenantId })).granted with
  | false => simp [granted]
  | true => simp [granted, perform_not_policyDenied]

end

end Agents
