import BirthHub.Agents.Policy

/-!
# Denials and merged rules

A denial should win over every permission, whichever source it comes from. The engine
decides so over the rules it is given; but the merge keeps one rule for each policy id
and action, the last one, so a rule may displace a denial before the engine sees it.
-/

namespace Agents

open Data

/-! ## What the policies state -/

/-- The action of a policy is a pattern that matches the action of a call. -/
def IsPatternFor (policyAction action : String) : Prop :=
  normalizePolicyAction policyAction ≠ "" ∧
    matchesAction (normalizePolicyAction policyAction) action = true

/-- An enabled policy of either source has the effect for a pattern that matches. -/
def States (manifest : AgentManifest) (managedPolicies : List ManagedAgentPolicy)
    (effect : PolicyEffect) (action : String) : Prop :=
  (∃ policy ∈ manifest.policies, policy.effect = effect ∧
    ∃ policyAction ∈ policy.actions, IsPatternFor policyAction action) ∨
  ∃ policy ∈ managedPolicies, policy.enabled.getD true = true ∧ policy.effect = effect ∧
    ∃ policyAction ∈ policy.actions, IsPatternFor policyAction action

/-- The call is not executed: the policy engine refuses it. -/
def Refuses {ι ρ ο : Type} (tool : BaseTool ι ρ ο) (rawInput : Json)
    (call : ToolExecutionContext) : Prop :=
  ∃ reason, tool.run rawInput call = .error (.policyDenied reason)

/-- A denial wins, and only a permission grants. -/
structure DenyWins (manifest : AgentManifest) (managedPolicies : List ManagedAgentPolicy)
    {ι ρ ο : Type} (tool : BaseTool ι ρ ο) (rawInput : Json) (call : ToolExecutionContext) :
    Prop where
  denied : States manifest managedPolicies .deny (tool.action call) → Refuses tool rawInput call
  granted : ¬ Refuses tool rawInput call →
    States manifest managedPolicies .allow (tool.action call)

/-- A rule with the effect matches the action, and no later rule has its id. -/
def Survives (rules : List PolicyRule) (effect : PolicyEffect) (action : String) : Prop :=
  ∃ rule, OrderedMap.IsLast PolicyRule.id rules rule ∧ rule.effect = effect ∧
    matchesAction rule.action action = true

/-- When a policy denies the action, a rule that denies it survives, or no rule that allows
it does. -/
def Undisplaced (manifest : AgentManifest) (managedPolicies : List ManagedAgentPolicy)
    (action : String) : Prop :=
  States manifest managedPolicies .deny action →
    Survives (expandedRules manifest managedPolicies) .deny action ∨
      ¬ Survives (expandedRules manifest managedPolicies) .allow action

/-! ## The rules of the policies -/

section

variable {manifest : AgentManifest} {managedPolicies : List ManagedAgentPolicy}
  {rule : PolicyRule} {effect effect' : PolicyEffect} {action agentId id : String}
  {actions : List String} {context : PolicyContext}

theorem mem_rulesOf : rule ∈ rulesOf id effect actions ↔
    ∃ policyAction ∈ actions, normalizePolicyAction policyAction ≠ "" ∧
      rule = {
        action := normalizePolicyAction policyAction
        effect
        id := id ++ ":" ++ normalizePolicyAction policyAction } := by
  simp only [rulesOf, List.mem_map, List.mem_filter, decide_eq_true_eq]
  constructor
  · rintro ⟨_, ⟨⟨policyAction, inside, rfl⟩, given⟩, rfl⟩
    exact ⟨policyAction, inside, given, rfl⟩
  · rintro ⟨policyAction, inside, given, rfl⟩
    exact ⟨_, ⟨⟨policyAction, inside, rfl⟩, given⟩, rfl⟩

/-- A policy has a rule with the effect for the action when it states so. -/
theorem exists_mem_rulesOf :
    (∃ rule ∈ rulesOf id effect' actions, rule.effect = effect ∧
      matchesAction rule.action action = true) ↔
    effect' = effect ∧ ∃ policyAction ∈ actions, IsPatternFor policyAction action := by
  constructor
  · rintro ⟨rule, inside, rfl, hit⟩
    obtain ⟨policyAction, stated, given, rfl⟩ := mem_rulesOf.mp inside
    exact ⟨rfl, policyAction, stated, given, hit⟩
  · rintro ⟨rfl, policyAction, stated, given, hit⟩
    exact ⟨_, mem_rulesOf.mpr ⟨policyAction, stated, given, rfl⟩, rfl, hit⟩

/-- The policies state what their expanded rules say. -/
theorem states_iff : States manifest managedPolicies effect action ↔
    ∃ rule ∈ expandedRules manifest managedPolicies, rule.effect = effect ∧
      matchesAction rule.action action = true := by
  simp only [expandedRules, List.mem_append, or_and_right, exists_or]
  refine or_congr ?_ ?_
  · simp only [buildRuntimePolicyRulesFromManifest, List.mem_flatMap]
    constructor
    · rintro ⟨policy, stored, states⟩
      obtain ⟨rule, inside, fits⟩ := exists_mem_rulesOf.mpr states
      exact ⟨rule, ⟨policy, stored, inside⟩, fits⟩
    · rintro ⟨rule, ⟨policy, stored, inside⟩, fits⟩
      exact ⟨policy, stored, exists_mem_rulesOf.mp ⟨rule, inside, fits⟩⟩
  · simp only [buildRuntimePolicyRulesFromManagedPolicies, List.mem_flatMap, List.mem_filter]
    constructor
    · rintro ⟨policy, stored, enabled, states⟩
      obtain ⟨rule, inside, fits⟩ := exists_mem_rulesOf.mpr states
      exact ⟨rule, ⟨policy, ⟨stored, enabled⟩, inside⟩, fits⟩
    · rintro ⟨rule, ⟨policy, ⟨stored, enabled⟩, inside⟩, fits⟩
      exact ⟨policy, stored, enabled, exists_mem_rulesOf.mp ⟨rule, inside, fits⟩⟩

theorem Survives.states (survives : Survives (expandedRules manifest managedPolicies) effect action) :
    States manifest managedPolicies effect action := by
  obtain ⟨rule, last, fits⟩ := survives
  exact states_iff.mpr ⟨rule, last.mem, fits⟩

theorem applies_of_mem (inside : rule ∈ expandedRules manifest managedPolicies) :
    isRuleEnabled rule = true ∧ matchesScope rule agentId context = true := by
  have every {id : String} {effect : PolicyEffect} {actions : List String}
      (made : rule ∈ rulesOf id effect actions) :
      isRuleEnabled rule = true ∧ matchesScope rule agentId context = true := by
    obtain ⟨policyAction, _, _, rfl⟩ := mem_rulesOf.mp made
    exact ⟨rfl, rfl⟩
  rcases List.mem_append.mp inside with fromManifest | fromManaged
  · obtain ⟨policy, _, made⟩ := List.mem_flatMap.mp fromManifest
    exact every made
  · obtain ⟨policy, _, made⟩ := List.mem_flatMap.mp fromManaged
    exact every made

/-- The engine has the rules that survive the merge. -/
theorem has_iff_survives :
    (PolicyEngine.mk (buildRuntimePolicyRules manifest managedPolicies)).Has effect agentId action
      context ↔ Survives (expandedRules manifest managedPolicies) effect action := by
  simp only [PolicyEngine.Has, PolicyEngine.matchingRules, buildRuntimePolicyRules, List.mem_filter,
    OrderedMap.mem_values_setAll, Bool.and_eq_true]
  constructor
  · rintro ⟨rule, ⟨last, _, hit⟩, fits⟩
    exact ⟨rule, last, fits, hit⟩
  · rintro ⟨rule, last, fits, hit⟩
    exact ⟨rule, ⟨last, applies_of_mem last.mem, hit⟩, fits⟩

/-! ## When denials win -/

variable {ι ρ ο : Type} {tool : BaseTool ι ρ ο} {rawInput : Json} {input : ι}
  {call : ToolExecutionContext}

/-- A call is refused when a rule that denies it survives, or none that allows it. -/
theorem refuses_iff (parses : tool.inputSchema rawInput = .ok input)
    (guarded : tool.policyEngine = some ⟨buildRuntimePolicyRules manifest managedPolicies⟩) :
    Refuses tool rawInput call ↔
      Survives (expandedRules manifest managedPolicies) .deny (tool.action call) ∨
        ¬ Survives (expandedRules manifest managedPolicies) .allow (tool.action call) := by
  rw [Refuses, BaseTool.run_policyDenied parses guarded, ← Bool.not_eq_true,
    PolicyEngine.evaluate_granted, has_iff_survives, has_iff_survives, not_and_or, not_not]

/-- Of a call with valid input: a denial wins, and only a permission grants, exactly when no
denial is displaced from the merged rules while a permission survives. -/
theorem denyWins_iff (parses : tool.inputSchema rawInput = .ok input)
    (guarded : tool.policyEngine = some ⟨buildRuntimePolicyRules manifest managedPolicies⟩) :
    DenyWins manifest managedPolicies tool rawInput call ↔
      Undisplaced manifest managedPolicies (tool.action call) := by
  have refuses : Refuses tool rawInput call ↔
      Survives (expandedRules manifest managedPolicies) .deny (tool.action call) ∨
        ¬ Survives (expandedRules manifest managedPolicies) .allow (tool.action call) :=
    refuses_iff parses guarded
  constructor
  · intro wins denies
    exact refuses.mp (wins.denied denies)
  · intro undisplaced
    refine ⟨fun denies => refuses.mpr (undisplaced denies), fun grants => ?_⟩
    rw [refuses, not_or, not_not] at grants
    exact grants.2.states

end

/-! ### A managed policy under the id of a manifest's -/

/-- A tool that returns its input. -/
def echoTool (name : String) (engine : PolicyEngine) : BaseTool Json Json Json where
  name
  inputSchema := .ok
  outputSchema := .ok
  execute input _ := .ok input
  policyEngine := some engine

def echoCall : ToolExecutionContext where
  agentId := "agent"
  tenantId := "tenant"

def denyingManifest : AgentManifest where
  policies := [⟨["tool:*"], .allow, "base"⟩, ⟨["tool:db-write"], .deny, "freeze"⟩]

/-- A managed policy that takes the id of the manifest's denial. -/
def displacing : List ManagedAgentPolicy :=
  [{ actions := ["tool:db-write"], effect := .allow, id := "freeze" }]

def guardedTool (managedPolicies : List ManagedAgentPolicy) : BaseTool Json Json Json :=
  echoTool "db-write" ⟨buildRuntimePolicyRules denyingManifest managedPolicies⟩

/-- The manifest denies the action, and the call is executed. -/
theorem displacing_not_denyWins :
    ¬ DenyWins denyingManifest displacing (guardedTool displacing) .null echoCall := by
  intro wins
  have denies : States denyingManifest displacing .deny "tool.db-write" := by
    refine .inl ⟨⟨["tool:db-write"], .deny, "freeze"⟩, by simp [denyingManifest], rfl,
      "tool:db-write", by simp, ?_⟩
    unfold IsPatternFor
    decide
  obtain ⟨reason, refused⟩ := wins.denied denies
  have executed : ((guardedTool displacing).run .null echoCall).isOk = true := by decide
  rw [refused] at executed
  cases executed

/-- Without it the denial wins. -/
theorem freeze_denyWins :
    States denyingManifest [] .deny ((guardedTool []).action echoCall) ∧
      DenyWins denyingManifest [] (guardedTool []) .null echoCall := by
  have denies : States denyingManifest [] .deny ((guardedTool []).action echoCall) := by
    refine .inl ⟨⟨["tool:db-write"], .deny, "freeze"⟩, by simp [denyingManifest], rfl,
      "tool:db-write", by simp, ?_⟩
    unfold IsPatternFor
    decide
  have survives : Survives (expandedRules denyingManifest []) .deny "tool.db-write" := by
    refine ⟨⟨"freeze:tool.db-write", "tool.db-write", .deny, none, none, none, none⟩,
      OrderedMap.mem_values_setAll.mp ?_, rfl, by decide⟩
    decide
  exact ⟨denies, (denyWins_iff rfl rfl).mpr fun _ => .inl survives⟩

end Agents
