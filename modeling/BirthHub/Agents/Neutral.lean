import BirthHub.Agents.Worker

/-!
# The parts of a run that execute nothing

Before its plan is executed and after its charge, a run only awaits operations that touch
neither the keys of an execution nor what is consumed of a budget, and each of them names
the tenant of the run, if it names one.
-/

namespace Agents

open Data Effect

/-- An update that leaves what is consumed alone. -/
def BudgetUpdate.IsAlert (data : BudgetUpdate) : Prop := data.consumedBrl = none

/-- An operation that touches neither the keys of an execution, nor a tool, nor what is
consumed of a budget. -/
def AgentOp.IsNeutral : AgentOp → Prop
  | .redis _ | .runTool .. => False
  | .budget (.upsertBudget none create) => create.consumedBrl = 0
  | .budget (.updateBudget none _ data) => data.IsAlert
  | .budget (.createBudgetEvent none event) => event.kind ≠ .CONSUME
  | .budget _ => False
  | _ => True

/-- The operation names no other tenant; a key of the memory starts with the tenant, and an
update of a budget is of the row that was read. -/
def AgentOp.Names (tenantId : String) : AgentOp → Prop
  | .redis (.getResult request) | .redis (.setResult request _) | .runTool request .. =>
      request.tenantId = tenantId
  | .budget (.begin consumption) => consumption.budget.tenantId = tenantId
  | .budget (.upsertBudget _ create) => create.id.tenantId = tenantId
  | .budget (.createBudgetEvent _ event) => event.budget.tenantId = tenantId
  | .findOrganizationOfTenant tenantId' | .findAgent _ tenantId' | .findPublishedLearning tenantId'
  | .createConversationThread tenantId' _ | .createConversationMessage tenantId' ..
  | .createOutputArtifact tenantId' .. | .createAuditLog tenantId' .. => tenantId' = tenantId
  | .upsertExecution data => data.tenantId = tenantId
  | .listMemory key | .getMemory key | .setMemory key => ∃ rest, key = tenantId ++ ":" ++ rest
  | _ => True

/-- An operation of a run for a tenant that executes nothing. -/
def AgentOp.IsPlain (tenantId : String) (o : AgentOp) : Prop := o.IsNeutral ∧ o.Names tenantId

section

variable {α β : Type} {A : AgentOp → Prop} {tenantId : String}

theorem within_await_bind {o : AgentOp} {f : o.Result → Prog AgentIface α} (within : A o)
    (rest : ∀ r, (f r).Within A) : (await o >>= f).Within A :=
  Prog.Within.bind (Prog.Within.perform within) rest

theorem within_tryCatch {p : Prog AgentIface α} {h : Thrown → Prog AgentIface α}
    (first : p.Within A) (second : ∀ e, (h e).Within A) : (p.tryCatch h).Within A := by
  induction p with
  | pure a => trivial
  | throw e => exact second e
  | op o k ih => exact ⟨first.1, fun r => ih r (first.2 r)⟩

theorem within_ofExcept_bind {x : Except Thrown α} {f : α → Prog AgentIface β}
    (rest : ∀ a, x = .ok a → (f a).Within A) : (Prog.ofExcept x >>= f).Within A := by
  cases x with
  | ok a => exact rest a rfl
  | error e => trivial

theorem buildNamespacedKey_starts {agentId memoryKey key : String}
    (built : buildNamespacedKey tenantId agentId memoryKey = .ok key) :
    ∃ rest, key = tenantId ++ ":" ++ rest := by
  unfold buildNamespacedKey at built
  split at built
  · cases built
  · cases built
    exact ⟨agentId ++ ":" ++ memoryKey, by simp only [String.append_assoc]⟩

theorem buildSharedLearningKey_starts {memoryKey key : String}
    (built : buildSharedLearningKey tenantId memoryKey = .ok key) :
    ∃ rest, key = tenantId ++ ":" ++ rest := by
  unfold buildSharedLearningKey at built
  split at built
  · cases built
  · cases built
    refine ⟨"shared-learning:" ++ memoryKey, ?_⟩
    rw [show ":shared-learning:" = ":" ++ "shared-learning:" from rfl]
    simp only [String.append_assoc]

theorem querySharedLearning_plain {keywords : List String} :
    (querySharedLearning keywords tenantId).Within (AgentOp.IsPlain tenantId) := by
  refine within_ofExcept_bind fun pattern built => ?_
  refine within_await_bind ⟨trivial, buildSharedLearningKey_starts built⟩ fun stored => ?_
  exact within_await_bind ⟨trivial, rfl⟩ fun published => trivial

theorem appendConversationMessage_plain {agentId organizationId : String}
    {session : Option String} :
    (appendConversationMessage agentId organizationId tenantId session).Within
      (AgentOp.IsPlain tenantId) := by
  unfold appendConversationMessage
  cases session with
  | none => trivial
  | some sessionId =>
      refine within_ofExcept_bind fun key built => ?_
      refine within_await_bind ⟨trivial, buildNamespacedKey_starts built⟩ fun _ => ?_
      refine within_await_bind ⟨trivial, buildNamespacedKey_starts built⟩ fun _ => ?_
      refine within_await_bind ⟨trivial, trivial⟩ fun existing => ?_
      cases existing with
      | some id =>
          refine within_await_bind ⟨trivial, trivial⟩ fun _ => ?_
          exact Prog.Within.perform ⟨trivial, rfl⟩
      | none =>
          refine within_await_bind ⟨trivial, rfl⟩ fun id => ?_
          exact Prog.Within.perform ⟨trivial, rfl⟩

theorem resolveRuntimeAgent_plain {catalog : List CatalogManifest} {agentId : String}
    {catalogAgentId : Option String} :
    (resolveRuntimeAgent catalog agentId catalogAgentId tenantId).Within
      (AgentOp.IsPlain tenantId) := by
  refine within_await_bind ⟨trivial, rfl⟩ fun installedAgent => ?_
  dsimp only
  split <;> trivial

theorem resolveManagedPolicies_plain {installedAgentId : Option String} :
    (resolveManagedPolicies installedAgentId tenantId).Within (AgentOp.IsPlain tenantId) := by
  unfold resolveManagedPolicies
  split
  · trivial
  · exact within_await_bind ⟨trivial, rfl⟩ fun agent => trivial

theorem resolveOrganization_plain {input : RuntimeExecutionInput}
    {resolved : RuntimeAgentResolution} :
    (resolveOrganization input resolved).Within (AgentOp.IsPlain input.tenantId) := by
  refine Prog.Within.bind ?_ fun organizationId => ?_
  · split
    · trivial
    · exact within_await_bind ⟨trivial, rfl⟩ fun organization => trivial
  · split <;> trivial

theorem prepare_plain {input : RuntimeExecutionInput} {catalog : List CatalogManifest} :
    (input.prepare catalog).Within (AgentOp.IsPlain input.tenantId) := by
  refine Prog.Within.bind resolveRuntimeAgent_plain fun resolved => ?_
  refine Prog.Within.bind resolveOrganization_plain fun organizationId => ?_
  refine Prog.Within.bind querySharedLearning_plain fun sharedLearning => ?_
  refine Prog.Within.bind resolveManagedPolicies_plain fun managedPolicies => ?_
  refine Prog.Within.bind (within_tryCatch appendConversationMessage_plain fun _ => trivial) fun _ => ?_
  exact within_await_bind ⟨trivial, trivial⟩ fun _ => trivial

theorem ensureBudgetHeadroom_plain {input : WorkerCharge} :
    (ensureBudgetHeadroom input).Within (AgentOp.IsPlain input.tenantId) := by
  refine within_await_bind ⟨rfl, rfl⟩ fun budget => ?_
  dsimp only
  split
  · trivial
  · refine within_await_bind ⟨rfl, trivial⟩ fun _ => ?_
    exact within_await_bind ⟨by simp [AgentOp.IsNeutral], rfl⟩ fun _ => trivial

theorem publish_plain {input : RuntimeExecutionInput} {run : PreparedRun} {planned : ℚ}
    {execution : PlanExecutionResult} {budget : BudgetState} :
    (input.publish run planned execution budget).Within (AgentOp.IsPlain input.tenantId) := by
  refine within_await_bind ⟨trivial, trivial⟩ fun learningRecordId => ?_
  refine within_await_bind ⟨trivial, rfl⟩ fun outputArtifactId => ?_
  refine within_await_bind ⟨trivial, rfl⟩ fun _ => ?_
  refine within_await_bind ⟨trivial, rfl⟩ fun _ => ?_
  refine within_ofExcept_bind fun key built => ?_
  refine within_await_bind ⟨trivial, buildSharedLearningKey_starts built⟩ fun _ => ?_
  refine Prog.Within.bind (within_tryCatch appendConversationMessage_plain fun _ => trivial) fun _ => ?_
  exact within_await_bind ⟨trivial, trivial⟩ fun _ => trivial

end

end Agents
