import BirthHub.Agents.Executor

/-!
# Consumption of budgets

The worker checks before an execution that the budget of the agent has room for its plan,
and consumes the budget after the execution; the API consumes it before it accepts a task.
Both consumptions are transactions that read the row, compute the new total, and write it
back.
-/

namespace Agents

open Data Effect

/-- `prisma.$transaction` for a consumption. -/
def transaction {α : Type} (consumption : Consumption) (body : Nat → Prog AgentIface α) :
    Prog AgentIface α := do
  let tx ← await (.budget (.begin consumption))
  let result ← (body tx).tryCatch fun error => do
    (await (.budget (.rollback tx))).tryCatch fun _ => pure ()
    .throw error
  await (.budget (.commit tx))
  pure result

/-! ## The worker -/

/-- What is left of a budget. -/
structure BudgetState where
  consumedBrl : ℚ
  limitBrl : ℚ
  lastAlertLevel : Option AlertLevel := none

def ensureBudgetHeadroom (input : WorkerCharge) : Prog AgentIface BudgetState := do
  let budget : AgentBudget ← await (.budget (.upsertBudget none {
    id := ⟨input.tenantId, input.agentId⟩
    organizationId := input.organizationId }))
  let projectedConsumption := roundCurrency (budget.consumedBrl + input.costBrl)
  if projectedConsumption ≤ budget.limitBrl then
    pure { consumedBrl := budget.consumedBrl, limitBrl := budget.limitBrl }
  else do
    let _ ← await (.budget (.updateBudget none budget.id { lastAlertLevel := some (some .BLOCK_100) }))
    await (.budget (.createBudgetEvent none {
      budget := ⟨input.tenantId, input.agentId⟩
      organizationId := input.organizationId
      actorId := input.actorId
      requestId := some input.executionId
      kind := .BLOCK_100
      costBrl := input.costBrl
      executionId := some input.executionId }))
    .throw (executorError "AGENT_BUDGET_EXCEEDED"
      ("Execution would exceed the configured budget for agent " ++ input.agentId ++ "."))

/-- The alert level after a consumption by the worker. -/
def nextAlertLevel (budget : AgentBudget) (nextConsumedBrl : ℚ) : Option AlertLevel :=
  if budget.limitBrl ≤ nextConsumedBrl then some .BLOCK_100
  else if budget.limitBrl * (4 / 5) ≤ nextConsumedBrl then some .WARN_80
  else budget.lastAlertLevel

/-- An event of a charge. -/
def WorkerCharge.event (input : WorkerCharge) (kind : BudgetEventKind) : AgentBudgetEvent where
  budget := ⟨input.tenantId, input.agentId⟩
  organizationId := input.organizationId
  actorId := input.actorId
  requestId := some input.executionId
  kind
  executionId := some input.executionId

/-- `consumeBudget` of the worker. -/
def chargeExecution (input : WorkerCharge) : Prog AgentIface BudgetState :=
  transaction (.worker input) fun tx => do
    let budget : AgentBudget ← await (.budget (.upsertBudget (some tx) {
      id := ⟨input.tenantId, input.agentId⟩
      organizationId := input.organizationId }))
    let nextConsumedBrl := roundCurrency (budget.consumedBrl + input.costBrl)
    let alert := nextAlertLevel budget nextConsumedBrl
    let updatedBudget : AgentBudget ← await (.budget (.updateBudget (some tx) budget.id {
      consumedBrl := some nextConsumedBrl
      lastAlertLevel := some alert }))
    await (.budget (.createBudgetEvent (some tx) { input.event .CONSUME with
      costBrl := input.costBrl }))
    match alert with
    | none => pure ()
    | some level => await (.budget (.createBudgetEvent (some tx) (input.event level.kind)))
    pure {
      consumedBrl := updatedBudget.consumedBrl
      limitBrl := updatedBudget.limitBrl
      lastAlertLevel := updatedBudget.lastAlertLevel }

/-! ## The API -/

/-- `Number(value.toFixed(4))`: a tie is rounded away from zero. -/
def toFixed4 (value : ℚ) : ℚ :=
  let digits : ℚ := mathRound (|value| * 10000) / 10000
  if value < 0 then -digits else digits

structure BudgetRecord where
  agentId : String
  consumed : ℚ
  id : BudgetKey
  limit : ℚ
  tenantId : String

def toBudgetRecord (record : AgentBudget) : BudgetRecord where
  agentId := record.id.agentId
  consumed := toFixed4 record.consumedBrl
  id := record.id
  limit := toFixed4 record.limitBrl
  tenantId := record.id.tenantId

/-- An event of a consumption. -/
def ApiCharge.event (input : ApiCharge) (kind : BudgetEventKind) : AgentBudgetEvent where
  budget := ⟨input.tenantId, input.agentId⟩
  organizationId := input.organizationId
  actorId := input.actorId
  requestId := input.requestId
  kind
  executionMode := input.executionMode

/-- `BudgetExceededError`. -/
def budgetExceeded (input : ApiCharge) : Thrown :=
  error ("Budget exhausted for agent " ++ input.agentId ++ ".")

def usageRatio (limitBrl nextConsumed : ℚ) : ℚ :=
  if limitBrl = 0 then 1 else nextConsumed / limitBrl

/-- `BudgetService.consumeBudget`. -/
def consumeBudget (input : ApiCharge) : Prog AgentIface BudgetRecord :=
  transaction (.api input) fun tx => do
    let record : AgentBudget ← await (.budget (.upsertBudget (some tx) {
      id := ⟨input.tenantId, input.agentId⟩
      organizationId := input.organizationId }))
    if input.executionMode = .DRY_RUN then do
      await (.budget (.createBudgetEvent (some tx) (input.event .DRY_RUN)))
      pure (toBudgetRecord record)
    else
      let nextConsumed := toFixed4 (record.consumedBrl + input.costBRL)
      if record.limitBrl < nextConsumed then do
        let _ ← await (.budget (.updateBudget (some tx) record.id {
          lastAlertLevel := some (some .BLOCK_100) }))
        await (.budget (.createBudgetEvent (some tx) { input.event .BLOCK_100 with
          costBrl := input.costBRL }))
        .throw (budgetExceeded input)
      else do
        let updated : AgentBudget ← await (.budget (.updateBudget (some tx) record.id {
          consumedBrl := some nextConsumed }))
        await (.budget (.createBudgetEvent (some tx) { input.event .CONSUME with
          costBrl := input.costBRL }))
        let ratio := usageRatio updated.limitBrl nextConsumed
        if 4 / 5 ≤ ratio ∧ updated.lastAlertLevel ≠ some .WARN_80 then do
          let level : AlertLevel := if 1 ≤ ratio then .BLOCK_100 else .WARN_80
          let _ ← await (.budget (.updateBudget (some tx) updated.id {
            lastAlertLevel := some (some level) }))
          await (.budget (.createBudgetEvent (some tx) (input.event level.kind)))
        pure (toBudgetRecord updated)

end Agents
