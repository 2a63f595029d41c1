import BirthHub.Agents.Policy
import BirthHub.Data.ReadCommitted
import BirthHub.Effect.System
import BirthHub.Tasks.Model

/-!
# What agent executions await

The operations that the execution of an agent awaits: commands on the two Redis keys of an
execution, statements on the budgets of agents, calls of tools, and the other statements
and calls. `Store.handle` says how the outside answers each of them.
-/

namespace Agents

open Data Effect

/-- The members of a JavaScript object used as a record. -/
abbrev Members := List (String × Json)

/-! ## Executions -/

structure PlannedToolCall where
  tool : String
  input : Json

structure AgentExecutionRequest where
  executionId : String
  agentId : String
  tenantId : String
  input : Members
  toolCalls : Option (List PlannedToolCall) := none

structure PlanExecutionStep where
  call : PlannedToolCall
  estimatedCostBrl : ℚ
  output : Json
  startedAt : Int
  finishedAt : Int

inductive TraceNodeType
  | plan
  | result
  | tool
deriving DecidableEq

structure TraceNode where
  id : String
  type : TraceNodeType
  label : String
  parentId : Option String := none
deriving DecidableEq

structure PlanExecutionResult where
  executionId : String
  tenantId : String
  agentId : String
  cached : Bool
  estimatedCostBrlTotal : ℚ
  output : Members
  steps : List PlanExecutionStep
  traceId : String
  traceNodes : List TraceNode

/-- Commands on the keys of an execution. The request of a command says on whose behalf it
is sent; the key is made of the `executionId` alone. -/
inductive RedisOp
  /-- `GET exec_result:…`. -/
  | getResult (request : AgentExecutionRequest)
  /-- `SET exec_lock:… running EX NX`: whether the answer is `OK`. -/
  | setLock (executionId : String)
  /-- `SET exec_result:… EX`. -/
  | setResult (request : AgentExecutionRequest) (result : PlanExecutionResult)
  /-- `DEL exec_lock:…`. -/
  | delLock (executionId : String)

def RedisOp.Result : RedisOp → Type
  | .getResult _ => Option PlanExecutionResult
  | .setLock _ => Bool
  | .setResult .. | .delLock _ => Unit

def EXEC_RESULT_TTL_SECONDS : Nat := 60 * 60

def EXEC_LOCK_TTL_SECONDS : Nat := 60 * 15

/-- The keys of executions, each with the time at which it expires. -/
structure Redis where
  locks : String → Option Int := fun _ => none
  results : String → Option (PlanExecutionResult × Int) := fun _ => none

namespace Redis

variable (redis : Redis) (clock : Int)

def isLocked (executionId : String) : Bool :=
  (redis.locks executionId).any (decide <| clock < ·)

/-- The result that is retained for an execution. -/
def retained (executionId : String) : Option PlanExecutionResult :=
  ((redis.results executionId).filter (decide <| clock < ·.2)).map Prod.fst

def handle : (o : RedisOp) → o.Result × Redis
  | .getResult request => (redis.retained clock request.executionId, redis)
  | .setLock executionId =>
      if redis.isLocked clock executionId then (false, redis)
      else (true, { redis with
        locks := Function.update redis.locks executionId
          (some (clock + EXEC_LOCK_TTL_SECONDS * 1000)) })
  | .setResult request result => ((), { redis with
      results := Function.update redis.results request.executionId
        (some (result, clock + EXEC_RESULT_TTL_SECONDS * 1000)) })
  | .delLock executionId => ((), { redis with
      locks := Function.update redis.locks executionId none })

end Redis

/-! ## Budgets -/

inductive AlertLevel
  | WARN_80
  | BLOCK_100
deriving DecidableEq

/-- What a budget is for; it also stands for the id of the row. -/
structure BudgetKey where
  tenantId : String
  agentId : String
deriving DecidableEq

structure AgentBudget where
  id : BudgetKey
  organizationId : String
  limitBrl : ℚ := 100
  consumedBrl : ℚ := 0
  lastAlertLevel : Option AlertLevel := none
deriving DecidableEq

inductive BudgetEventKind
  | CONSUME
  | DRY_RUN
  | WARN_80
  | BLOCK_100
deriving DecidableEq

def AlertLevel.kind : AlertLevel → BudgetEventKind
  | .WARN_80 => .WARN_80
  | .BLOCK_100 => .BLOCK_100

structure AgentBudgetEvent where
  budget : BudgetKey
  organizationId : String
  actorId : String
  requestId : Option String
  kind : BudgetEventKind
  costBrl : ℚ := 0
  executionMode : Tasks.ExecutionMode := .LIVE
  /-- The execution in the metadata; an event of the API has none. -/
  executionId : Option String := none
deriving DecidableEq

/-- What the `consumeBudget` of the worker is called with. -/
structure WorkerCharge where
  actorId : String
  agentId : String
  costBrl : ℚ
  executionId : String
  organizationId : String
  tenantId : String
deriving DecidableEq

/-- What the `consumeBudget` of the API is called with. -/
structure ApiCharge where
  actorId : String
  agentId : String
  costBRL : ℚ
  executionMode : Tasks.ExecutionMode := .LIVE
  organizationId : String
  requestId : Option String := none
  tenantId : String
deriving DecidableEq

/-- A consumption of a budget, by the worker or by the API. -/
inductive Consumption
  | worker (input : WorkerCharge)
  | api (input : ApiCharge)
deriving DecidableEq

namespace Consumption

def budget : Consumption → BudgetKey
  | .worker input => ⟨input.tenantId, input.agentId⟩
  | .api input => ⟨input.tenantId, input.agentId⟩

def cost : Consumption → ℚ
  | .worker input => input.costBrl
  | .api input => input.costBRL

/-- The execution that is charged. -/
def executionId : Consumption → Option String
  | .worker input => some input.executionId
  | .api _ => none

end Consumption

/-- The columns that an `update` sets. -/
structure BudgetUpdate where
  consumedBrl : Option ℚ := none
  lastAlertLevel : Option (Option AlertLevel) := none

def BudgetUpdate.apply (data : BudgetUpdate) (row : AgentBudget) : AgentBudget :=
  { row with
    consumedBrl := data.consumedBrl.getD row.consumedBrl
    lastAlertLevel := data.lastAlertLevel.getD row.lastAlertLevel }

/-- Statements on budgets, made in a transaction or in none. -/
inductive BudgetOp
  /-- `BEGIN`, for a consumption. -/
  | begin (consumption : Consumption)
  /-- `upsert` with an empty `update`: the row is read, or created. -/
  | upsertBudget (tx : Option Nat) (create : AgentBudget)
  | updateBudget (tx : Option Nat) (id : BudgetKey) (data : BudgetUpdate)
  | createBudgetEvent (tx : Option Nat) (event : AgentBudgetEvent)
  | commit (tx : Nat)
  | rollback (tx : Nat)

def BudgetOp.Result : BudgetOp → Type
  | .begin _ => Nat
  | .upsertBudget .. | .updateBudget .. => AgentBudget
  | .createBudgetEvent .. | .commit _ | .rollback _ => Unit

abbrev BudgetDb := Database BudgetKey AgentBudget AgentBudgetEvent

/-- A statement in a transaction that has ended. -/
def transactionClosed : Thrown := { message := some "Transaction already closed", code := some "P2028" }

def recordNotFound : Thrown :=
  { message := some "An operation failed because it depends on one or more records that were required but not found."
    code := some "P2025" }

/-- The answer to a statement on budgets; `none` while it waits for a row that another
transaction holds. -/
def BudgetOp.handle (db : BudgetDb) :
    (o : BudgetOp) → Option (Except Thrown o.Result × BudgetDb)
  | .begin _ => some (.ok db.begin.1, db.begin.2)
  | .upsertBudget tx create =>
      if !db.isOpen tx then some (.error transactionClosed, db)
      else
        match db.seen tx create.id with
        | some row => some (.ok row, db)
        | none =>
            if db.isHeld tx create.id then none
            else some (.ok create, db.write tx create.id create)
  | .updateBudget tx id data =>
      if !db.isOpen tx then some (.error transactionClosed, db)
      else if db.isHeld tx id then none
      else
        match db.seen tx id with
        | some row => some (.ok (data.apply row), db.write tx id (data.apply row))
        | none => some (.error recordNotFound, db)
  | .createBudgetEvent tx event =>
      if !db.isOpen tx then some (.error transactionClosed, db)
      else some (.ok (), db.append tx event)
  | .commit tx =>
      if db.isActive tx then some (.ok (), db.commit tx)
      else some (.error transactionClosed, db)
  | .rollback tx =>
      if db.isActive tx then some (.ok (), db.rollback tx)
      else some (.error transactionClosed, db)

/-! ## The other operations -/

structure Organization where
  id : String
  tenantId : String
deriving DecidableEq

/-- An agent that a tenant has installed. -/
structure InstalledAgent where
  id : String
  tenantId : String
  organizationId : String
  config : Json

structure AgentLearningRecord where
  approved : Bool
  confidence : Number
  createdAt : Int
  id : String
  keywords : List String
  sourceAgentId : String
  summary : String
  tenantId : String

inductive ExecutionSource
  | MANUAL
  | WORKFLOW
deriving DecidableEq

inductive ExecutionStatus
  | RUNNING
  | SUCCESS
  | WAITING_APPROVAL
  | FAILED
deriving DecidableEq

/-- What `persistExecutionStarted` writes. -/
structure ExecutionStart where
  agentId : String
  executionId : String
  inputPayload : Members
  organizationId : Option String
  source : ExecutionSource
  tenantId : String
  userId : Option String

structure AgentExecution extends ExecutionStart where
  status : ExecutionStatus := .RUNNING
  errorMessage : Option String := none

structure BillingStatus where
  locked : Bool
  status : Option String
deriving DecidableEq

/-- The latest subscription of an organization. -/
structure BilledSubscription where
  status : String
  gracePeriodEndsAt : Option Int
  updatedAt : Int
deriving DecidableEq

inductive AgentOp
  | redis (o : RedisOp)
  | budget (o : BudgetOp)
  /-- `tool.run` with the input of the call, on behalf of the request. -/
  | runTool (request : AgentExecutionRequest) (call : PlannedToolCall) (estimatedCostBrl : ℚ)
      (timeoutMs : Option Int)
  | now
  /-- Wait for the given time and some jitter. -/
  | wait (delayMs : Nat)
  | randomUUID
  /-- The organization with this `id` or `tenantId`. -/
  | findOrganization (reference : String)
  | findOrganizationOfTenant (tenantId : String)
  | findJobSigningSecret (tenantId : String)
  | findAgent (id tenantId : String)
  | upsertExecution (data : ExecutionStart)
  | updateExecution (id : String) (status : ExecutionStatus) (errorMessage : Option String)
  /-- `updateMany` of the logs in the metadata of an execution. -/
  | persistLogs (executionId : String)
  /-- The learning records that the agent memory holds under the keys of a pattern. -/
  | listMemory (pattern : String)
  | getMemory (key : String)
  | setMemory (key : String)
  /-- The learning records in the audit log of a tenant. -/
  | findPublishedLearning (tenantId : String)
  | findConversationThread (externalThreadId organizationId : String)
  | updateConversationThread (id : String)
  | createConversationThread (tenantId organizationId : String)
  | createConversationMessage (tenantId organizationId threadId : String)
  | createOutputArtifact (tenantId organizationId agentId : String) (status : ExecutionStatus)
  | createAuditLog (tenantId entityId action : String)
  | getBillingStatus (tenantReference : String)
  | findSubscription (tenantReference : String)
  | setBillingStatus (tenantReference : String) (status : BillingStatus)
  /-- The notifications, mails and webhooks about the end of an execution. -/
  | fanOutExecutionOutcome (executionId tenantId : String) (status : ExecutionStatus)

def AgentOp.Result : AgentOp → Type
  | .redis o => o.Result
  | .budget o => o.Result
  | .runTool .. => Json
  | .now => Int
  | .randomUUID | .createConversationThread .. | .createOutputArtifact .. => String
  | .findOrganization _ | .findOrganizationOfTenant _ => Option Organization
  | .findJobSigningSecret _ | .findConversationThread .. => Option String
  | .findAgent .. => Option InstalledAgent
  | .listMemory _ | .findPublishedLearning _ => List AgentLearningRecord
  | .getBillingStatus _ => Option BillingStatus
  | .findSubscription _ => Option BilledSubscription
  | .wait _ | .upsertExecution _ | .updateExecution .. | .persistLogs _ | .getMemory _
  | .setMemory _ | .updateConversationThread _ | .createConversationMessage .. | .createAuditLog ..
  | .setBillingStatus .. | .fanOutExecutionOutcome .. => Unit

/-- An operation inside the process, which does not fail. -/
def AgentOp.isLocal : AgentOp → Bool
  | .now | .wait _ | .randomUUID => true
  | _ => false

abbrev AgentIface : Iface where
  Op := AgentOp
  Res := AgentOp.Result
  Err := Thrown

def await (o : AgentOp) : Prog AgentIface o.Result := Prog.perform (I := AgentIface) o

/-! ## The outside -/

structure Store where
  clock : Int := 0
  redis : Redis := {}
  budgets : BudgetDb
  executions : List AgentExecution := []
  organizations : List Organization := []
  agents : List InstalledAgent := []
  secrets : List (String × String) := []

/-- An operation that fails. -/
structure Fault where
  error : Thrown
  /-- The operation has its effect, and only the answer is lost. -/
  lost : Bool := false

/-- What the outside decides about one operation. -/
structure Choice where
  fault : Option Fault := none
  /-- The output of a tool, or what it throws. -/
  output : Except Thrown Json := .ok .null
  learning : List AgentLearningRecord := []
  /-- An id that is made up. -/
  id : String := ""
  thread : Option String := none
  billing : Option BillingStatus := none
  subscription : Option BilledSubscription := none

namespace Store

variable (store : Store)

def upsertExecution (data : ExecutionStart) : List AgentExecution :=
  if store.executions.any (decide <| ·.executionId = data.executionId) then
    store.executions.map fun row =>
      if row.executionId = data.executionId then { row with toExecutionStart := data, status := .RUNNING }
      else row
  else store.executions ++ [{ toExecutionStart := data }]

def updateExecution (id : String) (status : ExecutionStatus) (errorMessage : Option String) :
    Except Thrown Unit × Store :=
  if store.executions.any (decide <| ·.executionId = id) then
    (.ok (), { store with
      executions := store.executions.map fun row =>
        if row.executionId = id then { row with status, errorMessage } else row })
  else (.error recordNotFound, store)

/-- The answer to an operation that does not fail by a fault, and its effect. -/
def perform (choice : Choice) : (o : AgentOp) → Option (AgentIface.Answer o × Store)
  | .redis o =>
      let (r, redis) := store.redis.handle store.clock o
      some (.ok r, { store with redis })
  | .budget o => (o.handle store.budgets).map fun (answer, budgets) => (answer, { store with budgets })
  | .runTool .. => some (choice.output, store)
  | .now => some (.ok store.clock, store)
  | .randomUUID => some (.ok choice.id, store)
  | .findOrganization reference =>
      some (.ok (store.organizations.find? fun o => o.id = reference ∨ o.tenantId = reference), store)
  | .findOrganizationOfTenant tenantId =>
      some (.ok (store.organizations.find? (decide <| ·.tenantId = tenantId)), store)
  | .findJobSigningSecret tenantId =>
      some (.ok ((store.secrets.find? (decide <| ·.1 = tenantId)).map Prod.snd), store)
  | .findAgent id tenantId =>
      some (.ok (store.agents.find? fun a => a.id = id ∧ a.tenantId = tenantId), store)
  | .upsertExecution data => some (.ok (), { store with executions := store.upsertExecution data })
  | .updateExecution id status errorMessage => some (store.updateExecution id status errorMessage)
  | .listMemory _ | .findPublishedLearning _ => some (.ok choice.learning, store)
  | .findConversationThread .. => some (.ok choice.thread, store)
  | .createConversationThread .. | .createOutputArtifact .. => some (.ok choice.id, store)
  | .getBillingStatus _ => some (.ok choice.billing, store)
  | .findSubscription _ => some (.ok choice.subscription, store)
  | .wait _ | .persistLogs _ | .getMemory _ | .setMemory _ | .updateConversationThread _
  | .createConversationMessage .. | .createAuditLog .. | .setBillingStatus ..
  | .fanOutExecutionOutcome .. => some (.ok (), store)

/-- What a failed operation does: a transaction whose end fails is rolled back. -/
def failed : AgentOp → Store
  | .budget (.commit tx) | .budget (.rollback tx) =>
      { store with
        budgets := if store.budgets.isActive tx then store.budgets.rollback tx else store.budgets }
  | _ => store

def handle (o : AgentOp) (choice : Choice) : Option (AgentIface.Answer o × Store) :=
  match choice.fault.filter fun _ => !o.isLocal with
  | none => store.perform choice o
  | some fault =>
      if fault.lost then (store.perform choice o).map fun (_, store') => (.error fault.error, store')
      else some (.error fault.error, store.failed o)

/-! ### What an operation changes -/

variable {store store' : Store} {o : AgentOp} {choice : Choice} {answer : AgentIface.Answer o}

theorem updateExecution_rest (id : String) (status : ExecutionStatus) (errorMessage : Option String) :
    ∃ executions, (store.updateExecution id status errorMessage).2 = { store with executions } := by
  unfold updateExecution
  split
  · exact ⟨_, rfl⟩
  · exact ⟨store.executions, rfl⟩

/-- An operation has its effect, whatever is answered, or it fails. -/
theorem handle_cases (answered : store.handle o choice = some (answer, store')) :
    (∃ answer', store.perform choice o = some (answer', store') ∧
      (answer = answer' ∨ ∃ e, answer = .error e)) ∨
    (store' = store.failed o ∧ ∃ e, answer = .error e) := by
  unfold handle at answered
  split at answered
  · exact .inl ⟨answer, answered, .inl rfl⟩
  rename_i fault _
  split at answered
  · obtain ⟨⟨answer', after⟩, performed, same⟩ := Option.map_eq_some_iff.mp answered
    cases same
    exact .inl ⟨answer', performed, .inr ⟨_, rfl⟩⟩
  · cases answered
    exact .inr ⟨rfl, _, rfl⟩

theorem handle_ok {r : o.Result} (answered : store.handle o choice = some (.ok r, store')) :
    store.perform choice o = some (.ok r, store') := by
  rcases handle_cases answered with ⟨answer', performed, same | ⟨e, same⟩⟩ | ⟨_, e, same⟩
  · exact same ▸ performed
  · cases same
  · cases same

theorem perform_clock (performed : store.perform choice o = some (answer, store')) :
    store'.clock = store.clock := by
  cases o with
  | budget o =>
      obtain ⟨⟨answer', budgets⟩, _, same⟩ := Option.map_eq_some_iff.mp performed
      cases same
      rfl
  | updateExecution id status errorMessage =>
      obtain ⟨executions, rest⟩ := store.updateExecution_rest id status errorMessage
      have same : store' = { store with executions } :=
        (congrArg Prod.snd (Option.some.inj performed)).symm.trans rest
      rw [same]
  | _ =>
      cases performed
      rfl

theorem handle_clock (answered : store.handle o choice = some (answer, store')) :
    store'.clock = store.clock := by
  rcases handle_cases answered with ⟨answer', performed, _⟩ | ⟨rfl, _⟩
  · exact perform_clock performed
  · unfold failed
    split <;> rfl

theorem perform_redis (performed : store.perform choice o = some (answer, store'))
    (other : ∀ o', o ≠ .redis o') : store'.redis = store.redis := by
  cases o with
  | redis o => exact (other o rfl).elim
  | budget o =>
      obtain ⟨⟨answer', budgets⟩, _, same⟩ := Option.map_eq_some_iff.mp performed
      cases same
      rfl
  | updateExecution id status errorMessage =>
      obtain ⟨executions, rest⟩ := store.updateExecution_rest id status errorMessage
      have same : store' = { store with executions } :=
        (congrArg Prod.snd (Option.some.inj performed)).symm.trans rest
      rw [same]
  | _ =>
      cases performed
      rfl

/-- The keys of executions change by commands on them. -/
theorem handle_redis (answered : store.handle o choice = some (answer, store')) :
    store'.redis = store.redis ∨
      ∃ o', o = .redis o' ∧ store'.redis = (store.redis.handle store.clock o').2 := by
  rcases handle_cases answered with ⟨answer', performed, _⟩ | ⟨rfl, _⟩
  · cases o with
    | redis o' =>
        cases performed
        exact .inr ⟨o', rfl, rfl⟩
    | _ => exact .inl (perform_redis performed nofun)
  · left
    unfold failed
    split <;> rfl

/-- What is retained for an execution changes only when its result is stored. -/
theorem handle_retained (answered : store.handle o choice = some (answer, store'))
    (executionId : String) :
    store'.redis.retained store'.clock executionId = store.redis.retained store.clock executionId ∨
      ∃ request result, o = .redis (.setResult request result) ∧ request.executionId = executionId ∧
        store'.redis.retained store'.clock executionId = some result := by
  rw [handle_clock answered]
  rcases handle_redis answered with same | ⟨o', rfl, same⟩
  · exact .inl (by rw [same])
  rw [same]
  cases o' with
  | getResult request => exact .inl rfl
  | setLock executionId' =>
      left
      by_cases locked : store.redis.isLocked store.clock executionId' <;>
        simp [Redis.handle, locked, Redis.retained]
  | setResult request result =>
      by_cases own : request.executionId = executionId
      · right
        refine ⟨request, result, rfl, own, ?_⟩
        have later : store.clock < store.clock + EXEC_RESULT_TTL_SECONDS * 1000 := by
          simp [EXEC_RESULT_TTL_SECONDS]
        simp [Redis.handle, Redis.retained, own, later]
      · left
        simp [Redis.handle, Redis.retained, Function.update, Ne.symm own]
  | delLock executionId' => exact .inl rfl

end Store

end Agents
