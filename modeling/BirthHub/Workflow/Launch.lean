import BirthHub.Effect.Embed
import BirthHub.Workflow.Engine

/-!
# Launching an execution

`runWorkflowNow` of `apps/api/src/modules/workflows/service.ts` with the two queues it
writes to (`runnerQueue.ts`), and the system in which calls of it and the jobs of the
trigger queue run side by side. The step jobs are worked off elsewhere: what the worker
does to the database and to its queue meanwhile is a move of the environment,
`WorkerMove`, and other calls edit the definitions.

`cuid()` gives each execution an id of its own, without a colon.
-/

namespace Workflow

open Data Effect

/-! ## Store and operations -/

structure OrganizationRow where
  id : String
  tenantId : String

/-- A job of the `workflow-trigger` queue; it is not retried. -/
structure TriggerJob where
  id : String
  payload : WorkflowTriggerJobPayload
  state : JobState

structure LaunchStore where
  engine : Store
  organizations : List OrganizationRow
  triggers : List TriggerJob

inductive LaunchOp
  | findOrganization (tenantReference : String)
  /-- `triggerQueue.add`, which answers with the job that has the id. -/
  | addTrigger (payload : WorkflowTriggerJobPayload) (jobId : String)
  | runner (o : RunnerOp)

def LaunchOp.Result : LaunchOp → Type
  | .findOrganization _ => Option OrganizationRow
  | .addTrigger .. => Nat
  | .runner o => o.Result

abbrev LaunchIface : Iface where
  Op := LaunchOp
  Res := LaunchOp.Result
  Err := Thrown

def asLaunch : Embedding RunnerIface LaunchIface where
  op := .runner
  answer _ := id
  err := id

def awaitLaunch (o : LaunchOp) : Prog LaunchIface o.Result := Prog.perform (I := LaunchIface) o

/-! ## The call -/

structure WorkflowRunInput where
  async : Bool := true
  payload : Json := .object []

inductive RunMode
  | async
  | sync
deriving DecidableEq, Repr

structure RunResult where
  executionId : String
  mode : RunMode
  status : String := "accepted"
deriving DecidableEq, Repr

/-- `resolveScopedIdentity`. -/
def resolveScopedIdentity (tenantReference : String) : Prog LaunchIface ScopedIdentity := do
  let organization ← awaitLaunch (.findOrganization tenantReference)
  match organization with
  | none => .throw (error "ORGANIZATION_NOT_FOUND")
  | some organization =>
      pure { organizationId := organization.id, tenantId := organization.tenantId }

/-- `workflow.steps.find(...)` of `runWorkflowNow`. -/
def runTriggerStep (workflow : Definition) : Option WorkflowStep :=
  workflow.steps.find? fun step =>
    step.type = .TRIGGER_WEBHOOK ∨ step.type = .TRIGGER_CRON ∨ step.type = .TRIGGER_EVENT

def enqueueWorkflowExecution (payload : WorkflowExecutionJobPayload) : Prog LaunchIface Unit :=
  awaitLaunch (.runner (.addJob payload
    { jobId := s!"{payload.executionId}:{payload.stepKey}:{payload.attempt}" }))

def enqueueWorkflowTrigger (payload : WorkflowTriggerJobPayload) : Prog LaunchIface Unit := do
  let now : Int ← awaitLaunch (.runner .now)
  let _ ← awaitLaunch (.addTrigger payload s!"{payload.workflowId}:{now}")
  pure ()

/-- What the trigger job of a call carries, and what its execution is created from. -/
def launchPayload (workflow : Definition) (input : WorkflowRunInput) (triggerType : TriggerType) :
    WorkflowTriggerJobPayload where
  organizationId := workflow.organizationId
  tenantId := workflow.tenantId
  triggerPayload := input.payload
  triggerType
  workflowId := workflow.id

def runWorkflowNow (workflowId tenantReference : String) (input : WorkflowRunInput)
    (triggerType : TriggerType := .MANUAL) : Prog LaunchIface RunResult := do
  let identity ← resolveScopedIdentity tenantReference
  let workflow ← awaitLaunch (.runner (.findWorkflow workflowId identity.tenantId))
  match workflow with
  | none => .throw (error "WORKFLOW_NOT_FOUND")
  | some workflow =>
      if workflow.status ≠ .PUBLISHED then .throw (error "WORKFLOW_NOT_PUBLISHED")
      else do
        let payload := launchPayload workflow input triggerType
        let execution : WorkflowExecution ← awaitLaunch (.runner (.createExecution payload))
        match runTriggerStep workflow with
        | some triggerStep =>
            enqueueWorkflowExecution (firstJob execution.id payload triggerStep.key)
        | none => enqueueWorkflowTrigger payload
        pure { executionId := execution.id, mode := if input.async then .async else .sync }

/-- The API and the worker look for the same types. -/
theorem runTriggerStep_eq_triggerStep (workflow : Definition) :
    runTriggerStep workflow = triggerStep workflow := by
  unfold runTriggerStep triggerStep
  congr 1
  funext step
  cases step.type <;> rfl

/-! ## The store -/

namespace LaunchStore

variable (store : LaunchStore)

/-- The place of the job that BullMQ holds under the id. -/
def heldTrigger (jobId : String) (retained : Bool) : Option Nat :=
  store.triggers.findIdx? fun job => job.id = jobId ∧ (job.state.isOpen || retained)

def addTrigger (payload : WorkflowTriggerJobPayload) (jobId : String) (retained : Bool) :
    Nat × LaunchStore :=
  match store.heldTrigger jobId retained with
  | some n => (n, store)
  | none =>
      (store.triggers.length,
        { store with triggers := store.triggers ++ [⟨jobId, payload, .waiting⟩] })

/-- The id is one that `cuid()` may give to a new execution. -/
def isFreshId (id : String) : Bool := !id.toList.contains ':' && (store.engine.execution id).isNone

def perform (choice : Choice) : (o : LaunchOp) → LaunchIface.Answer o × LaunchStore
  | .findOrganization tenantReference =>
      match choice.fault with
      | some e => (.error e, store)
      | none => (.ok (store.organizations.find? fun row =>
          row.id = tenantReference ∨ row.tenantId = tenantReference), store)
  | .addTrigger payload jobId =>
      match choice.fault with
      | some e => (.error e, store)
      | none =>
          let (n, store') := store.addTrigger payload jobId choice.retained
          (.ok n, store')
  | .runner o =>
      let (answer, engine) := store.engine.handle o choice
      (answer, { store with engine })

/-- An execution is created under a fresh id only. -/
def admits (choice : Choice) : LaunchOp → Bool
  | .runner (.createExecution _) => store.isFreshId choice.newId
  | _ => true

def handle (o : LaunchOp) (choice : Choice) (store : LaunchStore) :
    Option (LaunchIface.Answer o × LaunchStore) :=
  if store.admits choice o then some (store.perform choice o) else none

end LaunchStore

/-! ## The system -/

inductive LaunchTask
  | call (workflowId tenantReference : String) (input : WorkflowRunInput)
      (triggerType : TriggerType)
  /-- The trigger job at this place of its queue. -/
  | trigger (job : Nat) (payload : WorkflowTriggerJobPayload)

/-- What the processing of step jobs does: it works on executions that have a job. -/
inductive WorkerMove
  | updateExecution (id : String) (data : ExecutionUpdate)
  | addJob (payload : WorkflowExecutionJobPayload) (options : JobOptions) (retained : Bool)
  | createStepResult (row : StepResult)
  | setQuotas (quotas : List QuotaUsage)
  /-- A job changes its state or its count of attempts. -/
  | setJob (n : Nat) (attemptsMade : Nat) (state : JobState)

/-- Some job of the queue is for the execution. -/
def Store.hasJobOf (store : Store) (executionId : String) : Bool :=
  store.jobs.any fun job => job.payload.executionId = executionId

def WorkerMove.apply (store : Store) : WorkerMove → Option Store
  | .updateExecution id data =>
      if store.hasJobOf id then some (store.updateExecution id data) else none
  | .addJob payload options retained =>
      if store.hasJobOf payload.executionId ∧
          (payload.executionId ++ ":").toList <+: options.jobId.toList then
        some (store.addJob payload options retained)
      else none
  | .createStepResult row => some { store with stepResults := store.stepResults ++ [row] }
  | .setQuotas quotas => some { store with quotas }
  | .setJob n attemptsMade state =>
      some (store.setJob n fun job => { job with attemptsMade, state })

inductive LaunchEvent
  | call (workflowId tenantReference : String) (input : WorkflowRunInput)
      (triggerType : TriggerType)
  /-- A webhook, an event or a schedule puts a job into the trigger queue. -/
  | fire (payload : WorkflowTriggerJobPayload) (jobId : String) (retained : Bool)
  | deliver (n : Nat)
  | settle (thread : Nat)
  | stall (n : Nat)
  | work (move : WorkerMove)
  | setWorkflows (workflows : List Definition)

def LaunchStore.setTrigger (store : LaunchStore) (n : Nat) (state : JobState) : LaunchStore :=
  { store with triggers := store.triggers.modify n fun job => { job with state } }

def launchOutside (event : LaunchEvent) (store : LaunchStore)
    (threads : List (Thread LaunchTask Outcome)) : Option (Change LaunchTask LaunchStore) :=
  match event with
  | .call workflowId tenantReference input triggerType =>
      some { store, spawn := [.call workflowId tenantReference input triggerType] }
  | .fire payload jobId retained =>
      some { store := (store.addTrigger payload jobId retained).2, spawn := [] }
  | .deliver n =>
      match store.triggers[n]? with
      | some job =>
          if job.state = .waiting then
            some { store := store.setTrigger n .active, spawn := [.trigger n job.payload] }
          else none
      | none => none
  | .settle i =>
      match threads[i]? with
      | some ⟨.trigger n _, outcome, false⟩ =>
          if outcome = .running then none
          else some {
            store := store.setTrigger n (if outcome = .returned then .completed else .failed)
            spawn := []
            settle := some i }
      | _ => none
  | .stall n =>
      match store.triggers[n]? with
      | some job =>
          if job.state = .active then some { store := store.setTrigger n .waiting, spawn := [] }
          else none
      | none => none
  | .work move =>
      (move.apply store.engine).map fun engine => { store := { store with engine }, spawn := [] }
  | .setWorkflows workflows =>
      some { store := { store with engine := { store.engine with workflows } }, spawn := [] }

abbrev Launch : Type := World LaunchIface LaunchTask LaunchStore (Prog LaunchIface (Option RunResult))

/-- A call returns its result, a trigger job nothing. -/
def launchProgram : LaunchTask → Prog LaunchIface (Option RunResult)
  | .call workflowId tenantReference input triggerType =>
      (runWorkflowNow workflowId tenantReference input triggerType).bind fun r => .pure (some r)
  | .trigger _ payload =>
      ((processTriggerJob payload).embed asLaunch).bind fun _ => .pure none

def launch : System LaunchIface LaunchTask LaunchStore (Option RunResult) where
  Choice := Choice
  handle := LaunchStore.handle
  program := launchProgram
  Env := LaunchEvent
  env := launchOutside

end Workflow
