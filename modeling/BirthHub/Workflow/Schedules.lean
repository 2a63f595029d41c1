import BirthHub.Workflow.Launch

/-!
# Editing workflows and their schedules

`createWorkflow`, `updateWorkflow` and `archiveWorkflow` of
`apps/api/src/modules/workflows/service.ts` with the repeatable jobs they give a workflow
that is triggered by `CRON` (`scheduleCronWorkflow` of `runnerQueue.ts`), and the system in
which these calls and the firings of the schedules run side by side.

BullMQ tells repeatable jobs apart by job id and pattern, and keeps each until it is
removed; nothing here removes one.
-/

namespace Workflow.Scheduling

open Data Effect

/-! ## Rows and inputs -/

/-- A workflow with the columns of its trigger. -/
structure WorkflowRow where
  definition : Definition
  triggerType : TriggerType := .MANUAL
  cronExpression : Option String := none

/-- A repeatable job of the trigger queue. -/
structure Schedule where
  pattern : String
  payload : WorkflowTriggerJobPayload

structure ScheduleStore where
  launch : LaunchStore
  rows : List WorkflowRow
  schedules : List Schedule
  /-- The jobs that the schedules have put into the trigger queue. -/
  firings : List Schedule

structure WorkflowCreateInput where
  canvas : Canvas
  cronExpression : Option String := none
  maxDepth : Int := 50
  status : WorkflowStatus := .DRAFT
  triggerType : TriggerType := .MANUAL

structure WorkflowUpdateInput where
  canvas : Option Canvas := none
  cronExpression : Option String := none
  maxDepth : Option Int := none
  status : Option WorkflowStatus := none
  triggerType : Option TriggerType := none

/-! ## Operations -/

inductive ScheduleOp
  | launch (o : LaunchOp)
  | assertWorkflowLimit (identity : ScopedIdentity)
  /-- The transaction of `createWorkflow`. -/
  | insertWorkflow (identity : ScopedIdentity) (input : WorkflowCreateInput)
  | getWorkflowById (workflowId tenantId : String)
  /-- The transaction of `updateWorkflow`. -/
  | editWorkflow (identity : ScopedIdentity) (workflowId : String) (input : WorkflowUpdateInput)
  /-- The `updateMany` of `archiveWorkflow`. -/
  | setArchived (workflowId tenantId : String)
  /-- `triggerQueue.add` with `repeat`. -/
  | addRepeatable (schedule : Schedule)

def ScheduleOp.Result : ScheduleOp → Type
  | .launch o => o.Result
  | .assertWorkflowLimit _ => Unit
  | .insertWorkflow .. => WorkflowRow
  | .getWorkflowById .. => Option WorkflowRow
  | .editWorkflow .. => WorkflowRow
  | .setArchived .. => Unit
  | .addRepeatable _ => Unit

abbrev ScheduleIface : Iface where
  Op := ScheduleOp
  Res := ScheduleOp.Result
  Err := Thrown

def asSchedule : Embedding LaunchIface ScheduleIface where
  op := .launch
  answer _ := id
  err := id

def awaitSchedule (o : ScheduleOp) : Prog ScheduleIface o.Result :=
  Prog.perform (I := ScheduleIface) o

/-! ## The calls -/

def scheduleCronWorkflow (payload : WorkflowTriggerJobPayload) (cron : String) :
    Prog ScheduleIface Unit :=
  awaitSchedule (.addRepeatable { pattern := cron, payload })

/-- What a schedule of the workflow carries. -/
def cronPayload (workflow : Definition) : WorkflowTriggerJobPayload where
  organizationId := workflow.organizationId
  tenantId := workflow.tenantId
  triggerPayload := .object []
  triggerType := .CRON
  workflowId := workflow.id

def upsertCronTrigger (workflow : WorkflowRow) : Prog ScheduleIface Unit :=
  match workflow.cronExpression with
  | none => pure ()
  | some cron =>
      if cron = "" then pure ()
      else scheduleCronWorkflow (cronPayload workflow.definition) cron

def createWorkflow (tenantReference : String) (input : WorkflowCreateInput) :
    Prog ScheduleIface WorkflowRow := do
  let identity ← (resolveScopedIdentity tenantReference).embed asSchedule
  let _ ← awaitSchedule (.assertWorkflowLimit identity)
  match ensureCanvasIsDag input.canvas with
  | .error e => .throw (error e.message)
  | .ok _ =>
      let workflow : WorkflowRow ← awaitSchedule (.insertWorkflow identity input)
      if input.triggerType = .CRON then upsertCronTrigger workflow
      let persisted ← awaitSchedule (.getWorkflowById workflow.definition.id identity.tenantId)
      match persisted with
      | none => .throw (error "WORKFLOW_CREATE_FAILED")
      | some persisted => pure persisted

def updateWorkflow (workflowId tenantReference : String) (input : WorkflowUpdateInput) :
    Prog ScheduleIface WorkflowRow := do
  let identity ← (resolveScopedIdentity tenantReference).embed asSchedule
  let existing ← awaitSchedule (.getWorkflowById workflowId identity.tenantId)
  match existing with
  | none => .throw (error "WORKFLOW_NOT_FOUND")
  | some existing =>
      match input.canvas.map ensureCanvasIsDag with
      | some (.error e) => .throw (error e.message)
      | _ =>
          let updated : WorkflowRow ← awaitSchedule (.editWorkflow identity workflowId input)
          if input.triggerType.getD existing.triggerType = .CRON then upsertCronTrigger updated
          let persisted ← awaitSchedule (.getWorkflowById workflowId identity.tenantId)
          match persisted with
          | none => .throw (error "WORKFLOW_NOT_FOUND_AFTER_UPDATE")
          | some persisted => pure persisted

def archiveWorkflow (workflowId tenantReference : String) : Prog ScheduleIface Unit := do
  let identity ← (resolveScopedIdentity tenantReference).embed asSchedule
  awaitSchedule (.setArchived workflowId identity.tenantId)

/-! ## The store -/

/-- What the outside decides about one operation; `cuid n` is the id of the `n`-th step that is
created. -/
structure ScheduleChoice extends Choice where
  cuid : Nat → String := unaryCuid

/-- The row after the update; the canvas is already persisted. -/
def WorkflowUpdateInput.apply (input : WorkflowUpdateInput)
    (canvas : Option (List WorkflowStep × List WorkflowTransition)) (row : WorkflowRow) :
    WorkflowRow where
  definition := { row.definition with
    status := input.status.getD row.definition.status
    maxDepth := input.maxDepth.getD row.definition.maxDepth
    steps := (canvas.map Prod.fst).getD row.definition.steps
    transitions := (canvas.map Prod.snd).getD row.definition.transitions }
  triggerType := input.triggerType.getD row.triggerType
  cronExpression := input.cronExpression <|> row.cronExpression

namespace ScheduleStore

variable (store : ScheduleStore)

def row (id tenantId : String) : Option WorkflowRow :=
  store.rows.find? fun row => row.definition.id = id ∧ row.definition.tenantId = tenantId

def setRows (pick : WorkflowRow → Bool) (f : WorkflowRow → WorkflowRow) : ScheduleStore :=
  { store with rows := store.rows.map fun row => if pick row then f row else row }

/-- What the jobs of the trigger queue see of the workflows. -/
def seen : LaunchStore :=
  { store.launch with
    engine := { store.launch.engine with workflows := store.rows.map (·.definition) } }

/-- The id is new: no workflow has it, nor a schedule. -/
def isNewId (id : String) : Bool :=
  store.rows.all (·.definition.id ≠ id) && store.schedules.all (·.payload.workflowId ≠ id)

/-- A repeatable job with the job id and pattern of one that is there is not added again. -/
def addRepeatable (schedule : Schedule) : ScheduleStore :=
  if store.schedules.any fun s => s.pattern = schedule.pattern ∧
      s.payload.workflowId = schedule.payload.workflowId then store
  else { store with schedules := store.schedules ++ [schedule] }

def notFound : Thrown := { message := some "No record was found for an update.",
                           code := some "P2025" }

/-- The result of an operation that does not fail by `fault`. -/
def perform (choice : ScheduleChoice) (store : ScheduleStore) : (o : ScheduleOp) →
    Option (ScheduleIface.Answer o × ScheduleStore)
  | .launch o => (store.seen.handle o choice.toChoice).map fun (answer, launch) =>
      (answer, { store with launch })
  | .assertWorkflowLimit _ => some (.ok (), store)
  | .insertWorkflow identity input =>
      if store.isNewId choice.newId then
        match Workflow.createWorkflow choice.cuid identity choice.newId input.status
            input.maxDepth input.canvas with
        | .error e => some (.error e, store)
        | .ok definition =>
            let row : WorkflowRow := {
              definition
              triggerType := input.triggerType
              cronExpression := input.cronExpression }
            some (.ok row, { store with rows := store.rows ++ [row] })
      else none
  | .getWorkflowById id tenantId => some (.ok (store.row id tenantId), store)
  | .editWorkflow identity id input =>
      match store.rows.find? (·.definition.id = id) with
      | none => some (.error notFound, store)
      | some row =>
          match input.canvas.map (persistCanvas choice.cuid identity id) with
          | some (.error e) => some (.error e, store)
          | some (.ok canvas) => some (.ok (input.apply (some canvas) row),
              store.setRows (·.definition.id = id) (input.apply (some canvas)))
          | none => some (.ok (input.apply none row),
              store.setRows (·.definition.id = id) (input.apply none))
  | .setArchived id tenantId => some (.ok (), store.setRows
      (fun row => row.definition.id = id ∧ row.definition.tenantId = tenantId)
      fun row => { row with definition := { row.definition with status := .ARCHIVED } })
  | .addRepeatable schedule => some (.ok (), store.addRepeatable schedule)

def handle (o : ScheduleOp) (choice : ScheduleChoice) (store : ScheduleStore) :
    Option (ScheduleIface.Answer o × ScheduleStore) :=
  match o, choice.fault with
  | .launch o, _ => store.perform choice (.launch o)
  | _, some e => some (.error e, store)
  | o, none => store.perform choice o

end ScheduleStore

/-! ## The system -/

inductive ScheduleTask
  | create (tenantReference : String) (input : WorkflowCreateInput)
  | update (workflowId tenantReference : String) (input : WorkflowUpdateInput)
  | archive (workflowId tenantReference : String)
  /-- A job of the trigger queue that a schedule has put there. -/
  | firing (schedule : Schedule)

inductive ScheduleEvent
  | create (tenantReference : String) (input : WorkflowCreateInput)
  | update (workflowId tenantReference : String) (input : WorkflowUpdateInput)
  | archive (workflowId tenantReference : String)
  /-- The time of a schedule has come. -/
  | fire (schedule : Nat)
  /-- BullMQ hands a job to a worker, once or, if it takes it for stalled, again. -/
  | deliver (firing : Nat)

def scheduleOutside (event : ScheduleEvent) (store : ScheduleStore)
    (_threads : List (Thread ScheduleTask Outcome)) : Option (Change ScheduleTask ScheduleStore) :=
  match event with
  | .create tenantReference input => some { store, spawn := [.create tenantReference input] }
  | .update workflowId tenantReference input =>
      some { store, spawn := [.update workflowId tenantReference input] }
  | .archive workflowId tenantReference =>
      some { store, spawn := [.archive workflowId tenantReference] }
  | .fire n => (store.schedules[n]?).map fun schedule =>
      { store := { store with firings := store.firings ++ [schedule] }, spawn := [] }
  | .deliver n => (store.firings[n]?).map fun schedule => { store, spawn := [.firing schedule] }

abbrev Schedules : Type :=
  World ScheduleIface ScheduleTask ScheduleStore (Prog ScheduleIface (Option WorkflowRow))

def scheduleProgram : ScheduleTask → Prog ScheduleIface (Option WorkflowRow)
  | .create tenantReference input =>
      (createWorkflow tenantReference input).bind fun row => .pure (some row)
  | .update workflowId tenantReference input =>
      (updateWorkflow workflowId tenantReference input).bind fun row => .pure (some row)
  | .archive workflowId tenantReference =>
      (archiveWorkflow workflowId tenantReference).bind fun _ => .pure none
  | .firing schedule =>
      (((processTriggerJob schedule.payload).embed asLaunch).embed asSchedule).bind fun _ =>
        .pure none

def scheduling : System ScheduleIface ScheduleTask ScheduleStore (Option WorkflowRow) where
  Choice := ScheduleChoice
  handle := ScheduleStore.handle
  program := scheduleProgram
  Env := ScheduleEvent
  env := scheduleOutside

end Workflow.Scheduling
