import BirthHub.Data.JsonText
import BirthHub.Workflow.Schedules

/-!
# The life of a workflow

The calls of `Workflow.Schedules` on a store that also keeps when a workflow was published
and archived and how many workflows the plan of its tenant allows. After a sequence of calls
a workflow has a date of publication just when it is published, and of archiving just when it
is archived, unless `archiveWorkflow` was called on a published workflow: it leaves the date
of publication, which `updateWorkflow` takes away.
-/

namespace Workflow.Lifecycle

open Data Effect Scheduling

/-! ## Plan limits -/

/-- `readNumericPlanLimit`. -/
def readNumericPlanLimit (limits : Json) (key : String) (fallback : Number) : Number :=
  match limits.member key with
  | some (.number (.finite negative digits exponent)) =>
      if negative ∧ digits ≠ 0 then .infinite false else .finite negative digits exponent
  | some (.number (.infinite _)) => .infinite false
  | some (.number .nan) => .nan
  | _ => fallback

/-- The limit is finite, and the number does not lie under it. -/
def reaches (current : Nat) (limit : Number) : Bool :=
  match limit.value with
  | some limit => decide (limit ≤ current)
  | none => false

/-! ## Rows -/

structure LifecycleRow extends WorkflowRow where
  publishedAt : Option Int := none
  archivedAt : Option Int := none

def LifecycleRow.status (row : LifecycleRow) : WorkflowStatus := row.definition.status

structure LifecycleStore where
  launch : LaunchStore
  rows : List LifecycleRow
  schedules : List Schedule
  /-- The limits of the plan of a tenant. -/
  planLimits : String → Json

/-- What the outside decides about one operation. -/
structure LifecycleChoice extends ScheduleChoice where
  /-- `new Date()`. -/
  date : Int := 0

/-- The dates that `updateWorkflow` writes with a status. -/
def LifecycleRow.setStatus (row : LifecycleRow) (status : WorkflowStatus) (date : Int) :
    LifecycleRow where
  toWorkflowRow := row.toWorkflowRow
  publishedAt := if status = .PUBLISHED then some date else none
  archivedAt := if status = .ARCHIVED then some date else none

/-- A row after `updateWorkflow`. -/
def LifecycleRow.edit (row : LifecycleRow) (input : WorkflowUpdateInput)
    (canvas : Option (List WorkflowStep × List WorkflowTransition)) (date : Int) : LifecycleRow :=
  let edited : LifecycleRow := { row with toWorkflowRow := input.apply canvas row.toWorkflowRow }
  match input.status with
  | some status => edited.setStatus status date
  | none => edited

/-- A row after `archiveWorkflow`. -/
def LifecycleRow.archive (row : LifecycleRow) (date : Int) : LifecycleRow where
  toWorkflowRow :=
    { row.toWorkflowRow with definition := { row.definition with status := .ARCHIVED } }
  publishedAt := row.publishedAt
  archivedAt := some date

/-! ## The store -/

/-- `402`. -/
def limitError (limit : Number) : Thrown :=
  error s!"The active plan allows {limit.toString} workflows. Upgrade to create more."

namespace LifecycleStore

variable (store : LifecycleStore)

def row (id tenantId : String) : Option LifecycleRow :=
  store.rows.find? fun row => row.definition.id = id ∧ row.definition.tenantId = tenantId

def setRows (pick : LifecycleRow → Bool) (f : LifecycleRow → LifecycleRow) : LifecycleStore :=
  { store with rows := store.rows.map fun row => if pick row then f row else row }

/-- The workflows of a tenant that are not archived. -/
def countWorkflows (tenantId : String) : Nat :=
  store.rows.countP fun row => row.archivedAt.isNone ∧ row.definition.tenantId = tenantId

def workflowLimit (tenantId : String) : Number :=
  readNumericPlanLimit (store.planLimits tenantId) "workflows" (.ofNat 30)

/-- The id is new: no workflow has it, nor a schedule. -/
def isNewId (id : String) : Bool :=
  store.rows.all (·.definition.id ≠ id) && store.schedules.all (·.payload.workflowId ≠ id)

/-- A repeatable job with the job id and pattern of one that is there is not added again. -/
def addRepeatable (schedule : Schedule) : LifecycleStore :=
  if store.schedules.any fun s => s.pattern = schedule.pattern ∧
      s.payload.workflowId = schedule.payload.workflowId then store
  else { store with schedules := store.schedules ++ [schedule] }

/-- The result of an operation that does not fail by `fault`. -/
def perform (choice : LifecycleChoice) (store : LifecycleStore) : (o : ScheduleOp) →
    Option (ScheduleIface.Answer o × LifecycleStore)
  | .launch o => (store.launch.handle o choice.toChoice).map fun (answer, launch) =>
      (answer, { store with launch })
  | .assertWorkflowLimit identity =>
      let limit := store.workflowLimit identity.tenantId
      if reaches (store.countWorkflows identity.tenantId) limit then
        some (.error (limitError limit), store)
      else some (.ok (), store)
  | .insertWorkflow identity input =>
      if store.isNewId choice.newId then
        match Workflow.createWorkflow choice.cuid identity choice.newId input.status
            input.maxDepth input.canvas with
        | .error e => some (.error e, store)
        | .ok definition =>
            let row : WorkflowRow := {
              definition
              triggerType := input.triggerType
              cronExpression := input.cronExpression }
            some (.ok row, { store with rows := store.rows ++ [{
              toWorkflowRow := row
              publishedAt := if input.status = .PUBLISHED then some choice.date else none
              archivedAt := if input.status = .ARCHIVED then some choice.date else none }] })
      else none
  | .getWorkflowById id tenantId =>
      some (.ok ((store.row id tenantId).map (·.toWorkflowRow)), store)
  | .editWorkflow identity id input =>
      match store.rows.find? (·.definition.id = id) with
      | none => some (.error ScheduleStore.notFound, store)
      | some row =>
          match input.canvas.map (persistCanvas choice.cuid identity id) with
          | some (.error e) => some (.error e, store)
          | some (.ok canvas) => some (.ok (input.apply (some canvas) row.toWorkflowRow),
              store.setRows (·.definition.id = id) (·.edit input (some canvas) choice.date))
          | none => some (.ok (input.apply none row.toWorkflowRow),
              store.setRows (·.definition.id = id) (·.edit input none choice.date))
  | .setArchived id tenantId => some (.ok (), store.setRows
      (fun row => row.definition.id = id ∧ row.definition.tenantId = tenantId)
      (·.archive choice.date))
  | .addRepeatable schedule => some (.ok (), store.addRepeatable schedule)

def handle (o : ScheduleOp) (choice : LifecycleChoice) (store : LifecycleStore) :
    Option (ScheduleIface.Answer o × LifecycleStore) :=
  match o, choice.fault with
  | .launch o, _ => store.perform choice (.launch o)
  | _, some e => some (.error e, store)
  | o, none => store.perform choice o

end LifecycleStore

/-! ## The calls -/

inductive LifecycleTask
  | create (tenantReference : String) (input : WorkflowCreateInput)
  | update (workflowId tenantReference : String) (input : WorkflowUpdateInput)
  | archive (workflowId tenantReference : String)

def lifecycleProgram : LifecycleTask → Prog ScheduleIface (Option WorkflowRow)
  | .create tenantReference input =>
      (Scheduling.createWorkflow tenantReference input).bind fun row => .pure (some row)
  | .update workflowId tenantReference input =>
      (Scheduling.updateWorkflow workflowId tenantReference input).bind fun row => .pure (some row)
  | .archive workflowId tenantReference =>
      (Scheduling.archiveWorkflow workflowId tenantReference).bind fun _ => .pure none

/-- The service: calls arrive at any time, and each awaits its operations. -/
def lifecycle : System ScheduleIface LifecycleTask LifecycleStore (Option WorkflowRow) where
  Choice := LifecycleChoice
  handle := LifecycleStore.handle
  program := lifecycleProgram
  Env := LifecycleTask
  env task store _ := some { store, spawn := [task] }

/-! ## What an operation does to the rows -/

section

variable {store store' : LifecycleStore} {o : ScheduleOp} {choice : LifecycleChoice}
  {answer : ScheduleIface.Answer o}

/-- Everything an operation can do to the workflows. -/
theorem LifecycleStore.handle_rows (answered : store.handle o choice = some (answer, store')) :
    store'.planLimits = store.planLimits ∧
    (store'.rows = store.rows ∨
    (∃ identity input row, o = .insertWorkflow identity input ∧
      store'.rows = store.rows ++ [row] ∧ row.status = input.status ∧
      row.definition.tenantId = identity.tenantId ∧
      row.publishedAt = (if input.status = .PUBLISHED then some choice.date else none) ∧
      row.archivedAt = if input.status = .ARCHIVED then some choice.date else none) ∨
    (∃ identity id input canvas, o = .editWorkflow identity id input ∧
      store'.rows = (store.setRows (·.definition.id = id) (·.edit input canvas choice.date)).rows) ∨
    ∃ id tenantId, o = .setArchived id tenantId ∧
      store'.rows = (store.setRows
        (fun row => row.definition.id = id ∧ row.definition.tenantId = tenantId)
        (·.archive choice.date)).rows) := by
  have performed : store' = store ∨ store.perform choice o = some (answer, store') := by
    unfold handle at answered
    cases fault : choice.fault with
    | none =>
        rw [fault] at answered
        cases o <;> exact .inr answered
    | some e =>
        rw [fault] at answered
        cases o with
        | launch o => exact .inr answered
        | _ => exact .inl (Prod.mk.inj (Option.some.inj answered)).2.symm
  rcases performed with rfl | performed
  · exact ⟨rfl, .inl rfl⟩
  cases o with
  | launch o =>
      obtain ⟨⟨_, launch⟩, _, same⟩ := Option.map_eq_some_iff.mp performed
      rw [← (Prod.mk.inj same).2]
      exact ⟨rfl, .inl rfl⟩
  | assertWorkflowLimit identity =>
      simp only [perform] at performed
      split at performed <;> rw [← (Prod.mk.inj (Option.some.inj performed)).2] <;>
        exact ⟨rfl, .inl rfl⟩
  | insertWorkflow identity input =>
      simp only [perform] at performed
      split at performed
      · split at performed
        · rw [← (Prod.mk.inj (Option.some.inj performed)).2]
          exact ⟨rfl, .inl rfl⟩
        · rename_i definition created
          rw [← (Prod.mk.inj (Option.some.inj performed)).2]
          have fields : definition.status = input.status ∧
              definition.tenantId = identity.tenantId := by
            unfold Workflow.createWorkflow at created
            split at created
            · cases created
            · simp only [bind, Except.bind] at created
              split at created
              · cases created
              · cases created
                exact ⟨rfl, rfl⟩
          exact ⟨rfl, .inr (.inl ⟨identity, input, _, rfl, rfl, fields.1, fields.2, rfl, rfl⟩)⟩
      · cases performed
  | getWorkflowById id tenantId =>
      rw [← (Prod.mk.inj (Option.some.inj performed)).2]
      exact ⟨rfl, .inl rfl⟩
  | editWorkflow identity id input =>
      simp only [perform] at performed
      split at performed
      · rw [← (Prod.mk.inj (Option.some.inj performed)).2]
        exact ⟨rfl, .inl rfl⟩
      · split at performed <;> rw [← (Prod.mk.inj (Option.some.inj performed)).2]
        · exact ⟨rfl, .inl rfl⟩
        · exact ⟨rfl, .inr (.inr (.inl ⟨identity, id, input, _, rfl, rfl⟩))⟩
        · exact ⟨rfl, .inr (.inr (.inl ⟨identity, id, input, _, rfl, rfl⟩))⟩
  | setArchived id tenantId =>
      rw [← (Prod.mk.inj (Option.some.inj performed)).2]
      exact ⟨rfl, .inr (.inr (.inr ⟨id, tenantId, rfl, rfl⟩))⟩
  | addRepeatable schedule =>
      rw [← (Prod.mk.inj (Option.some.inj performed)).2]
      simp only [addRepeatable]
      split <;> exact ⟨rfl, .inl rfl⟩

end

/-! ## The dates of a row -/

/-- The row has the dates of its status. -/
def LifecycleRow.Dated (row : LifecycleRow) : Prop :=
  (row.status = .PUBLISHED ↔ row.publishedAt.isSome) ∧
    (row.status = .ARCHIVED ↔ row.archivedAt.isSome)

/-- Every workflow has the dates of its status. -/
def LifecycleStore.AllDated (store : LifecycleStore) : Prop := ∀ row ∈ store.rows, row.Dated

/-- `archiveWorkflow` finds no published workflow. -/
def archivesUnpublished (store : LifecycleStore) : ScheduleOp → Bool
  | .setArchived id tenantId => store.rows.all fun row =>
      !(row.definition.id = id ∧ row.definition.tenantId = tenantId ∧ row.status = .PUBLISHED)
  | _ => true

theorem LifecycleRow.Dated.of_dates {row : LifecycleRow} (date : Int)
    (published : row.publishedAt = if row.status = .PUBLISHED then some date else none)
    (archived : row.archivedAt = if row.status = .ARCHIVED then some date else none) :
    row.Dated := by
  unfold LifecycleRow.Dated
  rw [published, archived]
  cases row.status <;> simp

theorem LifecycleRow.Dated.edit {row : LifecycleRow} {input : WorkflowUpdateInput}
    {canvas : Option (List WorkflowStep × List WorkflowTransition)} {date : Int}
    (dated : row.Dated) : (row.edit input canvas date).Dated := by
  cases given : input.status with
  | none =>
      have same : (row.edit input canvas date).status = row.status := by
        simp [LifecycleRow.edit, LifecycleRow.status, given, WorkflowUpdateInput.apply]
      unfold LifecycleRow.Dated at dated ⊢
      rw [same]
      simpa [LifecycleRow.edit, given] using dated
  | some status =>
      have same : (row.edit input canvas date).status = status := by
        simp [LifecycleRow.edit, LifecycleRow.status, LifecycleRow.setStatus, given,
          WorkflowUpdateInput.apply]
      refine LifecycleRow.Dated.of_dates date ?_ ?_ <;> rw [same] <;>
        simp [LifecycleRow.edit, LifecycleRow.setStatus, given]

/-- A row that is archived keeps the dates of its status just when it was not published. -/
theorem LifecycleRow.Dated.archive_iff {row : LifecycleRow} {date : Int} (dated : row.Dated) :
    (row.archive date).Dated ↔ row.status ≠ .PUBLISHED := by
  have published : row.publishedAt.isSome = true ↔ row.status = .PUBLISHED := dated.1.symm
  show ((WorkflowStatus.ARCHIVED = .PUBLISHED ↔ row.publishedAt.isSome) ∧
    (WorkflowStatus.ARCHIVED = .ARCHIVED ↔ (some date).isSome)) ↔ _
  rw [published]
  simp

/-- One operation keeps the dates right, if it archives no published workflow. -/
theorem LifecycleStore.AllDated.handle {store store' : LifecycleStore} {o : ScheduleOp}
    {choice : LifecycleChoice} {answer : ScheduleIface.Answer o} (dated : store.AllDated)
    (allowed : archivesUnpublished store o = true)
    (answered : store.handle o choice = some (answer, store')) : store'.AllDated := by
  obtain ⟨_, kept | ⟨identity, input, row, rfl, rows, status, _, published, archived⟩ |
    ⟨identity, id, input, canvas, rfl, rows⟩ | ⟨id, tenantId, rfl, rows⟩⟩ := handle_rows answered
  · unfold AllDated
    rw [kept]
    exact dated
  · intro other there
    rw [rows] at there
    rcases List.mem_append.mp there with before | new
    · exact dated other before
    · rw [List.mem_singleton.mp new]
      exact .of_dates choice.date (status.symm ▸ published) (status.symm ▸ archived)
  · intro other there
    rw [rows] at there
    obtain ⟨row, before, rfl⟩ := List.mem_map.mp there
    split
    · exact (dated row before).edit
    · exact dated row before
  · intro other there
    rw [rows] at there
    obtain ⟨row, before, rfl⟩ := List.mem_map.mp there
    split
    · rename_i picked
      refine (dated row before).archive_iff.mpr fun published => ?_
      have unpublished := List.all_eq_true.mp allowed row before
      simp only [decide_eq_true_eq] at picked
      simp [picked.1, picked.2, published] at unpublished
    · exact dated row before

/-- In every history of calls that archives no published workflow, every workflow has the
dates of its status after each call. -/
theorem allDated_of_archivesUnpublished (launch : LaunchStore) (planLimits : String → Json)
    (calls : List (Call ScheduleIface LifecycleTask (Option WorkflowRow)))
    (store : LifecycleStore)
    (served : (lifecycle.guarded archivesUnpublished).Serves (fun _ _ => True)
      ⟨launch, [], [], planLimits⟩ calls store) : store.AllDated := by
  refine served.invariant (P := LifecycleStore.AllDated) (fun dated _ ran => ?_) (by
    intro row there
    cases there)
  refine ran.keeps (P := LifecycleStore.AllDated) (fun dated answered => ?_) dated
  obtain ⟨allowed, answered⟩ := System.guarded_handle.mp answered
  exact LifecycleStore.AllDated.handle dated allowed answered

/-! ### A published workflow is archived -/

instance (row : LifecycleRow) : Decidable row.Dated :=
  inferInstanceAs (Decidable (_ ∧ _))

instance (store : LifecycleStore) : Decidable store.AllDated :=
  inferInstanceAs (Decidable (∀ row ∈ store.rows, row.Dated))

/-- One organization without workflows. -/
def soleOrganization : LaunchStore where
  engine := { executions := [], workflows := [], stepResults := [], quotas := [], jobs := [] }
  organizations := [{ id := "org", tenantId := "tenant" }]
  triggers := []

def noWorkflows : LifecycleStore := ⟨soleOrganization, [], [], fun _ => .object []⟩

/-- A line that is published as it is created. -/
def publishedLine : WorkflowCreateInput where
  canvas := lineCanvas
  status := .PUBLISHED

def createLine : LifecycleTask × List LifecycleChoice :=
  (.create "tenant" publishedLine, List.replicate 4 { newId := "flow", date := 1 })

def archiveLine : LifecycleTask × List LifecycleChoice :=
  (.archive "flow" "tenant", List.replicate 2 { date := 3 })

/-- The line goes back to a draft, and then into the archive. -/
def shelved : List (Call ScheduleIface LifecycleTask (Option WorkflowRow)) × LifecycleStore :=
  ((lifecycle.guarded archivesUnpublished).serve (fun _ _ => true) noWorkflows [createLine,
    (.update "flow" "tenant" { status := some .DRAFT }, List.replicate 4 { date := 2 }),
    archiveLine]).get (by decide +kernel)

/-- The workflow of a history that archives a draft has the dates of its status. -/
theorem shelved_allDated :
    (lifecycle.guarded archivesUnpublished).Serves (fun _ _ => True)
      ⟨soleOrganization, [], [], fun _ => .object []⟩ shelved.1 shelved.2 ∧
      shelved.2.rows.map (·.archivedAt) = [some 3] ∧ shelved.2.AllDated := by
  have served : (lifecycle.guarded archivesUnpublished).Serves (fun _ _ => True) noWorkflows
      shelved.1 shelved.2 := .of_serve_get (fun _ _ _ => trivial) _
  exact ⟨served, by decide +kernel,
    allDated_of_archivesUnpublished soleOrganization (fun _ => .object []) _ _ served⟩

/-- The line goes into the archive as it is. -/
def archived : List (Call ScheduleIface LifecycleTask (Option WorkflowRow)) × LifecycleStore :=
  (lifecycle.serve (fun _ _ => true) noWorkflows [createLine, archiveLine]).get (by decide +kernel)

/-- `archiveWorkflow` leaves the date of publication of a published workflow. -/
theorem archived_not_allDated :
    lifecycle.Serves (fun _ _ => True) ⟨soleOrganization, [], [], fun _ => .object []⟩
      archived.1 archived.2 ∧
      (archived.2.rows.map fun row => (row.status, row.publishedAt)) = [(.ARCHIVED, some 1)] ∧
      ¬ archived.2.AllDated := by
  have served : lifecycle.Serves (fun _ _ => True) noWorkflows archived.1 archived.2 :=
    .of_serve_get (fun _ _ _ => trivial) _
  exact ⟨served, by decide +kernel, by decide +kernel⟩

end Workflow.Lifecycle
