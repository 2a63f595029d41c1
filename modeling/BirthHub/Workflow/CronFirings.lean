import BirthHub.Effect.Moves
import BirthHub.Workflow.Schedules

/-!
# What a schedule fires

A firing of a schedule starts an execution of its workflow if that is published. Whether
the workflow is still triggered by `CRON`, and by the expression of the schedule, is not
asked: it holds as long as no edit leaves the workflow published under another trigger or
expression than those of a schedule it was once given.
-/

namespace Workflow.Scheduling

open Data Effect

/-! ## The property -/

/-- The workflow is published, and triggered by `CRON` at the times of the schedule. -/
def WorkflowRow.isFollowing (row : WorkflowRow) (schedule : Schedule) : Bool :=
  decide (row.definition.status = .PUBLISHED) && decide (row.triggerType = .CRON) &&
    decide (row.cronExpression = some schedule.pattern)

def ScheduleStore.isFollowing (store : ScheduleStore) (schedule : Schedule) : Bool :=
  (store.row schedule.payload.workflowId schedule.payload.tenantId).any (·.isFollowing schedule)

/-- No workflow has been given a schedule yet. -/
def unscheduled {β : Type} (launch : LaunchStore) (rows : List WorkflowRow) :
    World ScheduleIface ScheduleTask ScheduleStore β := ⟨⟨launch, rows, [], []⟩, [], []⟩

/-- The newest operation is of thread `i` and has created an execution. -/
def startsExecution (i : Nat) : List (Event ScheduleIface) → Bool
  | ⟨j, .launch (.runner (.createExecution _)), .ok _⟩ :: _ => decide (j = i)
  | _ => false

/-- In runs within `guard` a firing starts an execution only of a workflow that follows the
schedule at that moment. -/
def SchedulesFollowed (guard : Schedules → Act ScheduleChoice ScheduleEvent → Prop)
    (w₀ : Schedules) : Prop :=
  ∀ (w w' : Schedules) (i : Nat) (choice : ScheduleChoice) (schedule : Schedule),
    scheduling.Run guard w₀ w → guard w (.run i choice) →
    scheduling.step w (.run i choice) = some w' →
    (w.threads[i]?).map (·.tag) = some (.firing schedule) → startsExecution i w'.trace →
    w.store.isFollowing schedule = true

/-- The schedule is one of the workflow. -/
def Schedule.isOf (schedule : Schedule) (row : WorkflowRow) : Bool :=
  decide (schedule.payload.workflowId = row.definition.id) &&
    decide (schedule.payload.tenantId = row.definition.tenantId)

/-- A firing of the schedule has found the workflow and is about to start an execution. -/
def isStarting (t : Thread ScheduleTask (Prog ScheduleIface (Option WorkflowRow))) :
    Option Schedule :=
  match t.tag, t.body.pending with
  | .firing schedule, some (.launch (.runner (.createExecution _))) => some schedule
  | _, _ => none

/-- The workflow may become this row: if it is published it follows each schedule it has, and it
follows each schedule of which a firing is about to start an execution of it. -/
def mayBecome (w : Schedules) (row : WorkflowRow) : Bool :=
  (w.store.schedules.all fun schedule => !schedule.isOf row ||
    decide (row.definition.status ≠ .PUBLISHED) || row.isFollowing schedule) &&
  (w.threads.filterMap isStarting).all fun schedule =>
    !schedule.isOf row || row.isFollowing schedule

/-- The row of an archived workflow. -/
def WorkflowRow.archived (row : WorkflowRow) : WorkflowRow :=
  { row with definition := { row.definition with status := .ARCHIVED } }

/-- An edit leaves the workflow following its schedules, and a schedule is given to a workflow
that follows it, or is not published. -/
def tracksSchedules (w : Schedules) : Act ScheduleChoice ScheduleEvent → Bool
  | .env _ => true
  | .run i choice => choice.fault.isSome ||
      match (w.threads[i]?).bind (·.body.pending) with
      | some (.editWorkflow _ id input) => w.store.rows.all fun row =>
          decide (row.definition.id ≠ id) || mayBecome w (input.apply none row)
      | some (.setArchived id tenantId) => w.store.rows.all fun row =>
          !(decide (row.definition.id = id) && decide (row.definition.tenantId = tenantId)) ||
            mayBecome w row.archived
      | some (.addRepeatable schedule) => w.store.rows.all fun row => !schedule.isOf row ||
          decide (row.definition.status ≠ .PUBLISHED) || row.isFollowing schedule
      | _ => true

/-! ## What an operation does -/

section Effects

variable {store store' : ScheduleStore} {choice : ScheduleChoice} {o : ScheduleOp}
  {answer : ScheduleIface.Answer o} {schedule : Schedule} {row : WorkflowRow}
  {id tenantId : String}

theorem createWorkflow_id {cuid : Nat → String} {identity : ScopedIdentity}
    {status : WorkflowStatus} {maxDepth : Int} {canvas : Canvas} {workflow : Definition}
    (created : Workflow.createWorkflow cuid identity id status maxDepth canvas = .ok workflow) :
    workflow.id = id := by
  unfold Workflow.createWorkflow at created
  split at created
  · cases created
  · cases persisted : persistCanvas cuid identity id canvas with
    | error e => simp [persisted, bind, Except.bind] at created
    | ok rows =>
        simp only [persisted, bind, Except.bind, pure, Except.pure, Except.ok.injEq] at created
        rw [← created]

/-- The operations of the trigger queue leave workflows and schedules alone. -/
theorem ScheduleStore.handle_launch {o : LaunchOp} {answer : LaunchIface.Answer o}
    (answered : store.handle (.launch o) choice = some (answer, store')) :
    ∃ launch, store' = { store with launch } := by
  simp only [handle, perform] at answered
  obtain ⟨⟨answer', launch⟩, _, same⟩ := Option.map_eq_some_iff.mp answered
  exact ⟨launch, (Prod.mk.inj same).2.symm⟩

theorem ScheduleStore.handle_cases (answered : store.handle o choice = some (answer, store')) :
    (∃ launch, store' = { store with launch }) ∨
    (∃ row, store.isNewId row.definition.id = true ∧
      store' = { store with rows := store.rows ++ [row] }) ∨
    (∃ identity id input canvas, o = .editWorkflow identity id input ∧ choice.fault = none ∧
      store' = store.setRows (·.definition.id = id) (input.apply canvas)) ∨
    (∃ id tenantId, o = .setArchived id tenantId ∧ choice.fault = none ∧
      store' = store.setRows
        (fun row => row.definition.id = id ∧ row.definition.tenantId = tenantId)
        WorkflowRow.archived) ∨
    ∃ schedule, o = .addRepeatable schedule ∧ choice.fault = none ∧
      store' = store.addRepeatable schedule := by
  cases fault : choice.fault with
  | some e =>
      cases o with
      | launch o => exact .inl (handle_launch answered)
      | _ =>
          simp only [handle, fault, Option.some.injEq, Prod.mk.injEq] at answered
          exact .inl ⟨store.launch, answered.2.symm⟩
  | none =>
      cases o with
      | launch o => exact .inl (handle_launch answered)
      | assertWorkflowLimit identity =>
          simp only [handle, fault, perform, Option.some.injEq, Prod.mk.injEq] at answered
          exact .inl ⟨store.launch, answered.2.symm⟩
      | getWorkflowById id tenantId =>
          simp only [handle, fault, perform, Option.some.injEq, Prod.mk.injEq] at answered
          exact .inl ⟨store.launch, answered.2.symm⟩
      | insertWorkflow identity input =>
          simp only [handle, fault, perform] at answered
          split at answered
          · rename_i new
            split at answered
            · simp only [Option.some.injEq, Prod.mk.injEq] at answered
              exact .inl ⟨store.launch, answered.2.symm⟩
            · rename_i definition created
              simp only [Option.some.injEq, Prod.mk.injEq] at answered
              exact .inr (.inl ⟨_, by rw [createWorkflow_id created]; exact new,
                answered.2.symm⟩)
          · cases answered
      | editWorkflow identity id input =>
          simp only [handle, fault, perform] at answered
          split at answered
          · simp only [Option.some.injEq, Prod.mk.injEq] at answered
            exact .inl ⟨store.launch, answered.2.symm⟩
          · split at answered <;> simp only [Option.some.injEq, Prod.mk.injEq] at answered
            · exact .inl ⟨store.launch, answered.2.symm⟩
            · exact .inr (.inr (.inl ⟨identity, id, input, _, rfl, rfl, answered.2.symm⟩))
            · exact .inr (.inr (.inl ⟨identity, id, input, _, rfl, rfl, answered.2.symm⟩))
      | setArchived id tenantId =>
          simp only [handle, fault, perform, Option.some.injEq, Prod.mk.injEq] at answered
          exact .inr (.inr (.inr (.inl ⟨id, tenantId, rfl, rfl, answered.2.symm⟩)))
      | addRepeatable schedule =>
          simp only [handle, fault, perform, Option.some.injEq, Prod.mk.injEq] at answered
          exact .inr (.inr (.inr (.inr ⟨schedule, rfl, rfl, answered.2.symm⟩)))

/-- The row of a workflow after an edit of some rows that keeps their ids. -/
theorem ScheduleStore.row_setRows {pick : WorkflowRow → Bool} {f : WorkflowRow → WorkflowRow}
    (keeps : ∀ row, (f row).definition.id = row.definition.id ∧
      (f row).definition.tenantId = row.definition.tenantId) :
    (store.setRows pick f).row id tenantId =
      (store.row id tenantId).map fun row => if pick row then f row else row := by
  simp only [ScheduleStore.row, setRows, List.find?_map]
  congr 2
  funext row
  simp only [Function.comp]
  split
  · rw [(keeps row).1, (keeps row).2]
  · rfl

theorem ScheduleStore.row_mem (found : store.row id tenantId = some row) :
    row ∈ store.rows ∧ row.definition.id = id ∧ row.definition.tenantId = tenantId := by
  have holds := List.find?_some found
  simp only [decide_eq_true_eq] at holds
  exact ⟨List.mem_of_find?_eq_some found, holds⟩

theorem ScheduleStore.row_append {row' : WorkflowRow}
    (other : row'.definition.id ≠ id) :
    ({ store with rows := store.rows ++ [row'] } : ScheduleStore).row id tenantId =
      store.row id tenantId := by
  simp [ScheduleStore.row, List.find?_append, other]

theorem ScheduleStore.handle_find {workflow : Definition}
    (answered : store.handle (.launch (.runner (.findPublishedWorkflow id tenantId))) choice =
      some (.ok (some workflow), store')) :
    ∃ row, store.row id tenantId = some row ∧ row.definition.status = .PUBLISHED := by
  simp only [handle, perform, LaunchStore.handle, LaunchStore.admits, if_true,
    LaunchStore.perform, Option.map_some, Option.some.injEq] at answered
  have read := (Prod.mk.inj answered).1
  cases fault : choice.fault with
  | some e => simp [Store.handle, fault] at read
  | none =>
      simp only [Store.handle, fault, Store.perform, Store.workflow, seen, List.find?_map] at read
      have found := Except.ok.inj read
      obtain ⟨kept, published⟩ := Option.filter_eq_some_iff.mp found
      obtain ⟨row, there, rfl⟩ := Option.map_eq_some_iff.mp kept
      refine ⟨row, there, ?_⟩
      simpa using published

end Effects

/-! ## The stages of a firing -/

inductive Stage
  /-- A firing before it has looked for its workflow. -/
  | start
  /-- A firing that has found its workflow published. -/
  | found
  /-- A firing past that, or a call. -/
  | free

def Stage.initial : ScheduleTask → Stage
  | .firing _ => .start
  | _ => .free

inductive Stage.Move : ScheduleTask → Stage → (o : ScheduleOp) → ScheduleIface.Answer o → Stage → Prop
  | find {schedule : Schedule} {workflow : Definition} :
      Move (.firing schedule) .start (.launch (.runner (.findPublishedWorkflow
        schedule.payload.workflowId schedule.payload.tenantId))) (.ok (some workflow)) .found
  | lose {schedule : Schedule} {o : RunnerOp} {answer : RunnerIface.Answer o}
      (other : ∀ payload, o ≠ .createExecution payload) :
      Move (.firing schedule) .start (.launch (.runner o)) answer .free
  | create {schedule : Schedule} {payload : WorkflowTriggerJobPayload}
      {answer : RunnerIface.Answer (.createExecution payload)} :
      Move (.firing schedule) .found (.launch (.runner (.createExecution payload))) answer .free
  | later {schedule : Schedule} {o : RunnerOp} {answer : RunnerIface.Answer o}
      (other : ∀ payload, o ≠ .createExecution payload) :
      Move (.firing schedule) .free (.launch (.runner o)) answer .free
  | call {task : ScheduleTask} {o : ScheduleOp} {answer : ScheduleIface.Answer o}
      (unfired : ∀ schedule, task ≠ .firing schedule) : Move task .free o answer .free

theorem follows_call {α : Type} {task : ScheduleTask} (unfired : ∀ schedule, task ≠ .firing schedule)
    (program : Prog ScheduleIface α) :
    program.Follows (Stage.Move task) (fun _ _ => True) .free := by
  induction program with
  | pure a => trivial
  | throw e => trivial
  | op o k ih => exact fun answer => ⟨.free, .call unfired, ih answer⟩

/-- The moves of a trigger job, in the worker's own operations. -/
inductive TriggerMove (payload : WorkflowTriggerJobPayload) :
    Stage → (o : RunnerOp) → RunnerIface.Answer o → Stage → Prop
  | find {workflow : Definition} : TriggerMove payload .start
      (.findPublishedWorkflow payload.workflowId payload.tenantId) (.ok (some workflow)) .found
  | lose {o : RunnerOp} {answer : RunnerIface.Answer o}
      (other : ∀ payload, o ≠ .createExecution payload) : TriggerMove payload .start o answer .free
  | create {payload' : WorkflowTriggerJobPayload}
      {answer : RunnerIface.Answer (.createExecution payload')} :
      TriggerMove payload .found (.createExecution payload') answer .free
  | later {o : RunnerOp} {answer : RunnerIface.Answer o}
      (other : ∀ payload, o ≠ .createExecution payload) : TriggerMove payload .free o answer .free

theorem processTriggerJob_follows (payload : WorkflowTriggerJobPayload) :
    (processTriggerJob payload).Follows (TriggerMove payload) (fun _ _ => True) .start := by
  have later : ∀ {o : RunnerOp}, (∀ payload, o ≠ .createExecution payload) →
      (await o).Follows (TriggerMove payload) (fun _ _ => True) .free := fun other =>
    Prog.Follows.perform (I := RunnerIface) fun _ => ⟨.free, .later other, trivial⟩
  refine Prog.Follows.performBind (I := RunnerIface) (fun workflow => ?_)
    fun e => ⟨.free, .lose (by simp), trivial⟩
  cases workflow with
  | none => exact ⟨.free, .lose (by simp), trivial⟩
  | some workflow =>
      refine ⟨.found, .find, Prog.Follows.performBind (I := RunnerIface)
        (fun execution => ⟨.free, .create, ?_⟩) fun e => ⟨.free, .create, trivial⟩⟩
      cases triggerStep workflow with
      | none =>
          exact Prog.Follows.performBind (I := RunnerIface)
            (fun _ => ⟨.free, .later (by simp), later (by simp)⟩)
            fun e => ⟨.free, .later (by simp), trivial⟩
      | some step => exact later (by simp)

theorem scheduleProgram_follows (task : ScheduleTask) :
    (scheduleProgram task).Follows (Stage.Move task) (fun _ _ => True) (Stage.initial task) := by
  cases task with
  | create tenantReference input => exact follows_call (by simp) _
  | update workflowId tenantReference input => exact follows_call (by simp) _
  | archive workflowId tenantReference => exact follows_call (by simp) _
  | firing schedule =>
      refine Prog.Follows.bind (Prog.Follows.mono (Q := fun _ _ => True) (fun x _ _ => ?_) ?_)
      · cases x <;> trivial
      · have launched : ((processTriggerJob schedule.payload).embed asLaunch).Follows
            (fun s o answer s' => Stage.Move (.firing schedule) s (.launch o) answer s')
            (fun _ _ => True) .start := by
          refine Prog.Follows.embed (e := asLaunch) (Q := fun _ _ => True)
            (fun s o answer s' move => ?_) (fun _ _ _ => trivial) (fun _ _ _ => trivial)
            (processTriggerJob_follows schedule.payload)
          cases move with
          | find => exact .find
          | lose other => exact .lose other
          | create => exact .create
          | later other => exact .later other
        exact Prog.Follows.embed (e := asSchedule) (Q := fun _ _ => True)
          (fun _ _ _ _ move => move) (fun _ _ _ => trivial) (fun _ _ _ => trivial) launched

def scheduleStages : Discipline ScheduleIface ScheduleTask (Option WorkflowRow) :=
  movesDiscipline scheduling Stage.initial Stage.Move fun _ _ _ => True

theorem scheduleStages_starts (task : ScheduleTask) :
    (scheduling.program task).Follows (scheduleStages.step task) (scheduleStages.ends task)
      (scheduleStages.start task) :=
  @Prog.Follows.marked ScheduleIface ScheduleTask (Option WorkflowRow) Stage Stage.Move
    (fun _ _ _ => True) task _ _ (scheduleProgram_follows task)

theorem Stage.Move.creates {schedule : Schedule} {s s' : Stage}
    {payload : WorkflowTriggerJobPayload}
    {answer : ScheduleIface.Answer (.launch (.runner (.createExecution payload)))}
    (move : Move (.firing schedule) s (.launch (.runner (.createExecution payload))) answer s') :
    s = .found := by
  cases move with
  | lose other => exact (other payload rfl).elim
  | create => rfl
  | later other => exact (other payload rfl).elim
  | call unfired => exact (unfired schedule rfl).elim

/-- What a firing finds is stored and published. -/
theorem Stage.Move.finds {schedule : Schedule} {s s' : Stage} {o : ScheduleOp}
    {answer : ScheduleIface.Answer o} {store store' : ScheduleStore} {choice : ScheduleChoice}
    (move : Move (.firing schedule) s o answer s') (found : s' = .found)
    (answered : store.handle o choice = some (answer, store')) :
    (∃ row, store.row schedule.payload.workflowId schedule.payload.tenantId = some row ∧
      row.definition.status = .PUBLISHED) ∧ ∃ launch, store' = { store with launch } := by
  cases move with
  | find => exact ⟨ScheduleStore.handle_find answered, ScheduleStore.handle_launch answered⟩
  | _ => cases found

/-! ## The invariant -/

abbrev StagedSchedules : Type := World ScheduleIface ScheduleTask ScheduleStore (Marked Stage)

/-- Whatever schedule a published workflow was given, it follows; and so does the workflow that a
firing has found. -/
structure Aligned (a : StagedSchedules) : Prop where
  follows : ∀ {schedule row}, schedule ∈ a.store.schedules → row ∈ a.store.rows →
    schedule.isOf row = true → row.definition.status = .PUBLISHED →
    row.isFollowing schedule = true
  fired : ∀ {schedule}, schedule ∈ a.store.firings → schedule ∈ a.store.schedules
  delivered : ∀ {i : Nat} {u : Thread ScheduleTask (Marked Stage)} {schedule},
    a.threads[i]? = some u → u.tag = .firing schedule → schedule ∈ a.store.schedules
  found : ∀ {i : Nat} {u : Thread ScheduleTask (Marked Stage)} {schedule},
    a.threads[i]? = some u → u.tag = .firing schedule → u.body.outcome = .running →
    u.body.stage = .found → a.store.isFollowing schedule = true

theorem Aligned.fresh {launch : LaunchStore} {rows : List WorkflowRow} :
    Aligned (unscheduled launch rows) where
  follows inside := nomatch inside
  fired inside := nomatch inside
  delivered there := nomatch there
  found there := nomatch there

/-! ## What the condition allows -/

section Allowed

variable {w : Schedules} {row : WorkflowRow} {schedule : Schedule}

theorem mayBecome_follows (may : mayBecome w row = true) (inside : schedule ∈ w.store.schedules)
    (isOf : schedule.isOf row = true) (published : row.definition.status = .PUBLISHED) :
    row.isFollowing schedule = true := by
  rw [mayBecome, Bool.and_eq_true] at may
  have one := List.all_eq_true.mp may.1 schedule inside
  simpa [isOf, published] using one

theorem mayBecome_starting {t : Thread ScheduleTask (Prog ScheduleIface (Option WorkflowRow))}
    (may : mayBecome w row = true) (inside : t ∈ w.threads) (starting : isStarting t = some schedule)
    (isOf : schedule.isOf row = true) : row.isFollowing schedule = true := by
  rw [mayBecome, Bool.and_eq_true] at may
  have one := List.all_eq_true.mp may.2 schedule (List.mem_filterMap.mpr ⟨t, inside, starting⟩)
  simpa [isOf] using one

/-- An edit of some workflows that keeps their ids. -/
structure IsEdit (w : Schedules) (pick : WorkflowRow → Bool) (f : WorkflowRow → WorkflowRow) :
    Prop where
  keeps : ∀ row, (f row).definition.id = row.definition.id ∧
    (f row).definition.tenantId = row.definition.tenantId
  may : ∀ row ∈ w.store.rows, pick row = true → mayBecome w (f row) = true

/-- Everything an allowed operation can do to workflows and schedules. -/
theorem allowed_cases {i : Nat} {choice : ScheduleChoice} {o : ScheduleOp}
    {t : Thread ScheduleTask (Prog ScheduleIface (Option WorkflowRow))}
    {k : ScheduleIface.Answer o → Prog ScheduleIface (Option WorkflowRow)}
    {answer : ScheduleIface.Answer o} {store' : ScheduleStore}
    (allowed : tracksSchedules w (.run i choice) = true) (found : w.threads[i]? = some t)
    (pending : t.body = .op o k) (answered : w.store.handle o choice = some (answer, store')) :
    (∃ launch, store' = { w.store with launch }) ∨
    (∃ row, w.store.isNewId row.definition.id = true ∧
      store' = { w.store with rows := w.store.rows ++ [row] }) ∨
    (∃ pick f, IsEdit w pick f ∧ store' = w.store.setRows pick f) ∨
    ∃ schedule, (∀ row ∈ w.store.rows, schedule.isOf row = true →
        row.definition.status = .PUBLISHED → row.isFollowing schedule = true) ∧
      store' = w.store.addRepeatable schedule := by
  have awaits : (w.threads[i]?).bind (·.body.pending) = some o := by
    rw [found, Option.bind_some, pending, Prog.pending_op]
  rcases ScheduleStore.handle_cases answered with unchanged | inserted |
    ⟨identity, id, input, canvas, rfl, fault, rfl⟩ | ⟨id, tenantId, rfl, fault, rfl⟩ |
    ⟨schedule, rfl, fault, rfl⟩
  · exact .inl unchanged
  · exact .inr (.inl inserted)
  · refine .inr (.inr (.inl ⟨_, input.apply canvas,
      ⟨fun row => ⟨rfl, rfl⟩, fun row inside picked => ?_⟩, rfl⟩))
    simp only [tracksSchedules, fault, awaits, Option.isSome_none, Bool.false_or] at allowed
    have one := List.all_eq_true.mp allowed row inside
    simp only [of_decide_eq_true picked, ne_eq, not_true_eq_false, decide_false,
      Bool.false_or] at one
    exact one
  · refine .inr (.inr (.inl ⟨_, WorkflowRow.archived,
      ⟨fun row => ⟨rfl, rfl⟩, fun row inside picked => ?_⟩, rfl⟩))
    simp only [tracksSchedules, fault, awaits, Option.isSome_none, Bool.false_or] at allowed
    have one := List.all_eq_true.mp allowed row inside
    simpa [of_decide_eq_true picked] using one
  · refine .inr (.inr (.inr ⟨schedule, fun row inside isOf published => ?_, rfl⟩))
    simp only [tracksSchedules, fault, awaits, Option.isSome_none, Bool.false_or] at allowed
    have one := List.all_eq_true.mp allowed row inside
    simpa [isOf, published] using one

end Allowed

/-! ## What a step keeps -/

section Steps

variable {w : Schedules} {a : StagedSchedules} {i : Nat} {choice : ScheduleChoice} {o : ScheduleOp}
  {t : Thread ScheduleTask (Prog ScheduleIface (Option WorkflowRow))}
  {k : ScheduleIface.Answer o → Prog ScheduleIface (Option WorkflowRow)}
  {answer : ScheduleIface.Answer o} {store' : ScheduleStore} {schedule : Schedule}
  {row : WorkflowRow}

/-- A schedule is of the row that is found by its payload. -/
theorem Schedule.isOf_of_row {store : ScheduleStore}
    (found : store.row schedule.payload.workflowId schedule.payload.tenantId = some row) :
    row ∈ store.rows ∧ schedule.isOf row = true := by
  obtain ⟨inside, sameId, sameTenant⟩ := ScheduleStore.row_mem found
  exact ⟨inside, by simp [isOf, sameId, sameTenant]⟩

/-- A schedule stays. -/
theorem ScheduleStore.schedules_kept {store : ScheduleStore}
    (answered : store.handle o choice = some (answer, store')) (inside : schedule ∈ store.schedules) :
    schedule ∈ store'.schedules := by
  rcases ScheduleStore.handle_cases answered with ⟨_, rfl⟩ | ⟨_, _, rfl⟩ |
    ⟨_, _, _, _, _, _, rfl⟩ | ⟨_, _, _, _, rfl⟩ | ⟨added, _, _, rfl⟩
  · exact inside
  · exact inside
  · exact inside
  · exact inside
  · rw [addRepeatable]
    split
    · exact inside
    · exact List.mem_append_left _ inside

/-- Only the clock puts a job into the trigger queue. -/
theorem ScheduleStore.firings_kept {store : ScheduleStore}
    (answered : store.handle o choice = some (answer, store')) :
    store'.firings = store.firings := by
  rcases ScheduleStore.handle_cases answered with ⟨_, rfl⟩ | ⟨_, _, rfl⟩ |
    ⟨_, _, _, _, _, _, rfl⟩ | ⟨_, _, _, _, rfl⟩ | ⟨added, _, _, rfl⟩
  · rfl
  · rfl
  · rfl
  · rfl
  · rw [addRepeatable]
    split <;> rfl

/-- An allowed operation leaves the published workflows following their schedules. -/
theorem follows_step (follows : ∀ {schedule row}, schedule ∈ w.store.schedules →
      row ∈ w.store.rows → schedule.isOf row = true → row.definition.status = .PUBLISHED →
      row.isFollowing schedule = true)
    (allowed : tracksSchedules w (.run i choice) = true) (found : w.threads[i]? = some t)
    (pending : t.body = .op o k) (answered : w.store.handle o choice = some (answer, store'))
    (scheduled : schedule ∈ store'.schedules) (inside : row ∈ store'.rows)
    (isOf : schedule.isOf row = true) (published : row.definition.status = .PUBLISHED) :
    row.isFollowing schedule = true := by
  rcases allowed_cases allowed found pending answered with ⟨_, rfl⟩ | ⟨created, new, rfl⟩ |
    ⟨pick, f, edit, rfl⟩ | ⟨added, compatible, rfl⟩
  · exact follows scheduled inside isOf published
  · rcases List.mem_append.mp inside with before | last
    · exact follows scheduled before isOf published
    · -- no schedule has the id of a new workflow
      cases List.mem_singleton.mp last
      rw [ScheduleStore.isNewId, Bool.and_eq_true] at new
      have other := List.all_eq_true.mp new.2 schedule scheduled
      rw [Schedule.isOf, Bool.and_eq_true] at isOf
      exact ((of_decide_eq_true other) (of_decide_eq_true isOf.1)).elim
  · obtain ⟨before, there, same⟩ := List.mem_map.mp inside
    split at same
    · rename_i picked
      rw [← same] at isOf published ⊢
      exact mayBecome_follows (edit.may before there picked) scheduled isOf published
    · rw [← same] at isOf published ⊢
      exact follows scheduled there isOf published
  · rw [ScheduleStore.addRepeatable] at scheduled inside
    split at scheduled
    · rename_i known
      rw [if_pos known] at inside
      exact follows scheduled inside isOf published
    · rename_i new
      rw [if_neg new] at inside
      rcases List.mem_append.mp scheduled with before | last
      · exact follows before inside isOf published
      · cases List.mem_singleton.mp last
        exact compatible row inside isOf published

/-- An allowed operation leaves a workflow following a schedule of which a firing is about to
start an execution. -/
theorem isFollowing_step (following : w.store.isFollowing schedule = true)
    (scheduled : schedule ∈ w.store.schedules)
    {t' : Thread ScheduleTask (Prog ScheduleIface (Option WorkflowRow))} (other : t' ∈ w.threads)
    (starting : isStarting t' = some schedule)
    (allowed : tracksSchedules w (.run i choice) = true) (found : w.threads[i]? = some t)
    (pending : t.body = .op o k) (answered : w.store.handle o choice = some (answer, store')) :
    store'.isFollowing schedule = true := by
  rw [ScheduleStore.isFollowing, Option.any_eq_true] at following ⊢
  obtain ⟨row, read, follows⟩ := following
  rcases allowed_cases allowed found pending answered with ⟨_, rfl⟩ | ⟨created, new, rfl⟩ |
    ⟨pick, f, edit, rfl⟩ | ⟨added, compatible, rfl⟩
  · exact ⟨row, read, follows⟩
  · refine ⟨row, ?_, follows⟩
    rw [ScheduleStore.isNewId, Bool.and_eq_true] at new
    have unlike := of_decide_eq_true (List.all_eq_true.mp new.2 schedule scheduled)
    rw [ScheduleStore.row_append fun same => unlike same.symm, read]
  · refine ⟨if pick row then f row else row, ?_, ?_⟩
    · rw [ScheduleStore.row_setRows edit.keeps, read, Option.map_some]
    · obtain ⟨inside, isOf⟩ := Schedule.isOf_of_row read
      split
      · rename_i picked
        refine mayBecome_starting (edit.may row inside picked) other starting ?_
        rw [Schedule.isOf, (edit.keeps row).1, (edit.keeps row).2]
        exact isOf
      · exact follows
  · refine ⟨row, ?_, follows⟩
    rw [ScheduleStore.addRepeatable]
    split
    · exact read
    · exact read

/-- A firing at stage `found` awaits the creation of an execution. -/
theorem isStarting_of_found (refines : scheduleStages.Refines w a)
    {u : Thread ScheduleTask (Marked Stage)} (there : a.threads[i]? = some u)
    (fires : u.tag = .firing schedule) (running : u.body.outcome = .running)
    (at_found : u.body.stage = .found) :
    ∃ t ∈ w.threads, isStarting t = some schedule := by
  obtain ⟨t, found, sameTag, _, follows⟩ := refines.thread_of_stage there
  refine ⟨t, List.mem_of_getElem? found, ?_⟩
  rw [← sameTag, fires] at follows
  cases body : t.body with
  | pure x =>
      rw [body] at follows
      have ended : u.body.outcome = .returned := follows.1
      rw [running] at ended
      cases ended
  | throw e =>
      rw [body] at follows
      have ended : u.body.outcome = .threw := follows.1
      rw [running] at ended
      cases ended
  | op o k =>
      rw [body] at follows
      obtain ⟨s', ⟨_, move⟩, _⟩ := follows (.error default)
      rw [at_found] at move
      generalize s'.stage = f' at move
      generalize (Except.error default : ScheduleIface.Answer o) = answer at move
      cases move with
      | create => simp [isStarting, ← sameTag, fires, body]

theorem Aligned.run {u : Thread ScheduleTask (Marked Stage)} {s' : Marked Stage} (inv : Aligned a)
    (refines : scheduleStages.Refines w a) (allowed : tracksSchedules w (.run i choice) = true)
    (found : w.threads[i]? = some t) (pending : t.body = .op o k) (there : a.threads[i]? = some u)
    (answered : a.store.handle o choice = some (answer, store'))
    (step : scheduleStages.step u.tag u.body o answer s') :
    Aligned (a.advance i s' store' ⟨i, o, answer⟩) := by
  obtain ⟨_, move⟩ := step
  have answered' : w.store.handle o choice = some (answer, store') := refines.store ▸ answered
  constructor
  case follows =>
    intro schedule row scheduled inside isOf published
    exact follows_step (fun one two => inv.follows (refines.store ▸ one) (refines.store ▸ two))
      allowed found pending answered' scheduled inside isOf published
  case fired =>
    intro schedule inside
    have before : schedule ∈ a.store.firings := ScheduleStore.firings_kept answered ▸ inside
    exact ScheduleStore.schedules_kept answered (inv.fired before)
  case delivered =>
    intro j v schedule there' fires
    obtain ⟨before, earlier, sameTag, _⟩ := World.advance_kept there'
    exact ScheduleStore.schedules_kept answered (inv.delivered earlier (sameTag ▸ fires))
  case found =>
    intro j v schedule there' fires running at_found
    rcases World.advance_cases there there' with ⟨rfl, rfl⟩ | ⟨other, before⟩
    · have fires : u.tag = .firing schedule := fires
      rw [fires] at move
      obtain ⟨⟨row, read, published⟩, launch, unchanged⟩ := move.finds at_found answered
      obtain ⟨inside, isOf⟩ := Schedule.isOf_of_row read
      refine (Option.any_eq_true _ _).mpr ⟨row, ?_,
        inv.follows (inv.delivered there fires) inside isOf published⟩
      rw [World.advance_store, unchanged]
      exact read
    · obtain ⟨t', inside, starting⟩ := isStarting_of_found refines before fires running at_found
      exact isFollowing_step (refines.store ▸ inv.found before fires running at_found)
        (refines.store ▸ inv.delivered before fires) inside starting allowed found pending answered'

/-- What the environment does: workflows and schedules stay, a schedule is fired, and a job of the
queue is handed out. -/
theorem scheduleOutside_spec {store : ScheduleStore} {event : ScheduleEvent}
    {threads : List (Thread ScheduleTask Outcome)} {c : Change ScheduleTask ScheduleStore}
    (changed : scheduleOutside event store threads = some c) :
    c.store.schedules = store.schedules ∧ c.store.rows = store.rows ∧
      (∀ schedule ∈ c.store.firings, schedule ∈ store.firings ∨ schedule ∈ store.schedules) ∧
      ∀ schedule, .firing schedule ∈ c.spawn → schedule ∈ store.firings := by
  cases event with
  | create tenantReference input =>
      cases changed
      exact ⟨rfl, rfl, fun _ inside => .inl inside, by simp⟩
  | update workflowId tenantReference input =>
      cases changed
      exact ⟨rfl, rfl, fun _ inside => .inl inside, by simp⟩
  | archive workflowId tenantReference =>
      cases changed
      exact ⟨rfl, rfl, fun _ inside => .inl inside, by simp⟩
  | fire n =>
      obtain ⟨schedule, due, rfl⟩ := Option.map_eq_some_iff.mp changed
      refine ⟨rfl, rfl, fun fired inside => ?_, by simp⟩
      rcases List.mem_append.mp inside with before | last
      · exact .inl before
      · cases List.mem_singleton.mp last
        exact .inr (List.mem_of_getElem? due)
  | deliver n =>
      obtain ⟨schedule, queued, rfl⟩ := Option.map_eq_some_iff.mp changed
      refine ⟨rfl, rfl, fun _ inside => .inl inside, fun fired inside => ?_⟩
      cases List.mem_singleton.mp inside
      exact List.mem_of_getElem? queued

theorem Aligned.env {start : ScheduleTask → Marked Stage} {event : ScheduleEvent}
    {threads : List (Thread ScheduleTask Outcome)} {c : Change ScheduleTask ScheduleStore}
    (starts : ∀ schedule, (start (.firing schedule)).stage = .start) (inv : Aligned a)
    (changed : scheduling.env event a.store threads = some c) : Aligned (a.change start c) := by
  obtain ⟨schedules, rows, fired, spawned⟩ :=
    @scheduleOutside_spec a.store event threads c changed
  constructor
  case follows =>
    intro schedule row scheduled inside
    rw [World.change_store, schedules] at scheduled
    rw [World.change_store, rows] at inside
    exact inv.follows scheduled inside
  case fired =>
    intro schedule inside
    rw [World.change_store] at inside ⊢
    rw [schedules]
    rcases fired schedule inside with before | now
    · exact inv.fired before
    · exact now
  case delivered =>
    intro j v schedule there fires
    rw [World.change_store, schedules]
    rcases World.change_cases there with ⟨u, before, rfl⟩ | ⟨tag, _, inside, rfl⟩
    · exact inv.delivered before fires
    · exact inv.fired (spawned schedule (fires ▸ List.mem_of_getElem? inside))
  case found =>
    intro j v schedule there fires running at_found
    rcases World.change_cases there with ⟨u, before, rfl⟩ | ⟨tag, _, inside, rfl⟩
    · rw [World.change_store, ScheduleStore.isFollowing, ScheduleStore.row, rows]
      exact inv.found before fires running at_found
    · have fires : tag = .firing schedule := fires
      rw [fires] at at_found
      cases (starts schedule).symm.trans at_found

end Steps

/-! ## Runs -/

theorem startsExecution_cons {i : Nat} {o : ScheduleOp} {answer : ScheduleIface.Answer o}
    {trace : List (Event ScheduleIface)} (creates : startsExecution i (⟨i, o, answer⟩ :: trace) = true) :
    ∃ payload, o = .launch (.runner (.createExecution payload)) := by
  unfold startsExecution at creates
  split at creates
  · rename_i payload execution rest newest
    cases newest
    exact ⟨payload, rfl⟩
  · cases creates

theorem refines_unscheduled {launch : LaunchStore} {rows : List WorkflowRow} :
    scheduleStages.Refines (unscheduled launch rows) (unscheduled launch rows) where
  store := rfl
  trace := rfl
  length := rfl
  follows found := nomatch found

/-- In runs in which edits track the schedules, what a firing starts follows its schedule. -/
theorem schedulesFollowed_of_tracksSchedules (launch : LaunchStore) (rows : List WorkflowRow) :
    SchedulesFollowed (fun w act => tracksSchedules w act = true) (unscheduled launch rows) := by
  intro w w' i choice schedule reached _ taken fires creates
  obtain ⟨a, refines, inv⟩ : ∃ a, scheduleStages.Refines w a ∧ Aligned a :=
    System.Run.invariant scheduleStages_starts
      (fun inv refines allowed found pending there answered step =>
        inv.run refines allowed found pending there answered step)
      (fun inv _ _ changed => inv.env (fun _ => rfl) changed) refines_unscheduled
      Aligned.fresh reached
  obtain ⟨t, o, k, answer, store', found, pending, answered, rfl⟩ := System.step_run taken
  obtain ⟨u, there, sameTag, _, follows⟩ := refines.stage_of_thread found
  obtain ⟨payload, rfl⟩ := startsExecution_cons creates
  rw [pending] at follows
  obtain ⟨s', ⟨running, move⟩, _⟩ := follows answer
  have fires : t.tag = .firing schedule := by
    rw [found] at fires
    exact Option.some.inj fires
  rw [fires] at move
  rw [← refines.store]
  exact inv.found there (sameTag.trans fires) running (Stage.Move.creates move)

/-! ### A workflow that leaves its schedule -/

/-- One organization without workflows. -/
def emptyLaunch : LaunchStore where
  engine := { executions := [], workflows := [], stepResults := [], quotas := [], jobs := [] }
  organizations := [{ id := "org", tenantId := "tenant" }]
  triggers := []

/-- The line, started on the hour. -/
def hourly : WorkflowCreateInput where
  canvas := lineCanvas
  cronExpression := some "0 * * * *"
  status := .PUBLISHED
  triggerType := .CRON

/-- The next operations of thread `i`; what is created has this id. -/
def performs (i operations : Nat) (newId : String) : List (Act ScheduleChoice ScheduleEvent) :=
  List.replicate operations (.run i { newId })

/-- The hourly workflow is created, and its schedule comes due. -/
def createdAndDue : List (Act ScheduleChoice ScheduleEvent) :=
  [.env (.create "tenant" hourly)] ++ performs 0 5 "flow" ++ [.env (.fire 0)]

/-- Thread `i` goes on to start an execution by a firing, and `holds` of the schedule now. -/
def startsBy (guard : Schedules → Act ScheduleChoice ScheduleEvent → Bool) (i : Nat)
    (holds : Schedule → Schedules → Bool) (w : Schedules) : Bool :=
  guard w (.run i { newId := "x" }) &&
    (scheduling.step w (.run i { newId := "x" })).any fun w' =>
      startsExecution i w'.trace &&
        match (w.threads[i]?).map (·.tag) with
        | some (ScheduleTask.firing schedule) => holds schedule w
        | _ => false

theorem startsBy_eq_true {guard : Schedules → Act ScheduleChoice ScheduleEvent → Bool} {i : Nat}
    {holds : Schedule → Schedules → Bool} {w : Schedules} (starts : startsBy guard i holds w = true) :
    ∃ w' schedule, guard w (.run i { newId := "x" }) = true ∧
      scheduling.step w (.run i { newId := "x" }) = some w' ∧
      (w.threads[i]?).map (·.tag) = some (.firing schedule) ∧
      startsExecution i w'.trace = true ∧ holds schedule w = true := by
  rw [startsBy, Bool.and_eq_true, Option.any_eq_true] at starts
  obtain ⟨allowed, w', taken, both⟩ := starts
  rw [Bool.and_eq_true] at both
  obtain ⟨started, tagged⟩ := both
  split at tagged
  · rename_i schedule tag
    exact ⟨w', schedule, allowed, taken, tag, started, tagged⟩
  · cases tagged

/-- The schedule of a workflow starts an execution of it, and the workflow follows it. -/
theorem hourly_schedulesFollowed :
    ∃ (w w' : Schedules) (schedule : Schedule),
      scheduling.Run (fun w act => tracksSchedules w act = true) (unscheduled emptyLaunch []) w ∧
      scheduling.step w (.run 1 { newId := "x" }) = some w' ∧
      (w.threads[1]?).map (·.tag) = some (.firing schedule) ∧ startsExecution 1 w'.trace = true ∧
      w.store.isFollowing schedule = true := by
  have evaluated : (scheduling.execute tracksSchedules (unscheduled emptyLaunch [])
      (createdAndDue ++ [.env (.deliver 0)] ++ performs 1 1 "")).any
        (startsBy tracksSchedules 1 fun _ _ => true) = true := by decide
  obtain ⟨w, reached, starts⟩ := System.Run.exists_of_execute (fun _ _ allowed => allowed) evaluated
  obtain ⟨w', schedule, allowed, taken, fires, creates, _⟩ := startsBy_eq_true starts
  exact ⟨w, w', schedule, reached, taken, fires, creates,
    schedulesFollowed_of_tracksSchedules emptyLaunch [] w w' 1 _ schedule reached allowed taken
      fires creates⟩

/-- The workflow is then triggered by hand, and stays published. -/
def manualUpdate : WorkflowUpdateInput where
  triggerType := some .MANUAL

/-- The schedule comes due after the workflow was switched to another trigger. -/
def switched : List (Act ScheduleChoice ScheduleEvent) :=
  [.env (.create "tenant" hourly)] ++ performs 0 5 "flow" ++
    [.env (.update "flow" "tenant" manualUpdate)] ++ performs 1 4 "" ++
    [.env (.fire 0), .env (.deliver 0)] ++ performs 2 1 ""

/-- Nothing removes the schedule of a workflow that is no longer triggered by `CRON`. -/
theorem switched_not_schedulesFollowed :
    ¬ SchedulesFollowed (fun _ _ => True) (unscheduled emptyLaunch []) ∧
      ∃ (w w' : Schedules) (schedule : Schedule) (row : WorkflowRow),
        scheduling.Run (fun _ _ => True) (unscheduled emptyLaunch []) w ∧
        scheduling.step w (.run 2 { newId := "x" }) = some w' ∧
        (w.threads[2]?).map (·.tag) = some (.firing schedule) ∧
        startsExecution 2 w'.trace = true ∧
        w.store.row schedule.payload.workflowId schedule.payload.tenantId = some row ∧
        row.triggerType = .MANUAL := by
  have evaluated : (scheduling.execute (fun _ _ => true) (unscheduled emptyLaunch [])
      switched).any (startsBy (fun _ _ => true) 2 fun schedule w =>
        !w.store.isFollowing schedule &&
          (w.store.row schedule.payload.workflowId schedule.payload.tenantId).any
            fun row => decide (row.triggerType = .MANUAL)) = true := by decide
  obtain ⟨w, reached, starts⟩ := System.Run.exists_of_execute (fun _ _ _ => trivial) evaluated
  obtain ⟨w', schedule, _, taken, fires, creates, left⟩ := startsBy_eq_true starts
  rw [Bool.and_eq_true, Bool.not_eq_true', Option.any_eq_true] at left
  obtain ⟨unfollowed, row, stored, manual⟩ := left
  refine ⟨fun followed => ?_, w, w', schedule, row, reached, taken, fires, creates, stored,
    of_decide_eq_true manual⟩
  have follows := followed w w' 2 _ schedule reached trivial taken fires creates
  rw [unfollowed] at follows
  cases follows

end Workflow.Scheduling
