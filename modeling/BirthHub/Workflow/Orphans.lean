import BirthHub.Effect.Moves
import BirthHub.Workflow.Launch
import BirthHub.Workflow.Terminal

/-!
# Executions without a job

A call of `runWorkflowNow` answers with the id of an execution that it created. Where the
workflow has a trigger step, the queue has a job of that execution and the call creates no
other. Where it has none, the call queues a trigger job instead, from which the worker
creates an execution of its own: the one whose id was answered has no job and stays as it
is.
-/

namespace Workflow

open Data Effect

/-! ## What happens to the executions and the jobs -/

/-- The execution runs, and no job of the queue is for it. -/
def Jobless (store : Store) (id : String) : Prop :=
  store.hasJobOf id = false ∧ ∃ row, store.execution id = some row ∧ row.status = .RUNNING

/-- The execution exists, under an id that `cuid()` may have given. -/
def Known (store : Store) (id : String) : Prop :=
  ':' ∉ id.toList ∧ (store.execution id).isSome

/-- The job is for an execution that exists, and its id starts with that of the execution. -/
def Job.IsKnown (store : Store) (job : Job) : Prop :=
  Known store job.payload.executionId ∧
    (job.payload.executionId ++ ":").toList <+: job.id.toList

/-- A change of the executions and the jobs by somebody who may write for the executions in
`May`, and who creates an execution under a fresh id only. -/
inductive Shift (May : String → Prop) (store : Store) : Store → Prop
  | keep {store' : Store} (executions : store'.executions = store.executions)
      (jobs : store'.jobs.map (fun job => (job.id, job.payload)) =
        store.jobs.map fun job => (job.id, job.payload)) : Shift May store store'
  | update {id : String} {data : ExecutionUpdate} (may : May id) :
      Shift May store (store.updateExecution id data)
  | add {payload : WorkflowExecutionJobPayload} {options : JobOptions} {retained : Bool}
      (may : May payload.executionId)
      (named : (payload.executionId ++ ":").toList <+: options.jobId.toList) :
      Shift May store (store.addJob payload options retained)
  | create {row : WorkflowExecution} (fresh : store.execution row.id = none) :
      Shift May store { store with executions := store.executions ++ [row] }

section Shifts

variable {store store' : Store} {May : String → Prop} {id : String}

theorem hasJobOf_iff : store.hasJobOf id = true ↔
    ∃ job ∈ store.jobs.map (fun job : Job => (job.id, job.payload)), job.2.executionId = id := by
  simp [Store.hasJobOf]

/-- Texts without a colon before the same colon are the same. -/
theorem eq_of_colon {a b rest : List Char} (left : ':' ∉ a) (right : ':' ∉ b)
    (first : a ++ [':'] <+: rest) (second : b ++ [':'] <+: rest) : a = b := by
  obtain ⟨r, rfl⟩ := first
  obtain ⟨r', same⟩ := second
  have cut : ∀ {x y : List Char}, ':' ∉ x → (x ++ [':'] ++ y).takeWhile (· ≠ ':') = x := by
    intro x y free
    rw [List.append_assoc, List.takeWhile_append_of_pos]
    · simp
    · intro c there
      simpa using fun same : c = ':' => free (same ▸ there)
  rw [← cut left (y := r), ← same, cut right]

/-- A job that is added under the execution's own name is not taken for a job of another. -/
theorem holdsJob_of_jobless {payload : WorkflowExecutionJobPayload} {options : JobOptions}
    {retained : Bool} (known : ∀ job ∈ store.jobs, job.IsKnown store)
    (named : (payload.executionId ++ ":").toList <+: options.jobId.toList)
    (free : ':' ∉ payload.executionId.toList)
    (jobless : store.hasJobOf payload.executionId = false) :
    store.holdsJob options.jobId retained = false := by
  by_contra held
  obtain ⟨job, there, holds⟩ := List.any_eq_true.mp (Bool.eq_true_of_not_eq_false held)
  have same : job.id = options.jobId := (of_decide_eq_true holds).1
  obtain ⟨⟨free', _⟩, named'⟩ := known job there
  have own : job.payload.executionId = payload.executionId := by
    rw [same] at named'
    rw [String.toList_append] at named named'
    exact String.toList_injective (eq_of_colon free' free named' named)
  have has : store.hasJobOf payload.executionId = true :=
    List.any_eq_true.mpr ⟨job, there, by simpa using own⟩
  rw [jobless] at has
  cases has

theorem Shift.execution_isSome (shift : Shift May store store')
    (found : (store.execution id).isSome) : (store'.execution id).isSome := by
  cases shift with
  | keep executions jobs => rwa [Store.execution, executions]
  | update may =>
      rw [Store.execution_updateExecution]
      split
      · simpa using found
      · exact found
  | add may named =>
      unfold Store.addJob
      split <;> exact found
  | create fresh =>
      obtain ⟨row, found⟩ := Option.isSome_iff_exists.mp found
      rw [Store.execution] at found
      simp [Store.execution, List.find?_append, found]

theorem Shift.hasJobOf (shift : Shift May store store') (has : store.hasJobOf id = true) :
    store'.hasJobOf id = true := by
  cases shift with
  | keep executions jobs => rwa [hasJobOf_iff, jobs, ← hasJobOf_iff]
  | update may => exact has
  | add may named =>
      unfold Store.addJob
      split
      · exact has
      · simp only [Store.hasJobOf, List.any_append, Bool.or_eq_true] at has ⊢
        exact .inl has
  | create fresh => exact has

theorem Known.shift (known : Known store id) (shift : Shift May store store') : Known store' id :=
  ⟨known.1, shift.execution_isSome known.2⟩

theorem Shift.jobs (shift : Shift May store store') (may : ∀ id, May id → Known store id)
    (known : ∀ job ∈ store.jobs, job.IsKnown store) : ∀ job ∈ store'.jobs, job.IsKnown store' := by
  have kept : ∀ job ∈ store.jobs, Job.IsKnown store' job :=
    fun job there => ⟨(known job there).1.shift shift, (known job there).2⟩
  have whole := shift
  cases shift with
  | keep executions jobs =>
      intro job there
      have same : (job.id, job.payload) ∈ store.jobs.map fun job => (job.id, job.payload) :=
        jobs ▸ List.mem_map_of_mem there
      obtain ⟨old, there', same⟩ := List.mem_map.mp same
      obtain ⟨sameId, samePayload⟩ := Prod.mk.inj same
      have before := kept old there'
      rwa [Job.IsKnown, sameId, samePayload] at before
  | update allowed => exact kept
  | @add payload options retained allowed named =>
      rcases @Store.addJob_cases store payload options retained with same | same
      · rw [same] at kept ⊢
        exact kept
      · intro job there
        have there' := there
        rw [same] at there'
        rcases List.mem_append.mp there' with old | new
        · exact kept job old
        · rw [List.mem_singleton.mp new]
          exact ⟨(may _ allowed).shift whole, named⟩
  | create fresh => exact kept

/-- Who may not write for a jobless execution leaves it so. -/
theorem Jobless.shift (jobless : Jobless store id) (shift : Shift May store store')
    (mayNot : ¬ May id) : Jobless store' id := by
  obtain ⟨free, row, found, running⟩ := jobless
  cases shift with
  | keep executions jobs =>
      refine ⟨?_, row, by rwa [Store.execution, executions], running⟩
      rw [Bool.eq_false_iff] at free ⊢
      rwa [ne_eq, hasJobOf_iff, jobs, ← hasJobOf_iff]
  | @update other data may =>
      refine ⟨free, row, ?_, running⟩
      rw [Store.execution_updateExecution, if_neg]
      · exact found
      · rintro rfl
        exact mayNot may
  | @add payload options retained may named =>
      have other : payload.executionId ≠ id := by
        rintro rfl
        exact mayNot may
      unfold Store.addJob
      split
      · exact ⟨free, row, found, running⟩
      · refine ⟨?_, row, found, running⟩
        simp only [Store.hasJobOf, List.any_append, Bool.or_eq_false_iff] at free ⊢
        exact ⟨free, by simpa using other⟩
  | create fresh =>
      refine ⟨free, row, ?_, running⟩
      rw [Store.execution] at found
      simp [Store.execution, List.find?_append, found]

end Shifts

/-! ## The stages of calls and trigger jobs -/

inductive LaunchStage
  /-- A call before it knows its organization. -/
  | resolving
  | scoped (tenantId : String)
  /-- The published workflow is read. -/
  | choosing (workflow : Definition)
  | created (workflow : Definition) (id : String)
  /-- The clock is read for the id of the trigger job. -/
  | timed (workflow : Definition) (id : String)
  | launched (workflow : Definition) (id : String)
  /-- A trigger job before it creates its execution. -/
  | looking
  | made (id : String)
  | ended

namespace LaunchStage

/-- The execution that the thread has created. -/
def own : LaunchStage → Option String
  | .created _ id | .timed _ id | .launched _ id | .made id => some id
  | _ => none

/-- The workflow that a call has read. -/
def workflow : LaunchStage → Option Definition
  | .choosing workflow | .created workflow _ | .timed workflow _ | .launched workflow _ =>
      some workflow
  | _ => none

/-- A step of a call or of a trigger job. -/
inductive Move : LaunchStage → (o : LaunchOp) → LaunchIface.Answer o → LaunchStage → Prop
  | identified {tenantReference : String} {row : OrganizationRow} :
      Move .resolving (.findOrganization tenantReference)
        (.ok (some row : Option OrganizationRow)) (.scoped row.tenantId)
  | unidentified {tenantReference : String} {answer : Except Thrown (Option OrganizationRow)} :
      Move .resolving (.findOrganization tenantReference) answer .ended
  | read {workflowId tenantId : String} {workflow : Definition}
      (published : workflow.status = .PUBLISHED) :
      Move (.scoped tenantId) (.runner (.findWorkflow workflowId tenantId))
        (.ok (some workflow : Option Definition)) (.choosing workflow)
  | unread {workflowId tenantId : String} {answer : Except Thrown (Option Definition)} :
      Move (.scoped tenantId) (.runner (.findWorkflow workflowId tenantId)) answer .ended
  | create {workflow : Definition} {payload : WorkflowTriggerJobPayload}
      {row : WorkflowExecution} :
      Move (.choosing workflow) (.runner (.createExecution payload)) (.ok row)
        (.created workflow row.id)
  | enqueue {workflow : Definition} {id : String} {payload : WorkflowExecutionJobPayload}
      {options : JobOptions} {r : Unit} (trigger : (triggerStep workflow).isSome)
      (execution : payload.executionId = id)
      (named : (id ++ ":").toList <+: options.jobId.toList) :
      Move (.created workflow id) (.runner (.addJob payload options)) (.ok r)
        (.launched workflow id)
  | time {workflow : Definition} {id : String} {t : Int} (trigger : triggerStep workflow = none) :
      Move (.created workflow id) (.runner .now) (.ok t) (.timed workflow id)
  | queue {workflow : Definition} {id jobId : String} {payload : WorkflowTriggerJobPayload}
      {n : Nat} (trigger : triggerStep workflow = none) :
      Move (.timed workflow id) (.addTrigger payload jobId) (.ok n) (.launched workflow id)
  | look {workflowId tenantId : String} {answer : Except Thrown (Option Definition)} :
      Move .looking (.runner (.findPublishedWorkflow workflowId tenantId)) answer .looking
  | make {payload : WorkflowTriggerJobPayload} {row : WorkflowExecution} :
      Move .looking (.runner (.createExecution payload)) (.ok row) (.made row.id)
  | clock {id : String} {t : Int} : Move (.made id) (.runner .now) (.ok t) (.made id)
  | update {id : String} {data : ExecutionUpdate} {r : Unit} :
      Move (.made id) (.runner (.updateExecution id data)) (.ok r) (.made id)
  | add {id : String} {payload : WorkflowExecutionJobPayload} {options : JobOptions} {r : Unit}
      (execution : payload.executionId = id)
      (named : (id ++ ":").toList <+: options.jobId.toList) :
      Move (.made id) (.runner (.addJob payload options)) (.ok r) (.made id)
  | fail {s : LaunchStage} {o : LaunchOp} {e : Thrown} : Move s o (.error e) .ended

end LaunchStage

/-- A call that returns has launched what it answers with. -/
def LaunchExit : LaunchTask → Except Thrown (Option RunResult) → LaunchStage → Prop
  | .call .., .ok (some r), s => ∃ workflow, s = .launched workflow r.executionId
  | .call .., .ok none, _ | .trigger .., .ok (some _), _ => False
  | _, _, _ => True

def launchStart : LaunchTask → LaunchStage
  | .call .. => .resolving
  | .trigger .. => .looking

section Follows

variable {α : Type} {Q : Except Thrown α → LaunchStage → Prop} {s : LaunchStage}

open LaunchStage (Move)

theorem followsLaunch_bind {o : LaunchOp} {f : o.Result → Prog LaunchIface α}
    (next : ∀ r, ∃ s', Move s o (.ok r) s' ∧ (f r).Follows Move Q s')
    (fault : ∀ e, Q (.error e) .ended) : (awaitLaunch o >>= f).Follows Move Q s :=
  Prog.Follows.performBind (I := LaunchIface) next fun e => ⟨.ended, .fail, fault e⟩

theorem followsLaunch {o : LaunchOp} {Q : Except Thrown o.Result → LaunchStage → Prop}
    (next : ∀ r, ∃ s', Move s o (.ok r) s' ∧ Q (.ok r) s') (fault : ∀ e, Q (.error e) .ended) :
    (awaitLaunch o).Follows Move Q s := by
  refine Prog.Follows.perform (I := LaunchIface) fun answer => ?_
  cases answer with
  | ok r => exact next r
  | error e => exact ⟨.ended, .fail, fault e⟩

/-- A job id goes on after the execution's name. -/
theorem named_append {id text : String} (more : String)
    (named : (id ++ ":").toList <+: text.toList) : (id ++ ":").toList <+: (text ++ more).toList := by
  have whole : (text ++ more).toList = text.toList ++ more.toList := String.toList_append
  rw [whole]
  exact named.trans (List.prefix_append _ _)

theorem enqueueWorkflowExecution_follows {workflow : Definition} {id key : String}
    {payload : WorkflowTriggerJobPayload} (trigger : (triggerStep workflow).isSome) :
    (enqueueWorkflowExecution (firstJob id payload key)).Follows Move
      (fun x s => ∀ r, x = .ok r → s = .launched workflow id) (.created workflow id) :=
  followsLaunch
    (fun _ => ⟨_, .enqueue trigger rfl (named_append _ (named_append _ (named_append _
      (List.prefix_refl _)))), fun _ _ => rfl⟩)
    (fun _ => nofun)

theorem enqueueWorkflowTrigger_follows {workflow : Definition} {id : String}
    {payload : WorkflowTriggerJobPayload} (trigger : triggerStep workflow = none) :
    (enqueueWorkflowTrigger payload).Follows Move
      (fun x s => ∀ r, x = .ok r → s = .launched workflow id) (.created workflow id) := by
  refine followsLaunch_bind (fun _ => ⟨_, .time trigger, ?_⟩) (fun _ => nofun)
  exact followsLaunch_bind (fun _ => ⟨_, .queue trigger, fun _ _ => rfl⟩) (fun _ => nofun)

theorem resolveScopedIdentity_follows {tenantReference : String} :
    (resolveScopedIdentity tenantReference).Follows Move
      (fun x s => ∀ identity, x = .ok identity → s = .scoped identity.tenantId) .resolving := by
  refine followsLaunch_bind (fun organization => ?_) (fun _ => nofun)
  cases organization with
  | none => exact ⟨_, .unidentified, nofun⟩
  | some row => exact ⟨_, .identified, fun identity same => by cases same; rfl⟩

theorem runWorkflowNow_follows {workflowId tenantReference : String} {input : WorkflowRunInput}
    {triggerType : TriggerType} :
    (runWorkflowNow workflowId tenantReference input triggerType).Follows Move
      (fun x s => ∀ r, x = .ok r → ∃ workflow, s = .launched workflow r.executionId)
      .resolving := by
  refine Prog.Follows.bind (Prog.Follows.mono (fun x s ends => ?_) resolveScopedIdentity_follows)
  cases x with
  | error e => exact nofun
  | ok identity =>
      obtain rfl := ends identity rfl
      refine followsLaunch_bind (fun found => ?_) (fun _ => nofun)
      cases found with
      | none => exact ⟨_, .unread, nofun⟩
      | some workflow =>
          by_cases published : workflow.status = .PUBLISHED
          swap
          · refine ⟨_, .unread, ?_⟩
            simp only [published, ne_eq, not_false_eq_true, if_true]
            exact nofun
          · refine ⟨_, .read published, ?_⟩
            simp only [published, ne_eq, not_true_eq_false, if_false]
            refine followsLaunch_bind (fun execution => ⟨_, .create, ?_⟩) (fun _ => nofun)
            have answers : ∀ {p : Prog LaunchIface Unit},
                p.Follows Move (fun x s => ∀ r, x = .ok r → s = .launched workflow execution.id)
                  (.created workflow execution.id) →
                (p.bind fun _ => .pure
                  ({ executionId := execution.id,
                     mode := if input.async then .async else .sync } : RunResult)).Follows Move
                  (fun x s => ∀ r, x = .ok r → ∃ workflow, s = .launched workflow r.executionId)
                  (.created workflow execution.id) := by
              intro p follows
              refine Prog.Follows.bind (Prog.Follows.mono (fun x s ends => ?_) follows)
              cases x with
              | error e => exact nofun
              | ok r =>
                  obtain rfl := ends r rfl
                  exact fun result same => ⟨workflow, by cases same; rfl⟩
            cases trigger : runTriggerStep workflow with
            | some step =>
                refine answers (enqueueWorkflowExecution_follows ?_)
                rw [← runTriggerStep_eq_triggerStep, trigger]
                rfl
            | none =>
                refine answers (enqueueWorkflowTrigger_follows ?_)
                rw [← runTriggerStep_eq_triggerStep, trigger]

/-- The moves of a trigger job by the operations of the runner. -/
def triggerStepMove (s : LaunchStage) (o : RunnerOp) (answer : RunnerIface.Answer o)
    (s' : LaunchStage) : Prop :=
  Move s (.runner o) answer s'

theorem processTriggerJob_follows {payload : WorkflowTriggerJobPayload} :
    (processTriggerJob payload).Follows triggerStepMove (fun _ _ => True) .looking := by
  have failed : ∀ {s : LaunchStage} {o : RunnerOp} (e : Thrown),
      ∃ s', triggerStepMove s o (.error e) s' ∧ True := fun _ => ⟨.ended, Move.fail, trivial⟩
  refine Prog.Follows.performBind (I := RunnerIface) (fun found => ⟨.looking, Move.look, ?_⟩) failed
  cases found with
  | none => trivial
  | some workflow =>
      refine Prog.Follows.performBind (I := RunnerIface)
        (fun execution => ⟨.made execution.id, Move.make, ?_⟩) failed
      cases triggerStep workflow with
      | none =>
          refine Prog.Follows.performBind (I := RunnerIface)
            (fun t => ⟨.made execution.id, Move.clock, ?_⟩) failed
          refine Prog.Follows.perform (I := RunnerIface) fun answer => ?_
          cases answer with
          | ok r => exact ⟨_, Move.update, trivial⟩
          | error e => exact failed e
      | some step =>
          refine Prog.Follows.perform (I := RunnerIface) fun answer => ?_
          cases answer with
          | ok r => exact ⟨_, Move.add rfl (named_append _ (named_append _ (List.prefix_refl _))), trivial⟩
          | error e => exact failed e

theorem launch_follows (task : LaunchTask) :
    (launchProgram task).Follows Move (LaunchExit task) (launchStart task) := by
  cases task with
  | call workflowId tenantReference input triggerType =>
      refine Prog.Follows.bind (Prog.Follows.mono (fun x s ends => ?_) runWorkflowNow_follows)
      cases x with
      | error e => trivial
      | ok r => exact ends r rfl
  | trigger job payload =>
      refine Prog.Follows.bind (Prog.Follows.mono (Q := fun _ _ => True) (fun x s _ => ?_)
        (Prog.Follows.embed (fun _ _ _ _ taken => taken) (fun _ _ _ => trivial)
          (fun _ _ _ => trivial) processTriggerJob_follows))
      cases x <;> trivial

end Follows

/-! ## What holds in every run -/

/-- The execution created by an event. -/
def createdId : Event LaunchIface → Option String
  | ⟨_, .runner (.createExecution _), .ok row⟩ => some row.id
  | _ => none

def isCreation (event : Event LaunchIface) : Bool := (createdId event).isSome

def LaunchTask.job : LaunchTask → Option Nat
  | .trigger n _ => some n
  | .call .. => none

/-- The trigger job that thread `i` has queued by an event. -/
def queuedJob (i : Nat) : Event LaunchIface → Option Nat
  | ⟨j, .addTrigger .., .ok n⟩ => if j = i then some n else none
  | _ => none

def queuedBy (trace : List (Event LaunchIface)) (i : Nat) : List Nat :=
  trace.filterMap (queuedJob i)

/-- The workflows that the thread has read. -/
def Reads (trace : List (Event LaunchIface)) (i : Nat) (workflow : Definition) : Prop :=
  ∃ workflowId tenantId, (⟨i, .runner (.findWorkflow workflowId tenantId), .ok (some workflow)⟩ :
    Event LaunchIface) ∈ trace

abbrev LaunchWorld (β : Type) : Type := World LaunchIface LaunchTask LaunchStore β

/-- The history of a thread up to its stage: a call reads one workflow, creates one execution,
and queues a trigger job only where there is no trigger step. -/
structure LaunchHistory (trace : List (Event LaunchIface)) (i : Nat) (s : LaunchStage) : Prop where
  reads : ∀ workflow, Reads trace i workflow → s = .ended ∨ s.workflow = some workflow
  creations : s ≠ .ended →
    trace.countP (fun event => isCreation event && event.actor == i) =
      if s.own.isSome then 1 else 0
  queued : s ≠ .ended → queuedBy trace i ≠ [] →
    ∃ workflow id, s = .launched workflow id ∧ triggerStep workflow = none

/-! ### One step -/

namespace LaunchStage

/-- The execution that a call has created and not yet queued, or will not queue. -/
def orphan : LaunchStage → Option String
  | .created _ id | .timed _ id => some id
  | .launched workflow id => if (triggerStep workflow).isNone then some id else none
  | _ => none

/-- The execution that a call has queued. -/
def served : LaunchStage → Option String
  | .launched workflow id => if (triggerStep workflow).isSome then some id else none
  | _ => none

end LaunchStage

section Steps

variable {store store' : LaunchStore} {choice : Choice}

theorem LaunchStore.handle_cases {o : LaunchOp} {answer : LaunchIface.Answer o}
    (handled : LaunchStore.handle o choice store = some (answer, store')) :
    store.admits choice o = true ∧ store.perform choice o = (answer, store') := by
  unfold LaunchStore.handle at handled
  split at handled
  · rename_i admitted
    exact ⟨admitted, Option.some.inj handled⟩
  · cases handled

theorem LaunchStore.handle_runner {o : RunnerOp} {answer : RunnerIface.Answer o}
    (handled : LaunchStore.handle (.runner o) choice store = some (answer, store')) :
    store.admits choice (.runner o) = true ∧ store.engine.handle o choice = (answer, store'.engine) := by
  obtain ⟨admitted, performed⟩ := handle_cases handled
  refine ⟨admitted, ?_⟩
  simp only [LaunchStore.perform] at performed
  obtain ⟨rfl, rfl⟩ := Prod.mk.inj performed
  rfl

/-- What creates an execution gives it a fresh id. -/
theorem LaunchStore.handle_create {payload : WorkflowTriggerJobPayload} {row : WorkflowExecution}
    (handled : LaunchStore.handle (.runner (.createExecution payload)) choice store =
      some (.ok row, store')) :
    ':' ∉ row.id.toList ∧ store.engine.execution row.id = none ∧ row.status = .RUNNING ∧
      store'.engine = { store.engine with executions := store.engine.executions ++ [row] } ∧
      store'.engine.execution row.id = some row := by
  obtain ⟨admitted, performed⟩ := handle_runner handled
  have made := Prod.mk.inj (Store.handle_ok (o := .createExecution payload) performed)
  obtain rfl := Except.ok.inj made.1
  simp only [LaunchStore.admits, LaunchStore.isFreshId, Bool.and_eq_true, Bool.not_eq_true',
    Option.isNone_iff_eq_none] at admitted
  refine ⟨by simpa using admitted.1, admitted.2, rfl, made.2.symm, ?_⟩
  have fresh := admitted.2
  rw [Store.execution] at fresh
  simp [← made.2, Store.execution, List.find?_append, fresh]

theorem LaunchStore.addTrigger_engine {payload : WorkflowTriggerJobPayload} {jobId : String}
    {retained : Bool} : (store.addTrigger payload jobId retained).2.engine = store.engine := by
  unfold LaunchStore.addTrigger
  split <;> rfl

/-- The operations of the API leave the database of the engine as it is, and so does an
operation that fails. -/
theorem LaunchStore.handle_engine {o : LaunchOp} {answer : LaunchIface.Answer o}
    (kept : (∀ o', o ≠ .runner o') ∨ ∃ e, answer = .error e)
    (handled : LaunchStore.handle o choice store = some (answer, store')) :
    store'.engine = store.engine := by
  have performed := (handle_cases handled).2
  cases o with
  | runner o =>
      obtain api | ⟨e, rfl⟩ := kept
      · exact (api o rfl).elim
      · exact Store.handle_error (handle_runner handled).2
  | findOrganization tenantReference =>
      simp only [LaunchStore.perform] at performed
      split at performed <;> cases performed <;> rfl
  | addTrigger payload jobId =>
      simp only [LaunchStore.perform] at performed
      split at performed <;> cases performed
      · rfl
      · exact addTrigger_engine

theorem Shift.refl {May : String → Prop} {store : Store} : Shift May store store := .keep rfl rfl

theorem LaunchStage.Move.shift {s s' : LaunchStage} {o : LaunchOp} {answer : LaunchIface.Answer o}
    (move : s.Move o answer s')
    (handled : LaunchStore.handle o choice store = some (answer, store')) :
    Shift (fun id => s.own = some id) store.engine store'.engine := by
  have read : ∀ {o : RunnerOp} {answer : RunnerIface.Answer o}, o.isRead = true →
      LaunchStore.handle (.runner o) choice store = some (answer, store') →
      Shift (fun id => s.own = some id) store.engine store'.engine := by
    intro o answer reads handled
    rw [Store.handle_read reads (LaunchStore.handle_runner handled).2]
    exact .refl
  have api : (∀ o', o ≠ .runner o') → Shift (fun id => s.own = some id) store.engine store'.engine := by
    intro api
    rw [LaunchStore.handle_engine (.inl api) handled]
    exact .refl
  cases move with
  | identified => exact api (by simp)
  | unidentified => exact api (by simp)
  | queue => exact api (by simp)
  | read => exact read rfl handled
  | unread => exact read rfl handled
  | look => exact read rfl handled
  | time => exact read rfl handled
  | clock => exact read rfl handled
  | fail =>
      rw [LaunchStore.handle_engine (.inr ⟨_, rfl⟩) handled]
      exact .refl
  | create =>
      obtain ⟨_, fresh, _, after, _⟩ := LaunchStore.handle_create handled
      rw [after]
      exact .create fresh
  | make =>
      obtain ⟨_, fresh, _, after, _⟩ := LaunchStore.handle_create handled
      rw [after]
      exact .create fresh
  | update =>
      rw [Store.handle_updateExecution (LaunchStore.handle_runner handled).2]
      exact .update rfl
  | enqueue trigger execution named =>
      rw [Store.handle_addJob (LaunchStore.handle_runner handled).2]
      exact .add (execution ▸ rfl) (execution ▸ named)
  | add execution named =>
      rw [Store.handle_addJob (LaunchStore.handle_runner handled).2]
      exact .add (execution ▸ rfl) (execution ▸ named)

/-- An execution that a thread comes to own is the one it has just created. -/
theorem LaunchStage.Move.own {s s' : LaunchStage} {o : LaunchOp} {answer : LaunchIface.Answer o}
    {id : String} (i : Nat) (move : s.Move o answer s') (owned : s'.own = some id) :
    s.own = some id ∨ s.own = none ∧ createdId ⟨i, o, answer⟩ = some id := by
  cases move <;> first
    | exact .inl owned
    | exact .inr ⟨rfl, owned⟩
    | cases owned

theorem LaunchStore.handle_createdId {o : LaunchOp} {answer : LaunchIface.Answer o} {id : String}
    {i : Nat} (creates : createdId ⟨i, o, answer⟩ = some id)
    (known : ∀ job ∈ store.engine.jobs, job.IsKnown store.engine)
    (handled : LaunchStore.handle o choice store = some (answer, store')) :
    store.engine.execution id = none ∧ Known store'.engine id ∧ Jobless store'.engine id := by
  cases o with
  | findOrganization tenantReference => cases answer <;> cases creates
  | addTrigger payload jobId => cases answer <;> cases creates
  | runner o =>
      cases o with
      | createExecution payload =>
          cases answer with
          | error e => cases creates
          | ok row =>
              obtain ⟨free, fresh, running, after, found⟩ := handle_create handled
              cases creates
              refine ⟨fresh, ⟨free, Option.isSome_iff_exists.mpr ⟨row, found⟩⟩, ?_, row, found,
                running⟩
              -- every job is for an execution that was there before
              rw [after, Bool.eq_false_iff]
              intro has
              obtain ⟨job, there, own⟩ := List.any_eq_true.mp has
              have before := (known job there).1.2
              rw [show job.payload.executionId = row.id by simpa using own, fresh] at before
              cases before
      | _ => cases answer <;> cases creates

end Steps

/-! ### Every run -/

abbrev LaunchStages : Type := LaunchWorld (Marked LaunchStage)

structure LaunchInv (a : LaunchStages) : Prop where
  jobs : ∀ job ∈ a.store.engine.jobs, job.IsKnown a.store.engine
  actors : ∀ event ∈ a.trace, event.actor < a.threads.length
  known : ∀ {i : Nat} {u : Thread LaunchTask (Marked LaunchStage)} {id : String},
    a.threads[i]? = some u → u.body.stage.own = some id → Known a.store.engine id
  distinct : ∀ {i j : Nat} {u v : Thread LaunchTask (Marked LaunchStage)} {id : String},
    a.threads[i]? = some u → a.threads[j]? = some v → u.body.stage.own = some id →
    v.body.stage.own = some id → i = j
  history : ∀ {i : Nat} {u : Thread LaunchTask (Marked LaunchStage)},
    a.threads[i]? = some u → LaunchHistory a.trace i u.body.stage
  jobless : ∀ {i : Nat} {u : Thread LaunchTask (Marked LaunchStage)} {id : String},
    a.threads[i]? = some u → u.body.stage.orphan = some id → Jobless a.store.engine id
  queued : ∀ {i : Nat} {u : Thread LaunchTask (Marked LaunchStage)} {id : String},
    a.threads[i]? = some u → u.body.stage.served = some id →
    a.store.engine.hasJobOf id = true

namespace LaunchStage

theorem own_of_orphan {s : LaunchStage} {id : String} (orphan : s.orphan = some id) :
    s.own = some id := by
  cases s with
  | created workflow x => exact orphan
  | timed workflow x => exact orphan
  | launched workflow x =>
      simp only [LaunchStage.orphan, Option.ite_none_right_eq_some] at orphan
      exact orphan.2
  | _ => cases orphan

/-- An execution that is left without a job was so before, or has just been created. -/
theorem Move.orphan {s s' : LaunchStage} {o : LaunchOp} {answer : LaunchIface.Answer o}
    {id : String} (i : Nat) (move : s.Move o answer s') (orphan : s'.orphan = some id) :
    (s.orphan = some id ∧ (o = .runner .now ∨ ∃ payload jobId, o = .addTrigger payload jobId)) ∨
      createdId ⟨i, o, answer⟩ = some id := by
  cases move with
  | create => exact .inr orphan
  | time trigger => exact .inl ⟨orphan, .inl rfl⟩
  | queue trigger =>
      simp only [LaunchStage.orphan, trigger] at orphan
      exact .inl ⟨orphan, .inr ⟨_, _, rfl⟩⟩
  | enqueue trigger execution named =>
      obtain ⟨step, found⟩ := Option.isSome_iff_exists.mp trigger
      simp [LaunchStage.orphan, found] at orphan
  | _ => cases orphan

/-- An execution that is queued was so before, or its job has just been added. -/
theorem Move.served {s s' : LaunchStage} {o : LaunchOp} {answer : LaunchIface.Answer o}
    {id : String} (move : s.Move o answer s') (served : s'.served = some id) :
    ∃ workflow payload options r, s = .created workflow id ∧ payload.executionId = id ∧
      (id ++ ":").toList <+: options.jobId.toList ∧
      (⟨0, o, answer⟩ : Event LaunchIface) = ⟨0, .runner (.addJob payload options), .ok r⟩ := by
  cases move with
  | @enqueue workflow x payload options r trigger execution named =>
      simp only [LaunchStage.served, trigger, if_true, Option.some.injEq] at served
      subst served
      exact ⟨workflow, payload, options, r, rfl, execution, named, rfl⟩
  | queue trigger => simp [LaunchStage.served, trigger] at served
  | _ => cases served

end LaunchStage

section History

variable {trace : List (Event LaunchIface)} {i : Nat} {s s' : LaunchStage} {o : LaunchOp}
  {answer : LaunchIface.Answer o}

theorem reads_cons {event : Event LaunchIface} {workflow : Definition} :
    Reads (event :: trace) i workflow ↔
      (∃ workflowId tenantId, event =
        ⟨i, .runner (.findWorkflow workflowId tenantId), .ok (some workflow)⟩) ∨
      Reads trace i workflow := by
  simp only [Reads, List.mem_cons, exists_or, eq_comm]

theorem queuedJob_other {event : Event LaunchIface} (foreign : event.actor ≠ i) :
    queuedJob i event = none := by
  rcases event with ⟨j, o, answer⟩
  have other : j ≠ i := foreign
  cases o <;> cases answer <;> simp [queuedJob, other]

theorem queuedBy_cons_of_none {event : Event LaunchIface} (unqueued : queuedJob i event = none) :
    queuedBy (event :: trace) i = queuedBy trace i := by
  rw [queuedBy, List.filterMap_cons, unqueued, queuedBy]

theorem LaunchHistory.other {event : Event LaunchIface} (history : LaunchHistory trace i s)
    (foreign : event.actor ≠ i) : LaunchHistory (event :: trace) i s where
  reads workflow reads := by
    rcases reads_cons.mp reads with ⟨_, _, rfl⟩ | before
    · exact (foreign rfl).elim
    · exact history.reads workflow before
  creations running := by
    rw [List.countP_cons, history.creations running]
    simp [foreign]
  queued running := by
    rw [queuedBy_cons_of_none (queuedJob_other foreign)]
    exact history.queued running

theorem LaunchHistory.fresh (unseen : ∀ event ∈ trace, event.actor ≠ i) (start : s.own = none) :
    LaunchHistory trace i s where
  reads workflow := fun ⟨_, _, there⟩ => (unseen _ there rfl).elim
  creations _ := by
    rw [start, List.countP_eq_zero.mpr]
    · rfl
    · intro event there
      simp [unseen event there]
  queued _ queued :=
    (queued (List.filterMap_eq_nil_iff.mpr fun event there =>
      queuedJob_other (unseen event there))).elim

/-- Nothing is asked of a thread that has ended. -/
theorem LaunchHistory.ended : LaunchHistory trace i .ended :=
  ⟨fun _ _ => .inl rfl, fun running => (running rfl).elim, fun running => (running rfl).elim⟩

/-- A move that neither reads a workflow nor creates an execution nor queues a trigger job
leaves the history to a stage with the same workflow and the same execution. -/
theorem LaunchHistory.congr (history : LaunchHistory trace i s) (alive : s ≠ .ended)
    (own : s'.own.isSome = s.own.isSome) (workflow : s'.workflow = s.workflow)
    (unlaunched : ∀ w id, s ≠ .launched w id)
    (unread : ∀ w, ¬ ∃ workflowId tenantId, (⟨i, o, answer⟩ : Event LaunchIface) =
      ⟨i, .runner (.findWorkflow workflowId tenantId), .ok (some w)⟩)
    (uncreated : createdId ⟨i, o, answer⟩ = none) (unqueued : queuedJob i ⟨i, o, answer⟩ = none) :
    LaunchHistory (⟨i, o, answer⟩ :: trace) i s' := by
  refine ⟨fun w reads => .inr ?_, fun _ => ?_, fun _ some => ?_⟩
  · rcases reads_cons.mp reads with now | before
    · exact (unread w now).elim
    · rw [workflow]
      exact (history.reads w before).resolve_left alive
  · rw [List.countP_cons, history.creations alive, own]
    simp [isCreation, uncreated]
  · rw [queuedBy_cons_of_none unqueued] at some
    obtain ⟨w, id, launched, _⟩ := history.queued alive some
    exact (unlaunched w id launched).elim

theorem LaunchHistory.creates (history : LaunchHistory trace i s) (alive : s ≠ .ended)
    (own : s.own = none) (workflow : s'.workflow = s.workflow) (owns : s'.own.isSome)
    (unlaunched : ∀ w id, s ≠ .launched w id) {payload : WorkflowTriggerJobPayload}
    {row : WorkflowExecution} :
    LaunchHistory (⟨i, .runner (.createExecution payload), .ok row⟩ :: trace) i s' := by
  refine ⟨fun w reads => .inr ?_, fun _ => ?_, fun _ some => ?_⟩
  · rcases reads_cons.mp reads with ⟨_, _, now⟩ | before
    · cases now
    · rw [workflow]
      exact (history.reads w before).resolve_left alive
  · rw [List.countP_cons, history.creations alive, own, owns]
    simp [isCreation, createdId]
  · rw [queuedBy_cons_of_none rfl] at some
    obtain ⟨w, id, launched, _⟩ := history.queued alive some
    exact (unlaunched w id launched).elim

theorem LaunchHistory.move (history : LaunchHistory trace i s) (move : s.Move o answer s') :
    LaunchHistory (⟨i, o, answer⟩ :: trace) i s' := by
  cases move with
  | unidentified => exact .ended
  | unread => exact .ended
  | fail => exact .ended
  | @read workflowId tenantId workflow published =>
      refine ⟨fun w reads => .inr ?_, fun _ => ?_, fun _ some => ?_⟩
      · rcases reads_cons.mp reads with ⟨_, _, now⟩ | before
        · cases now
          rfl
        · cases (history.reads w before).resolve_left (by simp)
      · rw [List.countP_cons, history.creations (by simp)]
        rfl
      · rw [queuedBy_cons_of_none rfl] at some
        obtain ⟨w, id, launched, _⟩ := history.queued (by simp) some
        cases launched
  | create => refine history.creates ?_ rfl ?_ ?_ ?_ <;> first | rfl | simp
  | make => refine history.creates ?_ rfl ?_ ?_ ?_ <;> first | rfl | simp
  | @queue workflow id _ _ _ trigger =>
      refine ⟨fun w reads => .inr ?_, fun _ => ?_, fun _ _ => ⟨workflow, id, rfl, trigger⟩⟩
      · rcases reads_cons.mp reads with ⟨_, _, now⟩ | before
        · cases now
        · exact (history.reads w before).resolve_left (by simp)
      · rw [List.countP_cons, history.creations (by simp)]
        rfl
  | identified => exact history.congr (by simp) rfl rfl (by simp) (by simp) rfl rfl
  | enqueue => exact history.congr (by simp) rfl rfl (by simp) (by simp) rfl rfl
  | time => exact history.congr (by simp) rfl rfl (by simp) (by simp) rfl rfl
  | @look workflowId tenantId answer =>
      refine history.congr (by simp) rfl rfl (by simp) ?_ (by cases answer <;> rfl)
        (by cases answer <;> rfl)
      rintro w ⟨_, _, same⟩
      cases same
  | clock => exact history.congr (by simp) rfl rfl (by simp) (by simp) rfl rfl
  | update => exact history.congr (by simp) rfl rfl (by simp) (by simp) rfl rfl
  | add => exact history.congr (by simp) rfl rfl (by simp) (by simp) rfl rfl

end History

theorem LaunchInv.fresh {store : LaunchStore}
    (known : ∀ job ∈ store.engine.jobs, job.IsKnown store.engine) :
    LaunchInv ⟨store, [], []⟩ where
  jobs := known
  actors _ inside := nomatch inside
  known found := nomatch found
  distinct found := nomatch found
  history found := nomatch found
  jobless found := nomatch found
  queued found := nomatch found

section Runs

variable {a : LaunchStages} {i : Nat} {u : Thread LaunchTask (Marked LaunchStage)}
  {o : LaunchOp} {answer : LaunchIface.Answer o} {choice : Choice} {store : LaunchStore}
  {s' : Marked LaunchStage}

theorem LaunchInv.run (inv : LaunchInv a) (there : a.threads[i]? = some u)
    (handled : LaunchStore.handle o choice a.store = some (answer, store))
    (move : u.body.stage.Move o answer s'.stage) :
    LaunchInv (a.advance i s' store ⟨i, o, answer⟩) := by
  have shift := move.shift handled
  have mine : ∀ id, u.body.stage.own = some id → Known a.store.engine id :=
    fun id own => inv.known there own
  -- An execution just created is new to every other thread.
  have apart : ∀ {j : Nat} {v : Thread LaunchTask (Marked LaunchStage)} {id : String}, j ≠ i →
      a.threads[j]? = some v → v.body.stage.own = some id → s'.stage.own ≠ some id := by
    intro j v id other before own owned
    rcases move.own i owned with old | ⟨_, creates⟩
    · exact other (inv.distinct before there own old)
    · obtain ⟨fresh, _⟩ := LaunchStore.handle_createdId creates inv.jobs handled
      have known := (inv.known before own).2
      rw [fresh] at known
      cases known
  constructor
  case jobs => exact shift.jobs mine inv.jobs
  case actors =>
    intro event inside
    rw [World.advance_length]
    rcases List.mem_cons.mp inside with rfl | before
    · exact (List.getElem?_eq_some_iff.mp there).1
    · exact inv.actors event before
  case known =>
    intro j v id there' own
    rcases World.advance_cases there there' with ⟨rfl, rfl⟩ | ⟨other, before⟩
    · rcases move.own j own with old | ⟨_, creates⟩
      · exact (inv.known there old).shift shift
      · exact (LaunchStore.handle_createdId creates inv.jobs handled).2.1
    · exact (inv.known before own).shift shift
  case distinct =>
    intro j k v v' id left right own own'
    rcases World.advance_cases there left with ⟨rfl, rfl⟩ | ⟨other, before⟩ <;>
      rcases World.advance_cases there right with ⟨rfl, rfl⟩ | ⟨other', before'⟩
    · rfl
    · exact (apart other' before' own' own).elim
    · exact (apart other before own own').elim
    · exact inv.distinct before before' own own'
  case history =>
    intro j v there'
    rcases World.advance_cases there there' with ⟨rfl, rfl⟩ | ⟨other, before⟩
    · exact (inv.history there).move move
    · exact (inv.history before).other (Ne.symm other)
  case jobless =>
    intro j v id there' orphan
    rcases World.advance_cases there there' with ⟨rfl, rfl⟩ | ⟨other, before⟩
    · rcases move.orphan j orphan with ⟨old, rfl | ⟨payload, jobId, rfl⟩⟩ | creates
      · have same : store.engine = a.store.engine :=
          Store.handle_read rfl (LaunchStore.handle_runner handled).2
        rw [World.advance_store, same]
        exact inv.jobless there old
      · rw [World.advance_store, LaunchStore.handle_engine (.inl (by simp)) handled]
        exact inv.jobless there old
      · exact (LaunchStore.handle_createdId creates inv.jobs handled).2.2
    · refine (inv.jobless before orphan).shift shift fun own => ?_
      exact other (inv.distinct before there (LaunchStage.own_of_orphan orphan) own)
  case queued =>
    intro j v id there' served
    rcases World.advance_cases there there' with ⟨rfl, rfl⟩ | ⟨other, before⟩
    · obtain ⟨workflow, payload, options, r, created, rfl, named, event⟩ := move.served served
      cases event
      have orphan : u.body.stage.orphan = some payload.executionId := by rw [created]; rfl
      have fresh : a.store.engine.holdsJob options.jobId choice.retained = false :=
        holdsJob_of_jobless inv.jobs named (inv.known there (LaunchStage.own_of_orphan orphan)).1
          (inv.jobless there orphan).1
      rw [World.advance_store, Store.handle_addJob (LaunchStore.handle_runner handled).2,
        Store.addJob, if_neg (by simp [fresh])]
      simp [Store.hasJobOf]
    · exact shift.hasJobOf (inv.queued before served)

theorem WorkerMove.apply_shift {engine engine' : Store} {move : WorkerMove}
    (worked : move.apply engine = some engine') :
    Shift (fun id => engine.hasJobOf id = true) engine engine' := by
  cases move with
  | updateExecution id data =>
      simp only [WorkerMove.apply, Option.ite_none_right_eq_some, Option.some.injEq] at worked
      obtain ⟨has, rfl⟩ := worked
      exact .update has
  | addJob payload options retained =>
      simp only [WorkerMove.apply, Option.ite_none_right_eq_some, Option.some.injEq] at worked
      obtain ⟨⟨has, named⟩, rfl⟩ := worked
      exact .add has named
  | createStepResult row =>
      cases worked
      exact .keep rfl rfl
  | setQuotas quotas =>
      cases worked
      exact .keep rfl rfl
  | setJob n attemptsMade state =>
      cases worked
      refine .keep rfl (List.ext_getElem? fun m => ?_)
      simp only [Store.setJob, List.getElem?_map, List.getElem?_modify]
      by_cases same : n = m <;> cases engine.jobs[m]? <;> simp [same]

/-- What the environment does to the executions and jobs is what the worker may do. -/
theorem launchOutside_shift {event : LaunchEvent} {store : LaunchStore}
    {threads : List (Thread LaunchTask Outcome)} {c : Change LaunchTask LaunchStore}
    (changed : launchOutside event store threads = some c) :
    Shift (fun id => store.engine.hasJobOf id = true) store.engine c.store.engine := by
  cases event with
  | call => cases changed; exact .refl
  | fire payload jobId retained =>
      cases changed
      rw [LaunchStore.addTrigger_engine]
      exact .refl
  | deliver n =>
      simp only [launchOutside] at changed
      split at changed <;> (try split at changed) <;> cases changed
      exact .refl
  | settle i =>
      simp only [launchOutside] at changed
      split at changed <;> (try split at changed) <;> cases changed
      exact .refl
  | stall n =>
      simp only [launchOutside] at changed
      split at changed <;> (try split at changed) <;> cases changed
      exact .refl
  | work move =>
      obtain ⟨engine, worked, rfl⟩ := Option.map_eq_some_iff.mp changed
      exact WorkerMove.apply_shift worked
  | setWorkflows workflows => cases changed; exact .keep rfl rfl

theorem launchStart_own (task : LaunchTask) : (launchStart task).own = none := by
  cases task <;> rfl

/-- A thread after a change was there before at the same stage, or has just been started. -/
theorem launch_change_cases {c : Change LaunchTask LaunchStore} {j : Nat}
    {v : Thread LaunchTask (Marked LaunchStage)} {start : LaunchTask → Marked LaunchStage}
    (starts : ∀ task, (start task).stage = launchStart task)
    (after : (a.change start c).threads[j]? = some v) :
    (∃ t, a.threads[j]? = some t ∧ v.tag = t.tag ∧ v.body = t.body) ∨
      a.threads.length ≤ j ∧ v.body.stage = launchStart v.tag := by
  rcases World.change_cases after with ⟨t, before, rfl⟩ | ⟨tag, beyond, _, rfl⟩
  · exact .inl ⟨t, before, rfl, rfl⟩
  · exact .inr ⟨beyond, starts tag⟩

theorem LaunchInv.change {c : Change LaunchTask LaunchStore} {start : LaunchTask → Marked LaunchStage}
    (inv : LaunchInv a) (starts : ∀ task, (start task).stage = launchStart task)
    (shift : Shift (fun id => a.store.engine.hasJobOf id = true) a.store.engine c.store.engine) :
    LaunchInv (a.change start c) := by
  have may : ∀ id, a.store.engine.hasJobOf id = true → Known a.store.engine id := by
    intro id has
    obtain ⟨job, there, own⟩ := List.any_eq_true.mp has
    have known := (inv.jobs job there).1
    rwa [show job.payload.executionId = id by simpa using own] at known
  constructor
  case jobs => exact shift.jobs may inv.jobs
  case actors =>
    intro event inside
    rw [World.change_length]
    exact Nat.lt_of_lt_of_le (inv.actors event inside) (Nat.le_add_right _ _)
  case known =>
    intro j v id there own
    rcases launch_change_cases starts there with ⟨t, before, _, body⟩ | ⟨_, fresh⟩
    · exact (inv.known before (body ▸ own)).shift shift
    · rw [fresh, launchStart_own] at own
      cases own
  case distinct =>
    intro j k v v' id left right own own'
    rcases launch_change_cases starts left with ⟨t, before, _, body⟩ | ⟨_, fresh⟩
    swap
    · rw [fresh, launchStart_own] at own
      cases own
    rcases launch_change_cases starts right with ⟨t', before', _, body'⟩ | ⟨_, fresh⟩
    swap
    · rw [fresh, launchStart_own] at own'
      cases own'
    exact inv.distinct before before' (body ▸ own) (body' ▸ own')
  case history =>
    intro j v there
    rcases launch_change_cases starts there with ⟨t, before, _, body⟩ | ⟨beyond, fresh⟩
    · rw [body]
      exact inv.history before
    · refine .fresh (fun event inside same => ?_) (by rw [fresh, launchStart_own])
      have bound := inv.actors event inside
      omega
  case jobless =>
    intro j v id there orphan
    rcases launch_change_cases starts there with ⟨t, before, _, body⟩ | ⟨_, fresh⟩
    · have jobless := inv.jobless before (body ▸ orphan)
      refine jobless.shift shift fun has => ?_
      rw [jobless.1] at has
      cases has
    · have own := LaunchStage.own_of_orphan orphan
      rw [fresh, launchStart_own] at own
      cases own
  case queued =>
    intro j v id there served
    rcases launch_change_cases starts there with ⟨t, before, _, body⟩ | ⟨_, fresh⟩
    · exact shift.hasJobOf (inv.queued before (body ▸ served))
    · rw [fresh] at served
      cases tag : v.tag <;> rw [tag] at served <;> cases served

end Runs

/-! ## Orphans -/

/-- The world before any call, over a store whose jobs are for executions that exist. -/
def beforeCalls (store : LaunchStore) : Launch := ⟨store, [], []⟩

def launchStages : Discipline LaunchIface LaunchTask (Option RunResult) :=
  movesDiscipline launch launchStart (fun _ => LaunchStage.Move) LaunchExit

theorem launchStages_starts (task : LaunchTask) :
    (launch.program task).Follows (launchStages.step task) (launchStages.ends task)
      (launchStages.start task) :=
  @Prog.Follows.marked LaunchIface LaunchTask (Option RunResult) LaunchStage
    (fun _ => LaunchStage.Move) LaunchExit task (launchProgram task) (launchStart task)
    (launch_follows task)

theorem LaunchInv.of_run {store : LaunchStore} {w : Launch}
    (known : ∀ job ∈ store.engine.jobs, job.IsKnown store.engine)
    (reached : launch.Run (fun _ _ => True) (beforeCalls store) w) :
    ∃ a, launchStages.Refines w a ∧ LaunchInv a := by
  have first : launchStages.Refines (beforeCalls store) ⟨store, [], []⟩ :=
    ⟨rfl, rfl, by simp [beforeCalls], by simp [beforeCalls]⟩
  refine System.Run.invariant launchStages_starts
    (fun inv refines _ _ _ there handled step => inv.run there handled step.2)
    (fun inv refines _ changed => inv.change (fun _ => rfl) (launchOutside_shift changed))
    first ?_ reached
  exact .fresh known

/-- What the call of thread `i` has answered with. -/
def answered (w : Launch) (i : Nat) : Option RunResult :=
  (w.threads[i]?).bind fun t => match t.body with
    | .pure r => r
    | _ => none

end Workflow
