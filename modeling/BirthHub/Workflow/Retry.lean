import BirthHub.Workflow.Deliveries

/-!
# Failures after a step is recorded

What BullMQ's retry of a job does when the job failed after it stored the result of its
step. The `catch` meets the unique key of that result and throws, so the job is delivered
again and starts from the beginning: it executes the step again, unless the execution is
cancelled or has reached its depth limit when the job reads it. `Barred` is that condition,
`Halted` the invariant of the runs in which it holds.
-/

namespace Workflow

open Data Effect

/-! ## The property -/

section Counts

variable {β : Type} (w : World RunnerIface Delivery Store β) (key : String)

/-- A call of `executeStep` by a delivery of the step. -/
def isExecution : Event RunnerIface → Bool
  | ⟨i, .executeStep _ _, _⟩ => decide (stepKeyOf w i = some key)
  | _ => false

/-- A first attempt of `target` that a delivery of the step has put on the queue. -/
def isEnqueue (target : String) : Event RunnerIface → Bool
  | ⟨i, .addJob job _, .ok _⟩ =>
      decide (stepKeyOf w i = some key) && decide (job.stepKey = target) &&
        decide (job.attempt = 1)
  | _ => false

def executions : Nat := w.trace.countP (isExecution w key)

def enqueues (target : String) : Nat := w.trace.countP (isEnqueue w key target)

end Counts

/-- BullMQ delivers the job no more. -/
def finished (w : Engine) (n : Nat) : Bool :=
  (w.store.jobs[n]?).any fun job => !job.state.isOpen

/-- In every continuation within `guard` the step is not executed again, and when job `n`
is finished each selected step has been enqueued exactly once. -/
def Tolerant (rt : Runtime) (guard : Engine → Act Choice Outside → Prop) (w : Engine) (n : Nat)
    (key : String) (selected : List WorkflowStep) : Prop :=
  ∀ w' : Engine, (engine rt).Run guard w w' →
    executions w' key = executions w key ∧
      (finished w' n → ∀ target ∈ selected, enqueues w' key target.key = 1)

/-- Delivery `i` has stored the result of its step, executed with this output, and then an
operation fails, while BullMQ has a retry of the job left. -/
structure FailsRecorded (rt : Runtime) (w w₁ : Engine) (i : Nat)
    (t : Thread Delivery (Prog RunnerIface Unit)) (output : Option Json) : Prop where
  there : w.threads[i]? = some t
  recorded : ∃ row, Recorded w.trace i row
  executed : Executed w.trace i output
  fails : ∃ choice o e, (engine rt).step w (.run i choice) = some w₁ ∧
    w₁.trace = ⟨i, o, .error e⟩ :: w.trace ∧ ∀ row, o ≠ .createStepResult row
  retried : ∃ job, w.store.jobs[t.tag.job]? = some job ∧ job.attemptsMade + 1 < JOB_ATTEMPTS

/-- In runs within `guard`, a job that fails after its step is recorded is retried without
executing the step again, and its successors are enqueued once. -/
def FailureTolerant (rt : Runtime) (guard : Engine → Act Choice Outside → Prop) (w₀ : Engine)
    (workflow : Definition) : Prop :=
  ∀ (w w₁ : Engine) (i : Nat) (t : Thread Delivery (Prog RunnerIface Unit))
    (output : Option Json) (step : WorkflowStep),
    (engine rt).Run guard w₀ w → FailsRecorded rt w w₁ i t output →
    workflow.steps.find? (·.key = t.tag.payload.stepKey) = some step →
    Tolerant rt guard w₁ t.tag.job step.key
      (successors workflow (nextTransitions workflow step output false))

/-- A job that reads the execution now does not execute its step. -/
def Barred (workflow : Definition) (store : Store) (x : String) : Prop :=
  ∃ row, store.execution x = some row ∧
    (row.status = .CANCELLED ∨ maxDepth workflow ≤ row.depth)

/-- No other delivery than `i` is between its first read and its end. -/
def Alone (w : Engine) (i : Nat) : Prop :=
  ∀ (j : Nat) (t : Thread Delivery (Prog RunnerIface Unit)), w.threads[j]? = some t → j ≠ i →
    t.body.outcome ≠ .running ∨ ∃ id, t.body.pending = some (.findExecution id)

/-- The condition: the successors are enqueued already, and the retry will be barred. -/
def Stopped (w : Engine) (workflow : Definition) (x key : String)
    (selected : List WorkflowStep) : Prop :=
  (∀ target ∈ selected, enqueues w key target.key = 1) ∧ Barred workflow w.store x

/-! ## Counting -/

section Counting

variable {β β' : Type} {w : World RunnerIface Delivery Store β}
  {w' : World RunnerIface Delivery Store β'} {key target : String} {events : List (Event RunnerIface)}

theorem isExecution_congr {event : Event RunnerIface}
    (same : stepKeyOf w' event.actor = stepKeyOf w event.actor) :
    isExecution w' key event = isExecution w key event := by
  rcases event with ⟨i, o, answer⟩
  cases o <;> first | rfl | simp only [isExecution, same]

theorem isEnqueue_congr {event : Event RunnerIface}
    (same : stepKeyOf w' event.actor = stepKeyOf w event.actor) :
    isEnqueue w' key target event = isEnqueue w key target event := by
  rcases event with ⟨i, o, answer⟩
  cases o <;> cases answer <;> first | rfl | simp only [isEnqueue, same]

/-- Executions in a longer trace, as long as the deliveries keep their steps. -/
theorem executions_append (trace : w'.trace = events ++ w.trace)
    (same : ∀ event ∈ w.trace, stepKeyOf w' event.actor = stepKeyOf w event.actor) :
    executions w' key = events.countP (isExecution w' key) + executions w key := by
  rw [executions, trace, List.countP_append, executions, Nat.add_left_cancel_iff]
  exact List.countP_congr fun event there => by rw [isExecution_congr (same event there)]

theorem enqueues_append (trace : w'.trace = events ++ w.trace)
    (same : ∀ event ∈ w.trace, stepKeyOf w' event.actor = stepKeyOf w event.actor) :
    enqueues w' key target = events.countP (isEnqueue w' key target) + enqueues w key target := by
  rw [enqueues, trace, List.countP_append, enqueues, Nat.add_left_cancel_iff]
  exact List.countP_congr fun event there => by rw [isEnqueue_congr (same event there)]

/-- Nothing is executed or enqueued between `w` and `w'`. -/
structure SameCounts (w' : World RunnerIface Delivery Store β')
    (w : World RunnerIface Delivery Store β) : Prop where
  executions : ∀ key, executions w' key = executions w key
  enqueues : ∀ key target, enqueues w' key target = enqueues w key target

theorem SameCounts.refl (w : World RunnerIface Delivery Store β) : SameCounts w w :=
  ⟨fun _ => rfl, fun _ _ => rfl⟩

theorem SameCounts.symm (same : SameCounts w' w) : SameCounts w w' :=
  ⟨fun key => (same.executions key).symm, fun key target => (same.enqueues key target).symm⟩

theorem SameCounts.trans {γ : Type} {w'' : World RunnerIface Delivery Store γ}
    (second : SameCounts w'' w') (first : SameCounts w' w) : SameCounts w'' w :=
  ⟨fun key => (second.executions key).trans (first.executions key),
    fun key target => (second.enqueues key target).trans (first.enqueues key target)⟩

theorem SameCounts.of_append (trace : w'.trace = events ++ w.trace)
    (same : ∀ event ∈ w.trace, stepKeyOf w' event.actor = stepKeyOf w event.actor)
    (unexecuted : ∀ event ∈ events, ∀ parsed context, event.op ≠ .executeStep parsed context)
    (unadded : ∀ event ∈ events, ∀ job options, event.op ≠ .addJob job options) :
    SameCounts w' w := by
  constructor
  · intro key
    rw [executions_append trace same, Nat.add_eq_right, List.countP_eq_zero]
    intro event there
    have other := unexecuted event there
    rcases event with ⟨i, o, answer⟩
    cases o <;> first | exact (other _ _ rfl).elim | simp [isExecution]
  · intro key target
    rw [enqueues_append trace same, Nat.add_eq_right, List.countP_eq_zero]
    intro event there
    have other := unadded event there
    rcases event with ⟨i, o, answer⟩
    cases o <;> first | exact (other _ _ rfl).elim | simp [isEnqueue]

/-- The counts are the same seen from the programs and from the stages. -/
theorem SameCounts.of_refines {rt : Runtime} {w : Engine} {a : Stages}
    (refines : (stages rt).Refines w a) : SameCounts w a :=
  have trace : w.trace = [] ++ a.trace := refines.trace.symm
  .of_append trace (fun event _ => congrFun (stepKeyOf_refines refines) _) (by simp) (by simp)

end Counting

/-! ## Barred executions -/

/-- The execution has reached the depth limit of its workflow. -/
def Exhausted (workflow : Definition) (store : Store) (x : String) : Prop :=
  ∃ row, store.execution x = some row ∧ maxDepth workflow ≤ row.depth

/-- The stages of a delivery that executes no step any more. -/
def Stage.IsHalted (workflow : Definition) (store : Store) (x : String)
    (p : WorkflowExecutionJobPayload) : Stage → Prop
  | .guard | .returned | .threw => True
  | .guarded e => maxDepth workflow ≤ e.depth ∧ Exhausted workflow store x
  | .failing => Exhausted workflow store x
  | .catching c => store.hasResult x c.step.id p.attempt = true
  | _ => False

/-- Every read of the execution is barred, and every delivery that has read it will end
without executing or enqueuing a step. -/
structure Halted (workflow : Definition) (x : String) (a : Stages) : Prop where
  barred : Barred workflow a.store x
  threads : ∀ {i : Nat} {u : Thread Delivery Stage}, a.threads[i]? = some u →
    u.body.IsHalted workflow a.store x u.tag.payload

section Halting

variable {rt : Runtime} {workflow : Definition} {x : String} {a : Stages} {i : Nat}
  {u : Thread Delivery Stage} {o : RunnerOp} {choice : Choice}
  {answer : RunnerIface.Answer o} {store : Store} {s' : Stage}

theorem Stage.IsHalted.mono {store' : Store} {p : WorkflowExecutionJobPayload} {s : Stage}
    (exhausted : Exhausted workflow store x → Exhausted workflow store' x)
    (results : store'.stepResults = store.stepResults) (halted : s.IsHalted workflow store x p) :
    s.IsHalted workflow store' x p := by
  cases s with
  | guarded e => exact ⟨halted.1, exhausted halted.2⟩
  | failing => exact exhausted halted
  | catching c =>
      rw [Stage.IsHalted, Store.hasResult, results]
      exact halted
  | _ => exact halted

/-- Writing the status of an exhausted execution leaves it exhausted. -/
theorem Exhausted.update {id : String} {data : ExecutionUpdate} (keeps : data.depth = none)
    (exhausted : Exhausted workflow store x) :
    Exhausted workflow (store.updateExecution id data) x := by
  obtain ⟨row, found, deep⟩ := exhausted
  rw [Exhausted, Store.execution_updateExecution, found]
  by_cases same : x = id
  · refine ⟨data.apply row, by simp [same], ?_⟩
    simpa [ExecutionUpdate.apply, keeps] using deep
  · exact ⟨row, by simp [same], deep⟩

theorem Exhausted.barred (exhausted : Exhausted workflow store x) : Barred workflow store x := by
  obtain ⟨row, found, deep⟩ := exhausted
  exact ⟨row, found, .inr deep⟩

/-- What a halted delivery does: nothing but to end, or to set the status of an exhausted
execution. -/
theorem Halted.step (tidy : Tidy workflow x a) (halted : Halted workflow x a)
    (there : a.threads[i]? = some u) (answered : a.store.handle o choice = (answer, store))
    (step : u.body.Step rt u.tag.payload o answer s') :
    s'.IsHalted workflow store x u.tag.payload ∧
      (store = a.store ∨ ∃ id data, data.depth = none ∧ Exhausted workflow a.store x ∧
        store = a.store.updateExecution id data) ∧
      (∀ parsed context, o ≠ .executeStep parsed context) ∧
      ∀ job options, o ≠ .addJob job options := by
  obtain ⟨row, found, barred⟩ := halted.barred
  obtain ⟨ownExecution, ownWorkflow, ownTenant⟩ := tidy.payload there
  have own := halted.threads there
  generalize u.body = s at step own
  have awaits := step.awaits
  cases answer with
  | error e =>
      obtain rfl := step.2
      rw [Store.handle_error answered]
      cases s with
      | guard | guarded e | failing | catching c =>
          refine ⟨trivial, .inl rfl, ?_, ?_⟩ <;> rintro _ _ rfl <;> simp [Stage.Awaits] at awaits
      | returned | threw => exact awaits.elim
      | _ => exact own.elim
  | ok r =>
      cases step.2 with
      | missing | cancelled _ =>
          rw [Store.handle_read rfl answered]
          exact ⟨trivial, .inl rfl, by simp, by simp⟩
      | @admitted id e status =>
          cases awaits
          have read := Store.handle_findExecution answered
          rw [ownExecution, found] at read
          cases Option.some.inj read
          rw [Store.handle_read rfl answered]
          have deep := barred.resolve_left status
          exact ⟨⟨deep, row, found, deep⟩, .inl rfl, by simp, by simp⟩
      | undefined | exhausted _ | unknown _ =>
          rw [Store.handle_read rfl answered]
          exact ⟨own.2, .inl rfl, by simp, by simp⟩
      | known depth find =>
          cases awaits
          have read := Store.handle_findWorkflow answered
          rw [ownWorkflow, ownTenant, tidy.stored] at read
          cases Option.some.inj read
          exact absurd own.1 (not_le.mpr depth)
      | clock _ =>
          rw [Store.handle_read (o := .now) rfl answered]
          exact ⟨own, .inl rfl, by simp, by simp⟩
      | failed =>
          rcases awaits with awaits | ⟨t, m, awaits⟩ <;> cases awaits
          exact ⟨trivial, .inr ⟨_, _, rfl, own, Store.handle_updateExecution answered⟩, by simp,
            by simp⟩
      | retry | fallback | finish =>
          -- The row of the failure is in the way.
          obtain ⟨row', same, isRow, _⟩ := awaits
          cases same
          have fresh := (Store.handle_createStepResult answered).1
          rw [isRow.executionId, isRow.stepId, isRow.attempt, ownExecution] at fresh
          rw [Stage.IsHalted, fresh] at own
          cases own
      | _ => exact own.elim

theorem Halted.run (tidy : Tidy workflow x a) (halted : Halted workflow x a)
    (there : a.threads[i]? = some u) (answered : a.store.handle o choice = (answer, store))
    (step : u.body.Step rt u.tag.payload o answer s') :
    Halted workflow x (a.advance i s' store ⟨i, o, answer⟩) := by
  obtain ⟨own, stores, _⟩ := halted.step tidy there answered step
  have exhausted : Exhausted workflow a.store x → Exhausted workflow store x := by
    intro before
    rcases stores with rfl | ⟨id, data, keeps, _, rfl⟩
    · exact before
    · exact before.update keeps
  have results : store.stepResults = a.store.stepResults := by
    rcases stores with rfl | ⟨id, data, _, _, rfl⟩ <;> rfl
  constructor
  · rw [World.advance_store]
    rcases stores with rfl | ⟨id, data, keeps, deep, rfl⟩
    · exact halted.barred
    · exact (deep.update keeps).barred
  · intro j v after
    rcases World.advance_cases there after with ⟨rfl, rfl⟩ | ⟨_, before⟩
    · exact own
    · exact (halted.threads before).mono exhausted results

theorem Halted.env {event : Outside} {c : Change Delivery Store} (halted : Halted workflow x a)
    (calm : ∀ n, event ≠ .stall n)
    (changed : outside event a.store (a.threads.map (Thread.map Stage.progress)) = some c) :
    Halted workflow x (a.change (fun _ => .guard) c) := by
  have change : ∀ {c : Change Delivery Store}, Barred workflow c.store x →
      (Exhausted workflow a.store x → Exhausted workflow c.store x) →
      c.store.stepResults = a.store.stepResults →
      Halted workflow x (a.change (fun _ => .guard) c) := by
    intro c barred exhausted results
    refine ⟨barred, fun {j v} after => ?_⟩
    rcases World.change_cases after with ⟨t, before, rfl⟩ | ⟨tag, _, _, rfl⟩
    · exact (halted.threads before).mono exhausted results
    · trivial
  rcases outside_cases calm changed with ⟨n, job, _, _, rfl⟩ | ⟨k, t, _, _, _, rfl⟩ |
    ⟨id, rfl⟩ | ⟨quotas, rfl⟩
  · exact change halted.barred (fun deep => deep) rfl
  · exact change halted.barred (fun deep => deep) rfl
  · refine change ?_ (fun deep => deep.update rfl) rfl
    obtain ⟨row, found, barred⟩ := halted.barred
    rw [Barred, Store.execution_updateExecution, found]
    by_cases same : x = id
    · exact ⟨_, by simp [same]; rfl, .inl rfl⟩
    · exact ⟨row, by simp [same], barred⟩
  · exact change halted.barred (fun deep => deep) rfl

/-- A step of a halted delivery executes and enqueues nothing. -/
theorem Halted.counts_run (tidy : Tidy workflow x a) (halted : Halted workflow x a)
    (there : a.threads[i]? = some u) (answered : a.store.handle o choice = (answer, store))
    (step : u.body.Step rt u.tag.payload o answer s') :
    SameCounts (a.advance i s' store ⟨i, o, answer⟩) a := by
  obtain ⟨_, _, unexecuted, unadded⟩ := halted.step tidy there answered step
  have trace : (a.advance i s' store ⟨i, o, answer⟩).trace = [⟨i, o, answer⟩] ++ a.trace := rfl
  exact .of_append trace (fun event _ => congrFun stepKeyOf_advance _) (by simpa using unexecuted)
    (by simpa using unadded)

theorem SameCounts.env {c : Change Delivery Store} (tidy : Tidy workflow x a) :
    SameCounts (a.change (fun _ => Stage.guard) c) a := by
  have trace : (a.change (fun _ => Stage.guard) c).trace = [] ++ a.trace := rfl
  exact .of_append trace (fun event there => stepKeyOf_change (tidy.actors event there))
    (by simp) (by simp)

end Halting

/-! ## Stored results are kept -/

/-- The stages that a delivery reaches by storing a failure. -/
def Stage.isRecovering : Stage → Bool
  | .retrying _ | .falling .. | .finishing _ => true
  | _ => false

/-- The row that a delivery at stage `s` has recorded is stored for its step and attempt,
so that it cannot store a failure. -/
structure Stage.Keeps (s : Stage) (store : Store) (p : WorkflowExecutionJobPayload)
    (row : StepResult) : Prop where
  unrecovering : s.isRecovering = false
  present : row ∈ store.stepResults
  executionId : row.executionId = p.executionId
  attempt : row.attempt = p.attempt
  stepId : ∀ c, s.context = some c → row.stepId = c.step.id

/-- The execution is there, and each delivery has parsed its step before it executes it and
keeps what it recorded. -/
structure Kept (rt : Runtime) (x : String) (a : Stages) : Prop where
  execution : (a.store.execution x).isSome
  recorded : ∀ {i : Nat} {u : Thread Delivery Stage} {row : StepResult},
    a.threads[i]? = some u → Recorded a.trace i row → u.body.Keeps a.store u.tag.payload row
  parsed : ∀ {i : Nat} {u : Thread Delivery Stage} {c : JobContext}, a.threads[i]? = some u →
    u.body.context = some c → u.body ≠ .preparing c → (rt.parseStep (stepInput c.step)).isOk

section Keeping

variable {rt : Runtime} {workflow : Definition} {x : String} {a : Stages} {i j : Nat}
  {u : Thread Delivery Stage} {o : RunnerOp} {choice : Choice}
  {answer : RunnerIface.Answer o} {store : Store} {s s' : Stage}
  {p : WorkflowExecutionJobPayload} {row : StepResult}

/-- A delivery recovers only by storing the row of its failure. -/
theorem Stage.Step.recovers {r : o.Result} (step : s.Step rt p o (.ok r) s')
    (recovering : s'.isRecovering) :
    s.isRecovering ∨ ∃ c row, s = .catching c ∧ o = .createStepResult row ∧ IsRow p c row := by
  have awaits := step.awaits
  cases step.2 with
  | clock _ => exact .inl recovering
  | retry | finish | fallback =>
      obtain ⟨row, same, isRow, _⟩ := awaits
      exact .inr ⟨_, row, rfl, same, isRow⟩
  | fell => exact .inl rfl
  | routed | enqueued =>
      rcases Stage.afterEnqueue_cases _ _ with ⟨_, same⟩ | ⟨_, same⟩ <;> rw [same] at recovering <;>
        cases recovering
  | _ => cases recovering

/-- What a delivery has just recorded is the row of its step and attempt. -/
theorem Stage.Step.records {r : Unit} (step : s.Step rt p (.createStepResult row) (.ok r) s')
    (succeeded : row.status ≠ .FAILED) :
    ∃ c output, s' = .recorded c output ∧ IsRow p c row := by
  have awaits := step.awaits
  cases step.2 with
  | stored =>
      obtain ⟨row, same, isRow, _⟩ := awaits
      cases same
      exact ⟨_, _, rfl, isRow⟩
  | retry | finish | fallback =>
      obtain ⟨row, same, _, failed⟩ := awaits
      cases same
      exact (succeeded failed).elim

theorem Stage.Step.keeps (step : s.Step rt p o answer s')
    (answered : a.store.handle o choice = (answer, store)) (history : History a.trace i s)
    (recorded : Recorded a.trace i row) (keeps : s.Keeps a.store p row) :
    s'.Keeps store p row := by
  have context : ∀ c, s'.context = some c → row.stepId = c.step.id := by
    intro c after
    rcases step.context answered after with before | ⟨⟨guarded, _⟩, _⟩
    · exact keeps.stepId c before
    · rw [guarded] at history
      exact (history.2 row recorded).elim
  refine ⟨?_, Store.handle_results step.uncreated answered row keeps.present, keeps.executionId,
    keeps.attempt, context⟩
  rw [← Bool.not_eq_true]
  intro recovering
  cases answer with
  | error e =>
      rw [step.2] at recovering
      cases s <;> cases recovering
  | ok r =>
      rcases step.recovers recovering with already | ⟨c, row', rfl, rfl, isRow⟩
      · rw [keeps.unrecovering] at already
        cases already
      · -- The recorded row is in the way of the failure.
        have fresh := (Store.handle_createStepResult answered).1
        have taken : a.store.hasResult row'.executionId row'.stepId row'.attempt = true := by
          refine List.any_eq_true.mpr ⟨row, keeps.present, ?_⟩
          simp [keeps.executionId, keeps.attempt, keeps.stepId c rfl, isRow.executionId,
            isRow.stepId, isRow.attempt]
        rw [taken] at fresh
        cases fresh

theorem Stage.Step.parsed {c : JobContext} (step : s.Step rt p o answer s')
    (before : ∀ c, s.context = some c → s ≠ .preparing c →
      (rt.parseStep (stepInput c.step)).isOk)
    (context : s'.context = some c) (later : s' ≠ .preparing c) :
    (rt.parseStep (stepInput c.step)).isOk := by
  cases answer with
  | error e =>
      rw [step.2] at context
      cases s <;> first | exact before _ context (by simp) | cases context
  | ok r =>
      cases step.2 with
      | parsed parse =>
          cases context
          rw [parse]
          rfl
      | clock _ => exact before _ context later
      | known =>
          cases context
          exact (later rfl).elim
      | routed | enqueued | fallback | fell =>
          rcases Stage.afterEnqueue_cases _ _ with ⟨_, same⟩ | ⟨_, same⟩ <;> rw [same] at context
          · cases context
          · exact before _ context (by simp)
      | _ => first | exact before _ context (by simp) | cases context

theorem Kept.run (tidy : Tidy workflow x a) (kept : Kept rt x a) (there : a.threads[i]? = some u)
    (answered : a.store.handle o choice = (answer, store))
    (step : u.body.Step rt u.tag.payload o answer s') :
    Kept rt x (a.advance i s' store ⟨i, o, answer⟩) := by
  have results := Store.handle_results step.uncreated answered
  constructor
  · rcases Store.handle_execution x step.uncreated answered with same | ⟨data, _, same⟩
    · rw [World.advance_store, same]
      exact kept.execution
    · rw [World.advance_store, same, Option.isSome_map]
      exact kept.execution
  · intro j v row after recorded
    rw [World.advance_store]
    rcases recorded_cons.mp recorded with ⟨same, succeeded⟩ | before
    · cases same
      rw [World.advance_self there] at after
      cases Option.some.inj after
      obtain ⟨c, output, rfl, isRow⟩ := step.records succeeded
      have stored := (Store.handle_createStepResult answered).2
      refine ⟨rfl, by rw [stored]; simp, isRow.executionId, isRow.attempt, fun c' same => ?_⟩
      cases same
      exact isRow.stepId
    · rcases World.advance_cases there after with ⟨rfl, rfl⟩ | ⟨_, found⟩
      · exact step.keeps answered (tidy.history there) before (kept.recorded there before)
      · have keeps := kept.recorded found before
        exact { keeps with present := results row keeps.present }
  · intro j v c after context later
    rcases World.advance_cases there after with ⟨rfl, rfl⟩ | ⟨_, found⟩
    · exact step.parsed (fun c => kept.parsed there) context later
    · exact kept.parsed found context later

theorem Kept.env {event : Outside} {c : Change Delivery Store} (tidy : Tidy workflow x a)
    (kept : Kept rt x a) (calm : ∀ n, event ≠ .stall n)
    (changed : outside event a.store (a.threads.map (Thread.map Stage.progress)) = some c) :
    Kept rt x (a.change (fun _ => .guard) c) := by
  have results : c.store.stepResults = a.store.stepResults := by
    rcases outside_cases calm changed with ⟨n, job, _, _, rfl⟩ | ⟨k, t, _, _, _, rfl⟩ |
      ⟨id, rfl⟩ | ⟨quotas, rfl⟩ <;> rfl
  constructor
  · rcases outside_cases calm changed with ⟨n, job, _, _, rfl⟩ | ⟨k, t, _, _, _, rfl⟩ |
      ⟨id, rfl⟩ | ⟨quotas, rfl⟩
    · exact kept.execution
    · exact kept.execution
    · rw [World.change_store, Store.execution_updateExecution]
      split
      · rw [Option.isSome_map]
        exact kept.execution
      · exact kept.execution
    · exact kept.execution
  · intro j v row after recorded
    rcases World.change_cases after with ⟨t, before, rfl⟩ | ⟨tag, beyond, _, rfl⟩
    · have keeps := kept.recorded before recorded
      exact { keeps with present := by rw [World.change_store, results]; exact keeps.present }
    · exact absurd (tidy.actors _ recorded.1) (not_lt.mpr beyond)
  · intro j v c after context later
    rcases World.change_cases after with ⟨t, before, rfl⟩ | ⟨tag, _, _, rfl⟩
    · exact kept.parsed before context later
    · cases context

theorem Kept.of_started {first : WorkflowStep} (started : Started store workflow first x) :
    Kept rt x ⟨store, [], []⟩ := by
  obtain ⟨row, found, _⟩ := started.execution
  constructor <;> intros <;> simp_all

theorem Kept.of_run {first : WorkflowStep} {store : Store} {w : Engine}
    (started : Started store workflow first x)
    (reached : (engine rt).Run (fun w act => calm w act) (idle store) w) :
    ∃ a, (stages rt).Refines w a ∧ Tidy workflow x a ∧ Kept rt x a := by
  have start : (stages rt).Refines (idle store) ⟨store, [], []⟩ := ⟨rfl, rfl, rfl, by simp [idle]⟩
  refine System.Run.invariant (engine_follows rt)
    (fun inv refines allowed found pending there answered step => ?_)
    (fun inv refines allowed changed => ?_) start
    ⟨.of_started started, .of_started started⟩ reached
  · exact ⟨inv.1.run there (Option.some.inj answered) step,
      inv.2.run inv.1 there (Option.some.inj answered) step⟩
  · exact ⟨inv.1.env (not_stall_of_calm allowed) changed,
      inv.2.env inv.1 (not_stall_of_calm allowed) changed⟩

/-- A delivery that fails after its step is recorded is in its `catch`, where the recorded
row is in the way of the one of the failure. -/
theorem Kept.fails {e : Thrown} (tidy : Tidy workflow x a) (kept : Kept rt x a)
    (there : a.threads[i]? = some u) (recorded : Recorded a.trace i row)
    (step : u.body.Step rt u.tag.payload o (.error e) s')
    (later : ∀ row, o ≠ .createStepResult row) :
    ∃ c, s' = .catching c ∧ u.body.context = some c ∧ u.body ≠ .preparing c ∧
      a.store.hasResult x c.step.id u.tag.payload.attempt = true := by
  have keeps := kept.recorded there recorded
  have history := tidy.history there
  have own := (tidy.payload there).1
  have has : ∀ c, u.body.context = some c →
      a.store.hasResult x c.step.id u.tag.payload.attempt = true := by
    intro c context
    refine List.any_eq_true.mpr ⟨row, keeps.present, ?_⟩
    simp [keeps.executionId, own, keeps.stepId c context, keeps.attempt]
  have unrecovering := keeps.unrecovering
  rw [step.2]
  have awaits := step.awaits
  generalize u.body = s at awaits history has unrecovering
  cases s with
  | recorded c output | completing c | enqueuing c remaining =>
      exact ⟨c, rfl, rfl, by simp, has c rfl⟩
  | produced c output =>
      obtain ⟨row', rfl, _⟩ := awaits
      exact (later row' rfl).elim
  | catching c =>
      obtain ⟨row', rfl, _⟩ := awaits
      exact (later row' rfl).elim
  | retrying | falling | finishing => cases unrecovering
  | returned | threw => exact awaits.elim
  | _ => exact (history.2 row recorded).elim

end Keeping

/-! ## The retry -/

/-- Nothing fails by itself, and no running job is delivered again. -/
def undisturbed (w : Engine) (act : Act Choice Outside) : Bool := calm w act && faultless w act

/-- What a delivery does alone before it executes its step, or instead of it. -/
def Unenqueued (o : RunnerOp) (choice : Choice) : Prop :=
  choice.fault = none ∧ ∀ job options, o ≠ .addJob job options

section Retrying

variable {rt : Runtime} {workflow : Definition} {x : String} {store store' : Store}
  {p : WorkflowExecutionJobPayload} {row : WorkflowExecution}

theorem prefix_await {α : Type} {o : RunnerOp} {f : o.Result → Prog RunnerIface α}
    {choice : Choice} {r : o.Result} {q : Prog RunnerIface α} {store'' : Store}
    (faultless : choice.fault = none) (unadded : ∀ job options, o ≠ .addJob job options)
    (answered : store.handle o choice = (.ok r, store'))
    (rest : (engine rt).Prefix Unenqueued (f r) store' q store'') :
    (engine rt).Prefix Unenqueued (await o >>= f) store q store'' :=
  .trans (System.Prefix.performBind (I := RunnerIface) ⟨faultless, unadded⟩
    (congrArg some answered)) rest

theorem prefix_cancelled (found : store.execution p.executionId = some row)
    (cancelled : row.status = .CANCELLED) :
    (engine rt).Prefix Unenqueued (processExecutionJob rt p) store (.pure ()) store := by
  have read : store.handle (.findExecution p.executionId) {} = (.ok (some row), store) := by
    simp [Store.handle, Store.perform, found]
  refine prefix_await rfl (by simp) read ?_
  simp only [cancelled, if_true]
  exact .refl

theorem prefix_exhausted (found : store.execution p.executionId = some row)
    (active : row.status ≠ .CANCELLED)
    (stored : store.workflow p.workflowId p.tenantId = some workflow)
    (deep : maxDepth workflow ≤ row.depth) :
    ∃ store', (engine rt).Prefix Unenqueued (processExecutionJob rt p) store (.pure ()) store' ∧
      store'.jobs = store.jobs := by
  have read : store.handle (.findExecution p.executionId) {} = (.ok (some row), store) := by
    simp [Store.handle, Store.perform, found]
  have readWorkflow : store.handle (.findWorkflow p.workflowId p.tenantId) {} =
      (.ok (some workflow), store) := by
    simp [Store.handle, Store.perform, stored]
  have clock : store.handle .now {} = (.ok (0 : Int), store) := rfl
  have updates : ∀ data, store.handle (.updateExecution p.executionId data) {} =
      (.ok (), store.updateExecution p.executionId data) := by
    intro data
    simp [Store.handle, Store.perform, found]
  refine ⟨store.updateExecution p.executionId {
    completedAt := some 0
    errorMessage := some s!"Execution reached max_depth={maxDepth workflow}."
    status := some .FAILED }, ?_, rfl⟩
  refine prefix_await rfl (by simp) read ?_
  simp only [active, if_false]
  refine prefix_await rfl (by simp) readWorkflow ?_
  simp only [ge_iff_le, deep, if_true]
  refine prefix_await rfl (by simp) clock ?_
  exact .op ⟨rfl, by simp⟩ (congrArg some (updates _)) .refl

/-- Alone and with the store as it is, the program goes on to execute a step. -/
def Executes (rt : Runtime) {α : Type} (q : Prog RunnerIface α) (store : Store) : Prop :=
  ∃ parsed context k,
    (engine rt).Prefix Unenqueued q store (.op (.executeStep parsed context) k) store

theorem Executes.await {α : Type} {o : RunnerOp} {f : o.Result → Prog RunnerIface α}
    {r : o.Result} (answered : store.handle o {} = (.ok r, store))
    (unadded : ∀ job options, o ≠ .addJob job options) (rest : Executes rt (f r) store) :
    Executes rt (await o >>= f) store := by
  obtain ⟨parsed, context, k, goes⟩ := rest
  exact ⟨parsed, context, k, prefix_await rfl unadded answered goes⟩

theorem Executes.bind {α β : Type} {q : Prog RunnerIface α} {f : α → Prog RunnerIface β}
    (first : Executes rt q store) : Executes rt (q.bind f) store := by
  obtain ⟨parsed, context, k, goes⟩ := first
  exact ⟨parsed, context, _, goes.bind⟩

theorem Executes.tryCatch {α : Type} {q : Prog RunnerIface α} {h : Thrown → Prog RunnerIface α}
    (first : Executes rt q store) : Executes rt (q.tryCatch h) store := by
  obtain ⟨parsed, context, k, goes⟩ := first
  exact ⟨parsed, context, _, System.Prefix.tryCatch goes⟩

/-- Without a cache, and without a quota in the way, the `try` executes the step. -/
theorem obtainOutput_executes {step : WorkflowStep} {parsed steps : Json} {hash : String}
    (uncached : step.cacheTTLSeconds = none) (quotas : store.quotas = []) :
    Executes rt (obtainOutput p step parsed steps hash) store := by
  have readQuota : store.handle (.findQuota p.tenantId) {} =
      (.ok (none : Option QuotaUsage), store) := by
    simp [Store.handle, Store.perform, Store.quota, quotas]
  have free : (engine rt).Prefix Unenqueued (consumeSharedAgentBudget p.tenantId) store
      (.pure ()) store := prefix_await rfl (by simp) readQuota .refl
  have cacheless : findCachedOutput p step hash = pure none := by
    simp [findCachedOutput, uncached]
  rw [obtainOutput, cacheless]
  by_cases agent : step.type = .AGENT_EXECUTE
  · simp only [agent]
    exact ⟨_, _, _, free.bind⟩
  · simp only [agent]
    exact ⟨_, _, _, .refl⟩

/-- A job that is not barred goes on to execute its step. -/
theorem processExecutionJob_executes {step : WorkflowStep}
    (found : store.execution p.executionId = some row) (active : row.status ≠ .CANCELLED)
    (stored : store.workflow p.workflowId p.tenantId = some workflow)
    (shallow : row.depth < maxDepth workflow)
    (find : workflow.steps.find? (·.key = p.stepKey) = some step)
    (parses : (rt.parseStep (stepInput step)).isOk) (uncached : step.cacheTTLSeconds = none)
    (quotas : store.quotas = []) : Executes rt (processExecutionJob rt p) store := by
  have read : store.handle (.findExecution p.executionId) {} = (.ok (some row), store) := by
    simp [Store.handle, Store.perform, found]
  have readWorkflow : store.handle (.findWorkflow p.workflowId p.tenantId) {} =
      (.ok (some workflow), store) := by
    simp [Store.handle, Store.perform, stored]
  have clock : store.handle .now {} = (.ok (0 : Int), store) := rfl
  obtain ⟨rows, readResults⟩ : ∃ rows, store.handle (.findStepResults p.executionId) {} =
      (.ok rows, store) := ⟨_, rfl⟩
  cases parse : rt.parseStep (stepInput step) with
  | error e =>
      rw [parse] at parses
      cases parses
  | ok parsed =>
      refine .await read (by simp) ?_
      simp only [active, if_false]
      refine .await readWorkflow (by simp) ?_
      simp only [ge_iff_le, not_le.mpr shallow, if_false, find]
      refine .await readResults (by simp) ?_
      simp only [parse, Prog.ofExcept]
      refine .await clock (by simp) ?_
      exact .tryCatch (.bind (obtainOutput_executes uncached quotas))

end Retrying

/-! ## From the failure to the retry -/

section Redelivery

variable {rt : Runtime} {workflow : Definition} {x : String} {w : Engine} {a : Stages} {i : Nat}
  {u : Thread Delivery Stage} {t : Thread Delivery (Prog RunnerIface Unit)} {job : Job}

/-- In the `catch`, with a row for the attempt in the way, the job throws. -/
theorem rethrows {c : JobContext} (refines : (stages rt).Refines w a) (tidy : Tidy workflow x a)
    (there : a.threads[i]? = some u) (found : w.threads[i]? = some t)
    (catching : u.body = .catching c)
    (taken : a.store.hasResult x c.step.id u.tag.payload.attempt = true) :
    ∃ e row answer, (engine rt).step w (.run i ({} : Choice)) =
      some (w.advance i (.throw e) w.store ⟨i, .createStepResult row, answer⟩) := by
  obtain ⟨sameTag, _, follows⟩ := refines.follows found there
  rw [catching] at follows
  rcases t with ⟨tag, body, settled⟩
  cases body with
  | pure r => cases follows
  | throw e => cases follows
  | op o k =>
      obtain ⟨s', step, _⟩ := follows (.error default)
      have moved : (Stage.catching c).Step rt tag.payload o (.error default) s' := step
      obtain ⟨row, rfl, isRow, _⟩ := moved.awaits
      have blocked : w.store.handle (.createStepResult row) {} =
          (.error (uniqueViolation "(executionId,stepId,attempt)"), w.store) := by
        rw [show tag = u.tag from sameTag.symm] at isRow
        have clash : w.store.hasResult row.executionId row.stepId row.attempt = true := by
          rw [isRow.executionId, isRow.stepId, isRow.attempt, (tidy.payload there).1,
            ← refines.store]
          exact taken
        simp [Store.handle, Store.perform, clash]
      obtain ⟨s', step, rest⟩ := follows (.error (uniqueViolation "(executionId,stepId,attempt)"))
      rw [show s' = .threw from step.2] at rest
      generalize body : k (.error (uniqueViolation "(executionId,stepId,attempt)")) = q at rest
      cases q with
      | pure r => cases rest
      | throw e =>
          refine ⟨e, row, .error (uniqueViolation "(executionId,stepId,attempt)"), ?_⟩
          rw [← body]
          simp only [System.step, found]
          rw [show (engine rt).handle (.createStepResult row) {} w.store = some _ from
            congrArg some blocked]
          rfl
      | op o' k' =>
          obtain ⟨s'', step', _⟩ := rest (.error default)
          have moved' : Stage.threw.Step rt tag.payload o' (.error default) s'' := step'
          exact moved'.awaits.elim

theorem settles (rt : Runtime) (found : w.threads[i]? = some t) (ended : t.body.outcome ≠ .running)
    (free : t.settled = false) :
    (engine rt).step w (.env (.settle i)) = some (w.change (engine rt).program
      ⟨w.store.setJob t.tag.job fun job => job.settle t.body.outcome, [], some i⟩) := by
  have there : (w.threads.map (Thread.map Prog.outcome))[i]? =
      some (Thread.map Prog.outcome t) := by rw [List.getElem?_map, found]; rfl
  simp [System.step, engine, outside, there, Thread.map, ended, free]

theorem delivers {n : Nat} (rt : Runtime) (found : w.store.jobs[n]? = some job) (waiting : job.state = .waiting) :
    (engine rt).step w (.env (.deliver n)) = some (w.change (engine rt).program
      ⟨w.store.setJob n fun job => { job with state := .active }, [⟨n, job.payload⟩], none⟩) := by
  simp [System.step, engine, outside, found, waiting]

/-- A job that threw and has a retry left is delivered again, with all quotas reset. -/
theorem redelivers {e : Thrown} (found : w.threads[i]? = some t) (threw : t.body = .throw e)
    (free : t.settled = false) (has : w.store.jobs[t.tag.job]? = some job)
    (left : job.attemptsMade + 1 < JOB_ATTEMPTS) :
    ∃ (w' : Engine) (jobs : List Job),
      (engine rt).Run (fun w act => undisturbed w act) w w' ∧
      w'.store = { w.store with quotas := [], jobs } ∧ (jobs[t.tag.job]?).isSome ∧
      w'.threads[w.threads.length]? =
        some ⟨⟨t.tag.job, job.payload⟩, processExecutionJob rt job.payload, false⟩ ∧
      w'.trace = w.trace ∧ ∀ k < w.threads.length, stepKeyOf w' k = stepKeyOf w k := by
  have ended : t.body.outcome ≠ .running := by simp [threw, Prog.outcome]
  have settled := settles rt found ended free
  generalize first : w.change (engine rt).program
    ⟨w.store.setJob t.tag.job fun job => job.settle t.body.outcome, [], some i⟩ = w₁ at settled
  have waiting : w₁.store.jobs[t.tag.job]? = some (job.settle .threw) := by
    simp [← first, Store.setJob, has, threw, Prog.outcome]
  have delivered := delivers rt waiting (by simp [Job.settle, left])
  generalize second : w₁.change (engine rt).program _ = w₂ at delivered
  refine ⟨w₂.change (engine rt).program ⟨{ w₂.store with quotas := [] }, [], none⟩,
    w₂.store.jobs, ?_, ?_, ?_, ?_, ?_, ?_⟩
  · have reset : (engine rt).step w₂ (.env (.setQuotas [])) = some (w₂.change (engine rt).program
        ⟨{ w₂.store with quotas := [] }, [], none⟩) := rfl
    refine ((System.Run.step .refl ?_ settled).step ?_ delivered).step ?_ reset <;> rfl
  · simp [← second, ← first, Store.setJob]
  · simp [← second, Store.setJob, waiting]
  · have same : w₁.threads.length = w.threads.length := by
      rw [← first, World.change_length]
      rfl
    have there : w₂.threads[w.threads.length]? =
        some ⟨⟨t.tag.job, job.payload⟩, processExecutionJob rt job.payload, false⟩ := by
      rw [← second, ← same]
      simp [World.change, Job.settle, engine]
    simp [World.change_kept there]
  · simp [← second, ← first]
  · intro k bound
    rw [stepKeyOf_change (by
      rw [← second, World.change_length, ← first, World.change_length]; omega), ← second,
      stepKeyOf_change (by rw [← first, World.change_length]; omega), ← first,
      stepKeyOf_change bound]

end Redelivery

/-! ## Failure tolerance -/

section Failures

variable {rt : Runtime} {workflow : Definition} {first step : WorkflowStep} {x : String}
  {store : Store} {w w₁ : Engine} {i : Nat} {t : Thread Delivery (Prog RunnerIface Unit)}
  {output : Option Json} {selected : List WorkflowStep}

/-- After the failure the delivery is in its `catch`, and cannot store its failure. -/
structure Caught (rt : Runtime) (workflow : Definition) (x : String) (w₁ : Engine) (i : Nat)
    (tag : Delivery) (a : Stages) (c : JobContext) : Prop where
  refines : (stages rt).Refines w₁ a
  tidy : Tidy workflow x a
  execution : (a.store.execution x).isSome
  there : a.threads[i]? = some ⟨tag, .catching c, false⟩
  taken : a.store.hasResult x c.step.id tag.payload.attempt = true
  parses : (rt.parseStep (stepInput c.step)).isOk
  retried : ∃ job, a.store.jobs[tag.job]? = some job ∧ job.payload = tag.payload ∧
    job.attemptsMade + 1 < JOB_ATTEMPTS

theorem FailsRecorded.caught (started : Started store workflow first x)
    (reached : (engine rt).Run (fun w act => calm w act) (idle store) w)
    (failure : FailsRecorded rt w w₁ i t output) : ∃ a c, Caught rt workflow x w₁ i t.tag a c := by
  obtain ⟨a, refines, tidy, kept⟩ := Kept.of_run started reached
  obtain ⟨choice, o, e, taken, trace, later⟩ := failure.fails
  obtain ⟨row, recorded⟩ := failure.recorded
  obtain ⟨t', o', k, answer, store', u, s', found, _, there, sameTag, answered, move, after⟩ :=
    refines.run taken
  rw [failure.there] at found
  cases Option.some.inj found
  have head : (⟨i, o', answer⟩ :: a.trace : List (Event RunnerIface)) =
      ⟨i, o, .error e⟩ :: w.trace := by
    rw [← trace, ← after.trace, World.advance_trace]
  obtain ⟨same, _⟩ := List.cons.inj head
  cases same
  have moved : u.body.Step rt u.tag.payload o (.error e) s' := move
  have handled : a.store.handle o choice = (.error e, store') := Option.some.inj answered
  have unchanged := Store.handle_error handled
  subst unchanged
  rw [← refines.trace] at recorded
  obtain ⟨c, rfl, context, unprepared, has⟩ := kept.fails tidy there recorded moved later
  have free := tidy.unsettled there moved
  rw [sameTag] at has
  obtain ⟨job, jobFound, left⟩ := failure.retried
  obtain ⟨job', jobFound', payload, _⟩ := tidy.delivered there
  rw [sameTag] at jobFound' payload
  rw [refines.store, jobFound] at jobFound'
  cases Option.some.inj jobFound'
  refine ⟨_, c, after, tidy.run there handled moved, kept.execution, ?_, has,
    kept.parsed there context unprepared, job, ?_, payload, left⟩
  · have found : (World.advance (β := Stage) a i (.catching c) a.store
        ⟨i, o, .error e⟩).threads[i]? = some _ := World.advance_self there
    rw [sameTag, free] at found
    exact found
  · rw [← refines.store] at jobFound
    exact jobFound

variable {a : Stages} {c : JobContext} {tag : Delivery}

/-- When no other delivery has read the execution and reads are barred, all are halted. -/
theorem Caught.halted (caught : Caught rt workflow x w₁ i tag a c) (alone : Alone w₁ i)
    (barred : Barred workflow w₁.store x) : Halted workflow x a := by
  refine ⟨by rw [caught.refines.store]; exact barred, fun {j v} there => ?_⟩
  by_cases same : j = i
  · subst same
    rw [caught.there] at there
    cases Option.some.inj there
    exact caught.taken
  · obtain ⟨t, found, sameTag, _, follows⟩ := caught.refines.thread_of_stage there
    rcases alone j t found same with ended | ⟨id, pending⟩
    · rw [← (stages rt).progress_eq follows] at ended
      have ended' : v.body.progress ≠ .running := ended
      revert ended'
      cases v.body <;> simp [Stage.progress, Stage.IsHalted]
    · rcases t with ⟨tag', body, settled⟩
      cases body with
      | pure r => cases pending
      | throw e => cases pending
      | op o k =>
          cases pending
          obtain ⟨s', step, _⟩ := follows (.error default)
          have moved : v.body.Step rt tag'.payload (.findExecution id) (.error default) s' := step
          have awaits := moved.awaits
          cases body : v.body <;> rw [body] at awaits <;>
            simp [Stage.Awaits, Stage.IsHalted] at awaits ⊢

/-- Where the retry is barred and the successors are there, nothing more happens. -/
theorem Caught.tolerant {n : Nat} {key : String} (caught : Caught rt workflow x w₁ i tag a c)
    (alone : Alone w₁ i) (stopped : Stopped w₁ workflow x key selected) :
    Tolerant rt (fun w act => calm w act) w₁ n key selected := by
  intro w' reached
  obtain ⟨a', refines, _, _, counts⟩ : ∃ a', (stages rt).Refines w' a' ∧
      Tidy workflow x a' ∧ Halted workflow x a' ∧ SameCounts a' a := by
    refine System.Run.invariant (engine_follows rt)
      (fun inv refines allowed found pending there answered step => ?_)
      (fun inv refines allowed changed => ?_) caught.refines
      ⟨caught.tidy, caught.halted alone stopped.2, .refl a⟩ reached
    · obtain ⟨tidy, halted, counts⟩ := inv
      have handled := Option.some.inj answered
      exact ⟨tidy.run there handled step, halted.run tidy there handled step,
        (halted.counts_run tidy there handled step).trans counts⟩
    · obtain ⟨tidy, halted, counts⟩ := inv
      have quiet := not_stall_of_calm allowed
      exact ⟨tidy.env quiet changed, halted.env quiet changed, (SameCounts.env tidy).trans counts⟩
  have same : SameCounts w' w₁ :=
    (SameCounts.of_refines refines).trans (counts.trans (SameCounts.of_refines caught.refines).symm)
  refine ⟨same.executions key, fun _ target there => ?_⟩
  rw [same.enqueues]
  exact stopped.1 target there

theorem Caught.actors (caught : Caught rt workflow x w₁ i tag a c) :
    ∀ event ∈ w₁.trace, event.actor < w₁.threads.length := fun event old =>
  (caught.tidy.actors event (caught.refines.trace ▸ old)).trans_eq caught.refines.length

/-- The continuation in which the delivery throws, its job is delivered again with all
quotas reset, and the new delivery goes on alone to `q`. -/
theorem Caught.retries (caught : Caught rt workflow x w₁ i tag a c) :
    ∃ jobs : List Job, (jobs[tag.job]?).isSome ∧ ∀ q store',
      (engine rt).Prefix Unenqueued (processExecutionJob rt tag.payload)
        { w₁.store with quotas := [], jobs } q store' →
      ∃ (w₃ : Engine) (j : Nat) (events : List (Event RunnerIface)),
        (engine rt).Run (fun w act => undisturbed w act) w₁ w₃ ∧ w₃.store = store' ∧
        w₃.threads[j]? = some ⟨tag, q, false⟩ ∧ w₃.trace = events ++ w₁.trace ∧
        (∀ event ∈ events, ∀ job options, event.op ≠ .addJob job options) ∧
        ∀ event ∈ w₁.trace, stepKeyOf w₃ event.actor = stepKeyOf w₁ event.actor := by
  obtain ⟨t, found, sameTag, sameSettled, _⟩ := caught.refines.thread_of_stage caught.there
  rcases t with ⟨tag', body, settled⟩
  obtain rfl : tag = tag' := sameTag
  obtain rfl : false = settled := sameSettled
  obtain ⟨e, row, answer, throws⟩ :=
    rethrows caught.refines caught.tidy caught.there found rfl caught.taken
  generalize thrown : w₁.advance i (.throw e) w₁.store ⟨i, .createStepResult row, answer⟩ = w₂
    at throws
  have ended : w₂.threads[i]? = some ⟨tag, .throw e, false⟩ := by
    rw [← thrown, World.advance_self found]
  have sameStore : w₂.store = w₁.store := by rw [← thrown, World.advance_store]
  have length : w₂.threads.length = w₁.threads.length := by rw [← thrown, World.advance_length]
  obtain ⟨job, has, payload, left⟩ := caught.retried
  rw [caught.refines.store, ← sameStore] at has
  obtain ⟨w', jobs, delivered, stores, present, there, trace, keys⟩ :=
    redelivers ended rfl rfl has left
  rw [sameStore] at stores
  refine ⟨jobs, present, fun q store' goes => ?_⟩
  rw [← stores, ← payload] at goes
  have passes : ∀ (w : Engine) (choice : Choice) (o : RunnerOp), Unenqueued o choice →
      undisturbed w (.run w₂.threads.length choice) = true := by
    intro w choice o allowed
    simp [undisturbed, calm, faultless, allowed.1]
  obtain ⟨w₃, events, gone, sameStore', threads, trace', own⟩ : ∃ (w₃ : Engine)
      (events : List (Event RunnerIface)), (engine rt).Run (fun w act => undisturbed w act) w' w₃ ∧
      w₃.store = store' ∧
      w₃.threads = w'.threads.modify w₂.threads.length (fun t => { t with body := q }) ∧
      w₃.trace = events ++ w'.trace ∧
      ∀ event ∈ events, event.actor = w₂.threads.length ∧ ∃ choice, Unenqueued event.op choice :=
    System.Prefix.run passes goes there rfl
  refine ⟨w₃, w₂.threads.length, events ++ [⟨i, .createStepResult row, answer⟩],
    ((System.Run.step .refl rfl throws).trans delivered).trans gone, sameStore', ?_, ?_, ?_, ?_⟩
  · rw [threads, List.getElem?_modify, there, payload]
    simp
  · rw [trace', trace, ← thrown, World.advance_trace, List.append_assoc]
    rfl
  · intro event there
    rcases List.mem_append.mp there with later | now
    · obtain ⟨_, choice, allowed⟩ := own event later
      exact allowed.2
    · rw [List.mem_singleton.mp now]
      simp
  · intro event old
    have bound := caught.actors event old
    have unmoved : stepKeyOf w₃ event.actor = stepKeyOf w' event.actor := by
      have other : w₂.threads.length ≠ event.actor := by omega
      rw [stepKeyOf, stepKeyOf, threads, List.getElem?_modify]
      simp [other]
    rw [unmoved, keys event.actor (by omega), ← thrown, stepKeyOf_advance]

theorem Caught.executes_again (valid : Validated workflow)
    (caught : Caught rt workflow x w₁ i tag a c) (free : ¬ Barred workflow w₁.store x) :
    ∃ w₄ : Engine, (engine rt).Run (fun w act => undisturbed w act) w₁ w₄ ∧
      executions w₁ tag.payload.stepKey < executions w₄ tag.payload.stepKey := by
  obtain ⟨ownExecution, ownWorkflow, ownTenant⟩ := caught.tidy.payload caught.there
  obtain ⟨row, found⟩ := Option.isSome_iff_exists.mp caught.execution
  rw [caught.refines.store] at found
  have active : row.status ≠ .CANCELLED := fun status => free ⟨row, found, .inl status⟩
  have shallow : row.depth < maxDepth workflow :=
    not_le.mp fun deep => free ⟨row, found, .inr deep⟩
  obtain ⟨same, find⟩ := caught.tidy.contexts caught.there rfl
  have uncached := valid.steps.cacheTTLSeconds _ (List.mem_of_find?_eq_some find)
  have stored := caught.tidy.stored
  rw [caught.refines.store, ← ownWorkflow, ← ownTenant] at stored
  rw [← ownExecution] at found
  obtain ⟨jobs, _, continues⟩ := caught.retries
  have executes : Executes rt (processExecutionJob rt tag.payload)
      { w₁.store with quotas := [], jobs } :=
    processExecutionJob_executes found active stored shallow find caught.parses uncached rfl
  obtain ⟨parsed, context, k, goes⟩ := executes
  obtain ⟨w₃, j, events, reached, _, there, trace, _, keys⟩ := continues _ _ goes
  have taken : (engine rt).step w₃ (.run j ({} : Choice)) = some (w₃.advance j (k (.ok none))
      w₃.store ⟨j, .executeStep parsed context, .ok none⟩) := by
    simp only [System.step, there]
    rfl
  refine ⟨_, reached.step rfl taken, ?_⟩
  have own : stepKeyOf w₃ j = some tag.payload.stepKey := by rw [stepKeyOf, there]; rfl
  have longer : (w₃.advance j (k (.ok none)) w₃.store
      ⟨j, .executeStep parsed context, .ok none⟩).trace =
        (⟨j, .executeStep parsed context, .ok none⟩ :: events) ++ w₁.trace := by
    rw [World.advance_trace, trace]
    rfl
  rw [executions_append longer fun event old => by rw [stepKeyOf_advance]; exact keys event old,
    List.countP_cons_of_pos (by rw [isExecution, stepKeyOf_advance, own]; simp)]
  omega

/-- A retry that is barred finishes its job without enqueuing anything. -/
theorem Caught.finishes (caught : Caught rt workflow x w₁ i tag a c)
    (barred : Barred workflow w₁.store x) :
    ∃ w₄ : Engine, (engine rt).Run (fun w act => undisturbed w act) w₁ w₄ ∧
      finished w₄ tag.job ∧ ∀ key target, enqueues w₄ key target = enqueues w₁ key target := by
  obtain ⟨ownExecution, ownWorkflow, ownTenant⟩ := caught.tidy.payload caught.there
  obtain ⟨row, found, why⟩ := barred
  have stored := caught.tidy.stored
  rw [caught.refines.store, ← ownWorkflow, ← ownTenant] at stored
  rw [← ownExecution] at found
  obtain ⟨jobs, present, continues⟩ := caught.retries
  obtain ⟨store', goes, sameJobs⟩ : ∃ store', (engine rt).Prefix Unenqueued
      (processExecutionJob rt tag.payload) { w₁.store with quotas := [], jobs } (.pure ()) store' ∧
      store'.jobs = jobs := by
    by_cases cancelled : row.status = .CANCELLED
    · exact ⟨_, prefix_cancelled found cancelled, rfl⟩
    · exact prefix_exhausted found cancelled stored (why.resolve_left cancelled)
  obtain ⟨w₃, j, events, reached, rfl, there, trace, unadded, keys⟩ := continues _ _ goes
  have settled := settles rt there (by simp [Prog.outcome]) rfl
  generalize final : w₃.change (engine rt).program _ = w₄ at settled
  refine ⟨w₄, reached.step rfl settled, ?_, fun key target => ?_⟩
  · obtain ⟨job, has⟩ := Option.isSome_iff_exists.mp present
    simp [← final, finished, Store.setJob, sameJobs, has, Job.settle, Prog.outcome,
      JobState.isOpen]
  · have longer : w₄.trace = events ++ w₁.trace := by rw [← final, World.change_trace, trace]
    have sameKeys : ∀ event ∈ w₁.trace, stepKeyOf w₄ event.actor = stepKeyOf w₁ event.actor := by
      intro event old
      have bound : event.actor < w₃.threads.length := by
        have known := caught.actors event old
        have key := keys event old
        by_contra beyond
        simp [stepKeyOf, List.getElem?_eq_getElem known,
          List.getElem?_eq_none (not_lt.mp beyond)] at key
      rw [← final, stepKeyOf_change bound, keys event old]
    rw [enqueues_append longer sameKeys, Nat.add_eq_right, List.countP_eq_zero]
    intro event new
    have other := unadded event new
    rcases event with ⟨k, o, answer⟩
    cases o <;> first | exact (other _ _ rfl).elim | simp [isEnqueue]

/-- After a recorded step fails, tolerance means that the retry is barred and that the
successors had been enqueued; and this is enough when no other delivery is in flight. -/
theorem tolerant_of_stopped (valid : Validated workflow) (started : Started store workflow first x)
    (reached : (engine rt).Run (fun w act => calm w act) (idle store) w)
    (failure : FailsRecorded rt w w₁ i t output)
    (find : workflow.steps.find? (·.key = t.tag.payload.stepKey) = some step) :
    let selected := successors workflow (nextTransitions workflow step output false)
    (Tolerant rt (fun w act => undisturbed w act) w₁ t.tag.job step.key selected →
      Stopped w₁ workflow x step.key selected) ∧
    (Alone w₁ i → Stopped w₁ workflow x step.key selected →
      Tolerant rt (fun w act => calm w act) w₁ t.tag.job step.key selected) := by
  intro selected
  obtain ⟨a, c, caught⟩ := failure.caught started reached
  have key : step.key = t.tag.payload.stepKey := by simpa using List.find?_some find
  refine ⟨fun tolerant => ?_, fun alone stopped => caught.tolerant alone stopped⟩
  have barred : Barred workflow w₁.store x := by
    by_contra free
    obtain ⟨w₄, continued, again⟩ := caught.executes_again valid free
    have unchanged := (tolerant w₄ continued).1
    rw [key] at unchanged
    omega
  obtain ⟨w₄, continued, ended, same⟩ := caught.finishes barred
  refine ⟨fun target there => ?_, barred⟩
  rw [← same]
  exact (tolerant w₄ continued).2 ended target there

end Failures

/-! ## Concrete failures -/

/-- The output that a delivery has executed its step with. -/
def executedBy (trace : List (Event RunnerIface)) (i : Nat) : Option (Option Json) :=
  trace.findSome? fun
    | ⟨j, .executeStep _ _, .ok output⟩ => if j = i then some output else none
    | _ => none

def hasRecorded (trace : List (Event RunnerIface)) (i : Nat) : Bool :=
  trace.any fun
    | ⟨j, .createStepResult row, .ok _⟩ => decide (j = i) && decide (row.status ≠ .FAILED)
    | _ => false

/-- Delivery `i` is for this step, has recorded it, awaits one of the later operations, and
has a retry left. -/
def canFail (w : Engine) (i : Nat) (key : String) : Bool :=
  hasRecorded w.trace i && (executedBy w.trace i).isSome && decide (stepKeyOf w i = some key) &&
  ((w.threads[i]?).any fun t =>
    (match t.body.pending with
      | some (.addJob _ _) | some (.updateExecution _ _) => true
      | _ => false) &&
    (w.store.jobs[t.tag.job]?).any fun job => decide (job.attemptsMade + 1 < JOB_ATTEMPTS))

theorem executed_of_executedBy {trace : List (Event RunnerIface)} {i : Nat}
    {output : Option Json} (found : executedBy trace i = some output) :
    Executed trace i output := by
  obtain ⟨event, there, same⟩ := List.exists_of_findSome?_eq_some found
  rcases event with ⟨j, o, answer⟩
  cases o <;> cases answer <;> first
    | cases same
    | skip
  rename_i step context output'
  have picked : (if j = i then some output' else none) = some output := same
  by_cases own : j = i
  · subst own
    rw [if_pos rfl] at picked
    cases picked
    exact ⟨_, _, there⟩
  · simp [own] at picked

theorem recorded_of_hasRecorded {trace : List (Event RunnerIface)} {i : Nat}
    (has : hasRecorded trace i) : ∃ row, Recorded trace i row := by
  obtain ⟨event, there, own⟩ := List.any_eq_true.mp has
  rcases event with ⟨j, o, answer⟩
  cases o <;> cases answer <;> first
    | cases own
    | skip
  rename_i row r
  simp only [Bool.and_eq_true, decide_eq_true_eq] at own
  obtain ⟨rfl, succeeded⟩ := own
  exact ⟨row, there, succeeded⟩

/-- The next operation of a delivery that can fail fails. -/
theorem fails_of_canFail (rt : Runtime) {w : Engine} {i : Nat} {key : String} {choice : Choice}
    {e : Thrown} (can : canFail w i key) (fault : choice.fault = some e) :
    ∃ w₁ t output, FailsRecorded rt w w₁ i t output ∧ t.tag.payload.stepKey = key ∧
      (engine rt).step w (.run i choice) = some w₁ := by
  simp only [canFail, Bool.and_eq_true, decide_eq_true_eq] at can
  obtain ⟨⟨⟨recorded, executed⟩, own⟩, awaits⟩ := can
  obtain ⟨output, executed⟩ := Option.isSome_iff_exists.mp executed
  obtain ⟨⟨tag, body, settled⟩, found, pending⟩ := (Option.any_eq_true _ _).mp awaits
  rw [Bool.and_eq_true] at pending
  obtain ⟨pending, retried⟩ := pending
  obtain ⟨job, has, left⟩ := (Option.any_eq_true _ _).mp retried
  rw [decide_eq_true_eq] at left
  cases body with
  | pure r => cases pending
  | throw e => cases pending
  | op o k =>
      have timed : o ≠ .now ∧ ∀ row, o ≠ .createStepResult row := by
        cases o <;> simp_all [Prog.pending]
      have taken : (engine rt).step w (.run i choice) =
          some (w.advance i (k (.error e)) w.store ⟨i, o, .error e⟩) := by
        simp only [System.step, found]
        rw [show (engine rt).handle o choice w.store = some (.error e, w.store) from
          congrArg some (Store.handle_of_fault fault timed.1)]
        rfl
      refine ⟨_, _, output, ⟨found, recorded_of_hasRecorded recorded,
        executed_of_executedBy executed, ⟨choice, o, e, taken, rfl, timed.2⟩, job, has, left⟩,
        ?_, taken⟩
      rw [stepKeyOf, found] at own
      exact Option.some.inj own

/-- The leaf has recorded its step and is about to complete the execution, which is
cancelled at that moment. -/
def lineCancelled : List (Act Choice Outside) :=
  [deliver 0, operate 0 9 7, settle 0, deliver 1, operate 1 9 8, [.env (.cancel "x")]].flatten

def queueDown : Choice := { fault := some (error "connection lost") }

/-- The leaf can fail, and the other delivery has returned. -/
def leafCanFail (w : Engine) : Bool :=
  canFail w 1 "end" && decide (w.threads.length = 2) &&
  ((w.threads[0]?).any fun t => decide (t.body.outcome = .returned)) &&
  ((w.store.execution "x").any fun row => decide (row.status = .CANCELLED))

/-- The leaf of a cancelled execution fails to complete it, and is not executed again. -/
theorem line_tolerant :
    ∃ (w w₁ : Engine) (t : Thread Delivery (Prog RunnerIface Unit)) (output : Option Json)
      (leaf : WorkflowStep), (engine plainRuntime).Run (fun w act => calm w act) lineStart w ∧
      FailsRecorded plainRuntime w w₁ 1 t output ∧
      lineWorkflow.steps.find? (·.key = t.tag.payload.stepKey) = some leaf ∧
      Tolerant plainRuntime (fun w act => calm w act) w₁ t.tag.job leaf.key
        (successors lineWorkflow (nextTransitions lineWorkflow leaf output false)) := by
  have evaluated : ((engine plainRuntime).execute (fun w act => calm w act) lineStart
      lineCancelled).any leafCanFail = true := by decide
  obtain ⟨w, reached, test⟩ := System.Run.exists_of_execute (fun _ _ allowed => allowed) evaluated
  simp only [leafCanFail, Bool.and_eq_true, decide_eq_true_eq] at test
  obtain ⟨⟨⟨can, two⟩, first⟩, cancelled⟩ := test
  obtain ⟨w₁, t, output, failure, key, taken⟩ :=
    fails_of_canFail plainRuntime can (show queueDown.fault = some _ from rfl)
  obtain ⟨leaf, find, final⟩ : ∃ leaf, lineWorkflow.steps.find? (·.key = "end") = some leaf ∧
      ∀ transition ∈ lineWorkflow.transitions, transition.sourceStepId ≠ leaf.id :=
    ⟨(lineWorkflow.steps.find? (·.key = "end")).get (by decide),
      (Option.some_get _).symm, by decide⟩
  rw [← key] at find
  have valid : Validated lineWorkflow := publishedWorkflow_validated _
  have none : nextTransitions lineWorkflow leaf output false = [] := by
    rw [nextTransitions, List.filter_eq_nil_iff]
    intro transition there
    simp [final transition there]
  obtain ⟨u, o, k, answer, store, found, pending, answered, rfl⟩ := System.step_run taken
  have unchanged : store = w.store := by
    have handled : w.store.handle o queueDown = (answer, store) := Option.some.inj answered
    cases answer with
    | error e => exact Store.handle_error handled
    | ok r =>
        cases o <;> cases handled
        rfl
  refine ⟨w, _, t, output, leaf, reached, failure, find,
    (tolerant_of_stopped valid lineStart_started reached failure find).2 ?_ ⟨?_, ?_⟩⟩
  · intro j v there other
    rcases World.advance_cases found there with ⟨same, _⟩ | ⟨_, before⟩
    · exact (other same).elim
    · obtain rfl : j = 0 := by
        have bound := (List.getElem?_eq_some_iff.mp before).1
        omega
      rw [before] at first
      refine .inl ?_
      rw [show v.body.outcome = .returned by simpa using first]
      simp
  · rw [none]
    simp [successors]
  · obtain ⟨row, there, status⟩ := (Option.any_eq_true _ _).mp cancelled
    exact ⟨row, by rw [World.advance_store, unchanged]; exact there, .inl (by simpa using status)⟩

/-- The trigger has recorded its step and is about to enqueue the leaf. -/
def lineRecorded : List (Act Choice Outside) := [deliver 0, operate 0 8 7].flatten

/-- The delivery throws, the job is delivered again and executes the step. -/
def lineRetried : List (Act Choice Outside) :=
  [operate 0 1 8, settle 0, deliver 0, operate 1 5 9].flatten

/-- The trigger can fail at the enqueue, after which it is executed a second time. -/
def executesAgain (w : Engine) : Bool :=
  canFail w 0 "start" &&
  ((engine plainRuntime).step w (.run 0 queueDown)).any fun w₁ =>
    decide (executions w₁ "start" = 1) &&
    ((engine plainRuntime).execute undisturbed w₁ lineRetried).any fun w' =>
      decide (executions w' "start" = 2)

/-- A job that fails to enqueue its successor executes its step again. -/
theorem line_not_failureTolerant :
    Validated lineWorkflow ∧ Started lineStart.store lineWorkflow lineTrigger "x" ∧
      ¬ FailureTolerant plainRuntime (fun w act => calm w act) lineStart lineWorkflow := by
  refine ⟨publishedWorkflow_validated _, lineStart_started, fun tolerant => ?_⟩
  have evaluated : ((engine plainRuntime).execute (fun w act => calm w act) lineStart
      lineRecorded).any executesAgain = true := by decide
  obtain ⟨w, reached, again⟩ := System.Run.exists_of_execute (fun _ _ allowed => allowed) evaluated
  rw [executesAgain, Bool.and_eq_true] at again
  obtain ⟨can, again⟩ := again
  obtain ⟨w₁, t, output, failure, key, taken⟩ :=
    fails_of_canFail plainRuntime can (show queueDown.fault = some _ from rfl)
  rw [taken, Option.any_some, Bool.and_eq_true, decide_eq_true_eq] at again
  obtain ⟨once, twice⟩ := again
  have permitted : ∀ w act, undisturbed w act = true → calm w act = true := by
    intro w act allowed
    rw [undisturbed, Bool.and_eq_true] at allowed
    exact allowed.1
  obtain ⟨w', continued, two⟩ := System.Run.exists_of_execute permitted twice
  rw [decide_eq_true_eq] at two
  obtain ⟨step, find⟩ : ∃ step, lineWorkflow.steps.find? (·.key = "start") = some step :=
    Option.isSome_iff_exists.mp (by decide)
  have own : step.key = "start" := by simpa using List.find?_some find
  rw [← key] at find
  have unchanged := (tolerant w w₁ 0 t output step reached failure find w' continued).1
  rw [own] at unchanged
  omega

end Workflow
