import BirthHub.Workflow.Job

/-!
# Deliveries and jobs

What holds of the deliveries of one execution as long as BullMQ delivers no job that is
still running: each active job has one delivery, each job belongs to the execution and
its workflow, and the trace says of a delivery which outputs it has produced and stored.
`Tidy` is that invariant; the results on completion, on effects and on retries build on
it.
-/

namespace Workflow

open Data Effect

/-- The engine by stages. -/
abbrev Stages : Type := World RunnerIface Delivery Store Stage

/-! ## The step of a delivery -/

/-- The key of the step that delivery `i` is for. -/
def stepKeyOf {β : Type} (w : World RunnerIface Delivery Store β) (i : Nat) : Option String :=
  (w.threads[i]?).map (·.tag.payload.stepKey)

section StepKeys

variable {β : Type} {w : World RunnerIface Delivery Store β}

theorem stepKeyOf_advance {i : Nat} {b : β} {store : Store} {event : Event RunnerIface} :
    stepKeyOf (w.advance i b store event) = stepKeyOf w := by
  funext k
  by_cases same : k = i
  · subst same
    cases found : w.threads[k]? with
    | none => simp [stepKeyOf, World.advance, found]
    | some t => rw [stepKeyOf, stepKeyOf, World.advance_self found, found]; rfl
  · rw [stepKeyOf, stepKeyOf, World.advance_other same]

theorem stepKeyOf_change {start : Delivery → β} {c : Change Delivery Store} {i : Nat}
    (bound : i < w.threads.length) : stepKeyOf (w.change start c) i = stepKeyOf w i := by
  have kept : (w.change start c).threads[i]? = some _ :=
    World.change_kept (List.getElem?_eq_getElem bound)
  rw [stepKeyOf, stepKeyOf, kept, List.getElem?_eq_getElem bound]
  rfl

theorem stepKeyOf_refines {rt : Runtime} {w : Engine} {a : Stages}
    (refines : (stages rt).Refines w a) : stepKeyOf w = stepKeyOf a := by
  funext i
  cases found : w.threads[i]? with
  | some t =>
      obtain ⟨u, there, tag, _⟩ := refines.stage_of_thread found
      have stage : stepKeyOf a i = some u.tag.payload.stepKey := congrArg (Option.map _) there
      rw [stage, stepKeyOf, found, Option.map_some, tag]
  | none =>
      cases there : a.threads[i]? with
      | none => rw [stepKeyOf, stepKeyOf, found, there]; rfl
      | some u =>
          obtain ⟨t, found', _⟩ := refines.thread_of_stage there
          rw [found] at found'
          cases found'

end StepKeys

/-! ## Steps of the outside -/

/-- BullMQ hands no running job to a second worker. -/
def calm (_ : Engine) : Act Choice Outside → Bool
  | .env (.stall _) => false
  | _ => true

/-- No operation of the database or the queue fails by itself. -/
def faultless (_ : Engine) : Act Choice Outside → Bool
  | .run _ choice => choice.fault.isNone
  | .env _ => true

theorem not_stall_of_calm {w : Engine} {event : Outside} (allowed : calm w (.env event)) :
    ∀ n, event ≠ .stall n := by
  rintro n rfl
  cases allowed

/-- Everything the outside does unless it delivers a running job again. -/
theorem outside_cases {event : Outside} {store : Store}
    {threads : List (Thread Delivery Outcome)} {c : Change Delivery Store}
    (calm : ∀ n, event ≠ .stall n) (changed : outside event store threads = some c) :
    (∃ n job, store.jobs[n]? = some job ∧ job.state = .waiting ∧
      c = ⟨store.setJob n fun job => { job with state := .active }, [⟨n, job.payload⟩], none⟩) ∨
    (∃ i t, threads[i]? = some t ∧ t.body ≠ .running ∧ t.settled = false ∧
      c = ⟨store.setJob t.tag.job fun job => job.settle t.body, [], some i⟩) ∨
    (∃ id, c = ⟨store.updateExecution id { status := some .CANCELLED }, [], none⟩) ∨
    ∃ quotas, c = ⟨{ store with quotas }, [], none⟩ := by
  cases event with
  | deliver n =>
      simp only [outside] at changed
      split at changed <;> (try split at changed) <;> cases changed
      rename_i job found waiting
      exact .inl ⟨n, job, found, waiting, rfl⟩
  | settle i =>
      simp only [outside] at changed
      split at changed <;> (try split at changed) <;> cases changed
      rename_i delivery outcome settled found free
      rw [not_or, Bool.not_eq_true] at free
      exact .inr (.inl ⟨i, _, found, free.1, free.2, rfl⟩)
  | stall n => exact (calm n rfl).elim
  | cancel id =>
      cases changed
      exact .inr (.inr (.inl ⟨id, rfl⟩))
  | setQuotas quotas =>
      cases changed
      exact .inr (.inr (.inr ⟨quotas, rfl⟩))

/-! ## Steps of a job -/

section Steps

variable {rt : Runtime} {p : WorkflowExecutionJobPayload} {s s' : Stage} {o : RunnerOp}
  {answer : RunnerIface.Answer o}

/-- A job adds jobs of its own execution and workflow only. -/
theorem Stage.Step.of_addJob {job : WorkflowExecutionJobPayload} {options : JobOptions}
    {answer : RunnerIface.Answer (.addJob job options)}
    (step : s.Step rt p (.addJob job options) answer s') :
    (∃ target rest, (∃ c, s = .enqueuing c (target :: rest) ∨ s = .falling c (target :: rest)) ∧
      job = successorJob p target) ∨
    ((∃ c, s = .retrying c) ∧ job = retryJob p) := by
  have awaits := step.awaits
  cases s with
  | enqueuing c remaining =>
      rcases awaits with awaits | ⟨target, rest, options, rfl, awaits⟩ <;> cases awaits
      exact .inl ⟨target, rest, ⟨c, .inl rfl⟩, rfl⟩
  | falling c remaining =>
      rcases awaits with awaits | ⟨target, rest, options, rfl, awaits⟩ <;> cases awaits
      exact .inl ⟨target, rest, ⟨c, .inr rfl⟩, rfl⟩
  | retrying c =>
      obtain ⟨options, awaits⟩ := awaits
      cases awaits
      exact .inr ⟨⟨c, rfl⟩, rfl⟩
  | _ => simp [Stage.Awaits] at awaits

theorem Stage.Step.addJob_ids {job : WorkflowExecutionJobPayload} {options : JobOptions}
    {answer : RunnerIface.Answer (.addJob job options)}
    (step : s.Step rt p (.addJob job options) answer s') :
    job.executionId = p.executionId ∧ job.workflowId = p.workflowId ∧
      job.tenantId = p.tenantId := by
  rcases step.of_addJob with ⟨target, _, _, rfl⟩ | ⟨_, rfl⟩ <;> exact ⟨rfl, rfl, rfl⟩

/-- What a job has read stays with it; it is read by finding the workflow and the step. -/
theorem Stage.Step.context {c : JobContext} {store store' : Store} {choice : Choice}
    (step : s.Step rt p o answer s') (answered : store.handle o choice = (answer, store'))
    (after : s'.context = some c) :
    s.context = some c ∨
    ((s = .guarded c.execution ∧ c.execution.depth < maxDepth c.workflow) ∧
      store.workflow p.workflowId p.tenantId = some c.workflow ∧
      c.workflow.steps.find? (·.key = p.stepKey) = some c.step) := by
  cases answer with
  | error e =>
      rw [step.2] at after
      cases s <;> first | exact .inl after | cases after
  | ok r =>
      have awaits := step.awaits
      cases step.2 with
      | known depth find =>
          cases after
          cases awaits
          exact .inr ⟨⟨rfl, depth⟩, (Store.handle_findWorkflow answered).symm, find⟩
      | routed | enqueued | fallback | fell =>
          rcases afterEnqueue_cases _ _ with ⟨_, same⟩ | ⟨_, same⟩ <;> rw [same] at after
          · cases after
          · exact .inl after
      | _ => first | exact .inl after | cases after

/-- An output comes from executing the step, or from the cache of a step that has one. -/
theorem Stage.Step.produced {c : JobContext} {output : Option Json} {store store' : Store}
    {choice : Choice} (step : s.Step rt p o answer (.produced c output))
    (answered : store.handle o choice = (answer, store')) :
    s = .trying c ∧
      ((∃ parsed context, o = .executeStep parsed context ∧ choice.fault = none ∧
          choice.result = .ok output) ∨
        0 < c.step.cacheTTLSeconds.getD 0) := by
  cases answer with
  | error e =>
      have faulted := step.2
      cases s <;> cases faulted
  | ok r =>
      have awaits := step.awaits
      generalize after : Stage.produced c output = s' at step
      cases step.2 with
      | executed =>
          cases after
          obtain ⟨fault, result, _⟩ := Store.handle_executeStep answered
          exact ⟨rfl, .inl ⟨_, _, rfl, fault, result⟩⟩
      | cacheHit =>
          cases after
          simp only [Stage.Awaits, reduceCtorEq, exists_false, or_false, false_or] at awaits
          exact ⟨rfl, .inr awaits.1⟩
      | clock _ =>
          subst after
          simp [Stage.Awaits] at awaits
      | routed | enqueued | fallback | fell =>
          rcases Stage.afterEnqueue_cases _ _ with ⟨_, same⟩ | ⟨_, same⟩ <;>
            rw [same] at after <;> cases after
      | _ => cases after

end Steps

/-! ## What the trace says of a delivery -/

/-- Delivery `i` has executed its step, with this output. -/
def Executed (trace : List (Event RunnerIface)) (i : Nat) (output : Option Json) : Prop :=
  ∃ step context, (⟨i, .executeStep step context, .ok output⟩ : Event RunnerIface) ∈ trace

/-- Delivery `i` has stored this row, which is not one of a failure. -/
def Recorded (trace : List (Event RunnerIface)) (i : Nat) (row : StepResult) : Prop :=
  (⟨i, .createStepResult row, .ok ()⟩ : Event RunnerIface) ∈ trace ∧ row.status ≠ .FAILED

/-- What a delivery has executed and recorded by the stage it is at. -/
def History (trace : List (Event RunnerIface)) (i : Nat) : Stage → Prop
  | .guard | .guarded _ | .failing | .preparing _ | .prepared _ | .trying _ =>
      (∀ output, ¬ Executed trace i output) ∧ ∀ row, ¬ Recorded trace i row
  | .produced _ output =>
      (∀ output', Executed trace i output' → output' = output) ∧ ∀ row, ¬ Recorded trace i row
  | .recorded c output =>
      (∀ output', Executed trace i output' → output' = output) ∧
        ∀ row, Recorded trace i row → row.stepId = c.step.id
  | _ => True

section Traces

variable {rt : Runtime} {p : WorkflowExecutionJobPayload} {trace : List (Event RunnerIface)}
  {i : Nat} {s s' : Stage} {o : RunnerOp} {answer : RunnerIface.Answer o}
  {event : Event RunnerIface} {output : Option Json} {row : StepResult}

theorem executed_cons : Executed (event :: trace) i output ↔
    (∃ step context, event = ⟨i, .executeStep step context, .ok output⟩) ∨
      Executed trace i output := by
  simp only [Executed, List.mem_cons]
  constructor
  · rintro ⟨step, context, same | there⟩
    · exact .inl ⟨step, context, same.symm⟩
    · exact .inr ⟨step, context, there⟩
  · rintro (⟨step, context, same⟩ | ⟨step, context, there⟩)
    · exact ⟨step, context, .inl same.symm⟩
    · exact ⟨step, context, .inr there⟩

theorem recorded_cons : Recorded (event :: trace) i row ↔
    (event = ⟨i, .createStepResult row, .ok ()⟩ ∧ row.status ≠ .FAILED) ∨
      Recorded trace i row := by
  simp only [Recorded, List.mem_cons, or_and_right, eq_comm]

/-- An operation that executes no step leaves the executed outputs. -/
theorem executed_cons_of_ne (other : ∀ step context, o ≠ .executeStep step context) :
    Executed (⟨i, o, answer⟩ :: trace) i output ↔ Executed trace i output := by
  rw [executed_cons]
  refine or_iff_right ?_
  rintro ⟨step, context, same⟩
  cases same
  exact other step context rfl

theorem recorded_cons_of_ne (other : ∀ row, o ≠ .createStepResult row) :
    Recorded (⟨i, o, answer⟩ :: trace) i row ↔ Recorded trace i row := by
  rw [recorded_cons]
  refine or_iff_right ?_
  rintro ⟨same, _⟩
  cases same
  exact other row rfl

theorem History.congr {trace' : List (Event RunnerIface)} (history : History trace i s)
    (executed : ∀ output, Executed trace' i output ↔ Executed trace i output)
    (recorded : ∀ row, Recorded trace' i row ↔ Recorded trace i row) : History trace' i s := by
  cases s <;> simp only [History, executed, recorded] at history ⊢ <;> exact history

theorem History.other (history : History trace i s) (foreign : event.actor ≠ i) :
    History (event :: trace) i s := by
  refine history.congr (fun output => ?_) (fun row => ?_)
  · rw [executed_cons]
    refine or_iff_right ?_
    rintro ⟨step, context, rfl⟩
    exact foreign rfl
  · rw [recorded_cons]
    refine or_iff_right ?_
    rintro ⟨rfl, _⟩
    exact foreign rfl

/-- A delivery has no history before its first event. -/
theorem History.fresh (unseen : ∀ event ∈ trace, event.actor ≠ i) : History trace i .guard :=
  ⟨fun _ ⟨_, _, there⟩ => unseen _ there rfl, fun _ ⟨there, _⟩ => unseen _ there rfl⟩

theorem History.step (history : History trace i s) (step : s.Step rt p o answer s') :
    History (⟨i, o, answer⟩ :: trace) i s' := by
  cases answer with
  | error e =>
      rw [step.2]
      cases s <;> trivial
  | ok r =>
      have awaits := step.awaits
      cases step.2 with
      | clock _ =>
          exact history.congr (fun _ => executed_cons_of_ne (by simp))
            (fun _ => recorded_cons_of_ne (by simp))
      | executed =>
          refine ⟨fun output' executed => ?_, fun row recorded => ?_⟩
          · rcases executed_cons.mp executed with ⟨step, context, same⟩ | before
            · cases same
              rfl
            · exact (history.1 output' before).elim
          · rw [recorded_cons_of_ne (by simp)] at recorded
            exact (history.2 row recorded).elim
      | stored =>
          refine ⟨fun output' executed => ?_, fun row' recorded => ?_⟩
          · rw [executed_cons_of_ne (by simp)] at executed
            exact history.1 output' executed
          · rcases recorded_cons.mp recorded with ⟨same, _⟩ | before
            · cases same
              obtain ⟨row, same, isRow, _⟩ := awaits
              cases same
              exact isRow.stepId
            · exact (history.2 row' before).elim
      | cacheHit =>
          refine ⟨fun output' executed => ?_, fun row recorded => ?_⟩
          · rw [executed_cons_of_ne (by simp)] at executed
            exact (history.1 output' executed).elim
          · rw [recorded_cons_of_ne (by simp)] at recorded
            exact (history.2 row recorded).elim
      | routed | enqueued | fallback | fell =>
          rcases Stage.afterEnqueue_cases _ _ with ⟨_, same⟩ | ⟨_, same⟩ <;> rw [same] <;> trivial
      | missing | cancelled | unparsed | quotaReached | leaf | completed | retry | finish
      | retried | finished | failed => trivial
      | _ =>
          refine ⟨fun output' executed => ?_, fun row recorded => ?_⟩
          · rw [executed_cons_of_ne (by simp)] at executed
            exact (history.1 output' executed).elim
          · rw [recorded_cons_of_ne (by simp)] at recorded
            exact (history.2 row recorded).elim

end Traces

/-! ## The invariant -/

/-- The jobs and deliveries of execution `x` of a workflow fit together. -/
structure Tidy (workflow : Definition) (x : String) (a : Stages) : Prop where
  stored : a.store.workflow workflow.id workflow.tenantId = some workflow
  jobs : ∀ job ∈ a.store.jobs, job.payload.executionId = x ∧
    job.payload.workflowId = workflow.id ∧ job.payload.tenantId = workflow.tenantId
  delivered : ∀ {i : Nat} {u : Thread Delivery Stage}, a.threads[i]? = some u →
    ∃ job, a.store.jobs[u.tag.job]? = some job ∧ job.payload = u.tag.payload ∧
      (u.settled = false → job.state = .active)
  alone : ∀ {i j : Nat} {u v : Thread Delivery Stage}, a.threads[i]? = some u →
    a.threads[j]? = some v → u.settled = false → v.settled = false →
    u.tag.job = v.tag.job → i = j
  ended : ∀ {i : Nat} {u : Thread Delivery Stage}, a.threads[i]? = some u →
    u.settled = true → u.body.progress ≠ .running
  contexts : ∀ {i : Nat} {u : Thread Delivery Stage} {c : JobContext},
    a.threads[i]? = some u → u.body.context = some c →
    c.workflow = workflow ∧ workflow.steps.find? (·.key = u.tag.payload.stepKey) = some c.step
  actors : ∀ event ∈ a.trace, event.actor < a.threads.length
  history : ∀ {i : Nat} {u : Thread Delivery Stage}, a.threads[i]? = some u →
    History a.trace i u.body

section Invariant

variable {rt : Runtime} {workflow : Definition} {x : String} {a : Stages} {i : Nat}
  {u : Thread Delivery Stage} {o : RunnerOp} {choice : Choice}
  {answer : RunnerIface.Answer o} {store : Store} {s' : Stage}

theorem Tidy.payload (tidy : Tidy workflow x a) (there : a.threads[i]? = some u) :
    u.tag.payload.executionId = x ∧ u.tag.payload.workflowId = workflow.id ∧
      u.tag.payload.tenantId = workflow.tenantId := by
  obtain ⟨job, found, same, _⟩ := tidy.delivered there
  rw [← same]
  exact tidy.jobs job (List.mem_of_getElem? found)

/-- A delivery that takes a step is not settled. -/
theorem Tidy.unsettled (tidy : Tidy workflow x a) (there : a.threads[i]? = some u)
    (step : u.body.Step rt u.tag.payload o answer s') : u.settled = false := by
  rw [← Bool.not_eq_true]
  intro settled
  exact tidy.ended there settled step.running

theorem Tidy.step_mem (tidy : Tidy workflow x a) {c : JobContext}
    (there : a.threads[i]? = some u) (context : u.body.context = some c) :
    c.step ∈ workflow.steps ∧ c.step.key = u.tag.payload.stepKey := by
  have find := (tidy.contexts there context).2
  exact ⟨List.mem_of_find?_eq_some find, by simpa using List.find?_some find⟩

/-- An operation leaves the workflows, and the jobs up to one that it appends. -/
theorem Store.handle_frame {store store' : Store} {s : Stage}
    {p : WorkflowExecutionJobPayload} (step : s.Step rt p o answer s')
    (answered : store.handle o choice = (answer, store')) :
    store'.workflows = store.workflows ∧
      (store'.jobs = store.jobs ∨ ∃ job : Job, store'.jobs = store.jobs ++ [job] ∧
        job.state = .waiting ∧ job.payload.executionId = p.executionId ∧
        job.payload.workflowId = p.workflowId ∧ job.payload.tenantId = p.tenantId) := by
  rcases Store.handle_cases step.uncreated answered with
    rfl | ⟨quotas, rfl⟩ | ⟨id, data, rfl, rfl⟩ | ⟨data, _, _, _, rfl⟩ |
      ⟨payload, options, rfl, _, rfl⟩
  · exact ⟨rfl, .inl rfl⟩
  · exact ⟨rfl, .inl rfl⟩
  · exact ⟨rfl, .inl rfl⟩
  · exact ⟨rfl, .inl rfl⟩
  · rcases Store.addJob_cases with same | same
    · rw [same]
      exact ⟨rfl, .inl rfl⟩
    · rw [same]
      exact ⟨rfl, .inr ⟨_, rfl, rfl, step.addJob_ids⟩⟩

theorem Tidy.run (tidy : Tidy workflow x a) (there : a.threads[i]? = some u)
    (answered : a.store.handle o choice = (answer, store))
    (step : u.body.Step rt u.tag.payload o answer s') :
    Tidy workflow x (a.advance i s' store ⟨i, o, answer⟩) := by
  obtain ⟨workflows, jobs⟩ := Store.handle_frame step answered
  have unsettled := tidy.unsettled there step
  obtain ⟨ownExecution, ownWorkflow, ownTenant⟩ := tidy.payload there
  constructor
  · have stored := tidy.stored
    rw [Store.workflow] at stored ⊢
    rw [World.advance_store, workflows]
    exact stored
  · intro job added
    rw [World.advance_store] at added
    rcases jobs with same | ⟨job', same, _, executionId, workflowId, tenantId⟩
    · rw [same] at added
      exact tidy.jobs job added
    · rw [same, List.mem_append, List.mem_singleton] at added
      rcases added with before | rfl
      · exact tidy.jobs job before
      · exact ⟨executionId.trans ownExecution, workflowId.trans ownWorkflow,
          tenantId.trans ownTenant⟩
  · intro j v after
    obtain ⟨v', before, sameTag, sameSettled⟩ := World.advance_kept after
    obtain ⟨job, found, payload, active⟩ := tidy.delivered before
    rw [sameTag, sameSettled, World.advance_store]
    refine ⟨job, ?_, payload, active⟩
    rcases jobs with same | ⟨job', same, _⟩ <;> rw [same]
    · exact found
    · rw [List.getElem?_append_left (List.getElem?_eq_some_iff.mp found).1]
      exact found
  · intro j k v v' afterJ afterK freeJ freeK sameJob
    obtain ⟨w, before, tag, settled⟩ := World.advance_kept afterJ
    obtain ⟨w', before', tag', settled'⟩ := World.advance_kept afterK
    exact tidy.alone before before' (settled ▸ freeJ) (settled' ▸ freeK)
      (tag ▸ tag' ▸ sameJob)
  · intro j v after settled
    rcases World.advance_cases there after with ⟨rfl, rfl⟩ | ⟨_, before⟩
    · rw [unsettled] at settled
      cases settled
    · exact tidy.ended before settled
  · intro j v c after context
    rcases World.advance_cases there after with ⟨rfl, rfl⟩ | ⟨_, before⟩
    · rcases step.context answered context with before | ⟨_, found, find⟩
      · have kept := tidy.contexts there before
        exact kept
      · rw [ownWorkflow, ownTenant, tidy.stored] at found
        cases Option.some.inj found
        exact ⟨rfl, find⟩
    · exact tidy.contexts before context
  · intro event added
    rw [World.advance_length]
    rcases List.mem_cons.mp added with rfl | before
    · exact (List.getElem?_eq_some_iff.mp there).1
    · exact tidy.actors event before
  · intro j v after
    rcases World.advance_cases there after with ⟨rfl, rfl⟩ | ⟨other, before⟩
    · exact (tidy.history there).step step
    · exact (tidy.history before).other (Ne.symm other)

theorem Tidy.setJob {n : Nat} {f : Job → Job} (tidy : Tidy workflow x a)
    (payload : ∀ job, (f job).payload = job.payload) :
    ∀ job ∈ (a.store.setJob n f).jobs, job.payload.executionId = x ∧
      job.payload.workflowId = workflow.id ∧ job.payload.tenantId = workflow.tenantId := by
  intro job there
  obtain ⟨m, found⟩ := List.mem_iff_getElem?.mp there
  simp only [Store.setJob, List.getElem?_modify] at found
  obtain ⟨job', found', rfl⟩ := Option.map_eq_some_iff.mp found
  have own := tidy.jobs job' (List.mem_of_getElem? found')
  split
  · rw [payload]
    exact own
  · exact own

theorem Tidy.of_store (tidy : Tidy workflow x a) (workflows : store.workflows = a.store.workflows)
    (jobs : store.jobs = a.store.jobs) :
    Tidy workflow x (a.change (fun _ => .guard) ⟨store, [], none⟩) := by
  have kept : ∀ {j : Nat} {v : Thread Delivery Stage},
      (a.change (fun _ => .guard) ⟨store, [], none⟩).threads[j]? = some v →
        a.threads[j]? = some v := by
    intro j v after
    rcases World.change_cases after with ⟨t, before, rfl⟩ | ⟨tag, _, spawned, _⟩
    · simpa using before
    · simp at spawned
  constructor
  · have stored := tidy.stored
    rw [Store.workflow] at stored ⊢
    rw [World.change_store, workflows]
    exact stored
  · rw [World.change_store, jobs]
    exact tidy.jobs
  · intro j v after
    rw [World.change_store, jobs]
    exact tidy.delivered (kept after)
  · intro j k v v' after after'
    exact tidy.alone (kept after) (kept after')
  · intro j v after
    exact tidy.ended (kept after)
  · intro j v c after
    exact tidy.contexts (kept after)
  · intro event there
    rw [World.change_length]
    exact Nat.lt_add_right _ (tidy.actors event there)
  · intro j v after
    exact tidy.history (kept after)

theorem Tidy.deliver {n : Nat} {job : Job} (tidy : Tidy workflow x a)
    (found : a.store.jobs[n]? = some job) (waiting : job.state = .waiting) :
    Tidy workflow x (a.change (fun _ => .guard)
      ⟨a.store.setJob n fun job => { job with state := .active }, [⟨n, job.payload⟩], none⟩) := by
  -- No delivery of the job is open, since an open one makes it active.
  have closed : ∀ {j : Nat} {v : Thread Delivery Stage}, a.threads[j]? = some v →
      v.tag.job = n → v.settled = true := by
    intro j v there same
    obtain ⟨job', found', _, active⟩ := tidy.delivered there
    rw [same, found] at found'
    cases Option.some.inj found'
    by_contra unsettled
    rw [active (by simpa using unsettled)] at waiting
    cases waiting
  have oldOrNew : ∀ {j : Nat} {v : Thread Delivery Stage},
      (a.change (fun _ => .guard) ⟨a.store.setJob n fun job => { job with state := .active },
        [⟨n, job.payload⟩], none⟩).threads[j]? = some v →
      a.threads[j]? = some v ∨ j = a.threads.length ∧ v = ⟨⟨n, job.payload⟩, .guard, false⟩ := by
    intro j v after
    rcases World.change_cases after with ⟨t, before, rfl⟩ | ⟨tag, beyond, spawned, rfl⟩
    · exact .inl (by simpa using before)
    · have bound := (List.getElem?_eq_some_iff.mp spawned).1
      rw [List.length_singleton] at bound
      obtain rfl : j = a.threads.length := by omega
      simp only [Nat.sub_self, List.getElem?_cons_zero, Option.some.injEq] at spawned
      exact .inr ⟨rfl, by rw [← spawned]⟩
  constructor
  · exact tidy.stored
  · exact tidy.setJob (fun _ => rfl)
  · intro j v after
    simp only [World.change_store, Store.setJob, List.getElem?_modify]
    rcases oldOrNew after with before | ⟨_, rfl⟩
    · obtain ⟨job', found', payload, active⟩ := tidy.delivered before
      by_cases same : n = v.tag.job
      · refine ⟨{ job' with state := .active }, by simp [found', same], payload, fun _ => rfl⟩
      · exact ⟨job', by simp [found', same], payload, active⟩
    · exact ⟨{ job with state := .active }, by simp [found], rfl, fun _ => rfl⟩
  · intro j k v v' after after' free free' sameJob
    rcases oldOrNew after with before | ⟨rfl, rfl⟩ <;>
      rcases oldOrNew after' with before' | ⟨rfl, rfl⟩
    · exact tidy.alone before before' free free' sameJob
    · rw [closed before sameJob] at free
      cases free
    · rw [closed before' sameJob.symm] at free'
      cases free'
    · rfl
  · intro j v after settled
    rcases oldOrNew after with before | ⟨_, rfl⟩
    · exact tidy.ended before settled
    · cases settled
  · intro j v c after context
    rcases oldOrNew after with before | ⟨_, rfl⟩
    · exact tidy.contexts before context
    · cases context
  · intro event there
    rw [World.change_length]
    exact Nat.lt_add_right _ (tidy.actors event there)
  · intro j v after
    rcases oldOrNew after with before | ⟨rfl, rfl⟩
    · exact tidy.history before
    · exact History.fresh fun event there => Nat.ne_of_lt (tidy.actors event there)

theorem Tidy.settle {f : Job → Job} (tidy : Tidy workflow x a) (there : a.threads[i]? = some u)
    (ended : u.body.progress ≠ .running) (free : u.settled = false)
    (payload : ∀ job, (f job).payload = job.payload) :
    Tidy workflow x (a.change (fun _ => .guard) ⟨a.store.setJob u.tag.job f, [], some i⟩) := by
  have kept : ∀ {j : Nat} {v : Thread Delivery Stage},
      (a.change (fun _ => .guard) ⟨a.store.setJob u.tag.job f, [], some i⟩).threads[j]? = some v →
      ∃ t, a.threads[j]? = some t ∧ v.tag = t.tag ∧ v.body = t.body ∧
        v.settled = (t.settled || decide (i = j)) := by
    intro j v after
    rcases World.change_cases after with ⟨t, before, rfl⟩ | ⟨tag, _, spawned, _⟩
    · exact ⟨t, before, rfl, rfl, by simp⟩
    · simp at spawned
  constructor
  · exact tidy.stored
  · exact tidy.setJob payload
  · intro j v after
    obtain ⟨t, before, tag, body, settled⟩ := kept after
    obtain ⟨job, found, samePayload, active⟩ := tidy.delivered before
    simp only [World.change_store, Store.setJob, List.getElem?_modify, tag, found]
    by_cases same : u.tag.job = t.tag.job
    · refine ⟨f job, by simp [same], (payload job).trans samePayload, fun free' => ?_⟩
      rw [settled, Bool.or_eq_false_iff, decide_eq_false_iff_not] at free'
      exact absurd (tidy.alone there before free free'.1 same) free'.2
    · refine ⟨job, by simp [same], samePayload, fun free' => active ?_⟩
      rw [settled, Bool.or_eq_false_iff] at free'
      exact free'.1
  · intro j k v v' after after' free' free'' sameJob
    obtain ⟨t, before, tag, _, settled⟩ := kept after
    obtain ⟨t', before', tag', _, settled'⟩ := kept after'
    rw [settled, Bool.or_eq_false_iff] at free'
    rw [settled', Bool.or_eq_false_iff] at free''
    exact tidy.alone before before' free'.1 free''.1 (tag ▸ tag' ▸ sameJob)
  · intro j v after settled
    obtain ⟨t, before, _, body, settled'⟩ := kept after
    rw [body]
    rw [settled', Bool.or_eq_true, decide_eq_true_eq] at settled
    rcases settled with settled | rfl
    · exact tidy.ended before settled
    · rw [there] at before
      cases Option.some.inj before
      exact ended
  · intro j v c after context
    obtain ⟨t, before, tag, body, _⟩ := kept after
    rw [tag]
    exact tidy.contexts before (body ▸ context)
  · intro event old
    rw [World.change_length]
    exact Nat.lt_add_right _ (tidy.actors event old)
  · intro j v after
    obtain ⟨t, before, _, body, _⟩ := kept after
    rw [body]
    exact tidy.history before

theorem Job.settle_payload (job : Job) (outcome : Outcome) :
    (job.settle outcome).payload = job.payload := by
  cases outcome <;> rfl

theorem Tidy.env {event : Outside} {c : Change Delivery Store} (tidy : Tidy workflow x a)
    (calm : ∀ n, event ≠ .stall n)
    (changed : outside event a.store (a.threads.map (Thread.map Stage.progress)) = some c) :
    Tidy workflow x (a.change (fun _ => .guard) c) := by
  rcases outside_cases calm changed with ⟨n, job, found, waiting, rfl⟩ |
    ⟨i, t, there, ended, free, rfl⟩ | ⟨id, rfl⟩ | ⟨quotas, rfl⟩
  · exact tidy.deliver found waiting
  · rw [List.getElem?_map] at there
    obtain ⟨u, found, rfl⟩ := Option.map_eq_some_iff.mp there
    exact tidy.settle found ended free fun job => job.settle_payload _
  · exact tidy.of_store rfl rfl
  · exact tidy.of_store rfl rfl

theorem Tidy.of_started {first : WorkflowStep} (started : Started store workflow first x) :
    Tidy workflow x ⟨store, [], []⟩ := by
  obtain ⟨job, jobs, _, _, _, executionId, _, workflowId, tenantId⟩ := started.jobs
  constructor
  · exact started.stored
  · intro job' there
    rw [show (⟨store, [], []⟩ : Stages).store.jobs = [job] from jobs] at there
    cases List.mem_singleton.mp there
    exact ⟨executionId, workflowId, tenantId⟩
  all_goals intros; simp_all

end Invariant

end Workflow
