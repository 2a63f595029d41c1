import BirthHub.Workflow.Deliveries

/-!
# Effects at most once

When executing a step completes at most once in an execution, and no job of it ends by an
escaping exception, provided database and queue fail only by a unique constraint. The
code runs the effect before it stores the row that the constraint protects; so what keeps
effects apart is that each pair of a step and an attempt is enqueued once. `Once` is the
invariant: such a pair has one job and one delivery, a row belongs to the delivery that
stored it, and an attempt follows one that failed.
-/

namespace Workflow

open Data Effect

/-! ## The property -/

/-- The step whose execution completes with this event. -/
def effectOf {β : Type} (w : World RunnerIface Delivery Store β) (event : Event RunnerIface) :
    Option String :=
  match event with
  | ⟨i, .executeStep _ _, .ok _⟩ => stepKeyOf w i
  | _ => none

/-- The stages of a delivery that has stored its row, or needs none. -/
def Stage.hasStored : Stage → Bool
  | .recorded .. | .completing _ | .enqueuing .. | .retrying _ | .falling .. | .finishing _
  | .returned => true
  | _ => false

/-- A delivery in the `catch` has not executed its step, and none has thrown. -/
def Unthrown (trace : List (Event RunnerIface)) (i : Nat) : Stage → Prop
  | .catching _ | .retrying _ | .falling .. | .finishing _ => ∀ output, ¬ Executed trace i output
  | .threw => False
  | _ => True

/-- The step and the attempt of a job. -/
def Job.attempt (job : Job) : String × Nat := (job.payload.stepKey, job.payload.attempt)

structure Once (workflow : Definition) (x : String) (a : Stages) : Prop where
  persisted : PersistedSteps workflow.steps
  execution : (a.store.execution x).isSome
  jobs : (a.store.jobs.map Job.attempt).Nodup
  positive : ∀ job ∈ a.store.jobs, 1 ≤ job.payload.attempt
  delivered : ∀ {i j : Nat} {u v : Thread Delivery Stage}, a.threads[i]? = some u →
    a.threads[j]? = some v → u.tag.job = v.tag.job → i = j
  waiting : ∀ {n i : Nat} {job : Job} {u : Thread Delivery Stage},
    a.store.jobs[n]? = some job → job.state = .waiting → a.threads[i]? = some u → u.tag.job ≠ n
  rows : ∀ row ∈ a.store.stepResults, row.executionId = x →
    ∃ (i : Nat) (u : Thread Delivery Stage) (step : WorkflowStep),
      a.threads[i]? = some u ∧ u.body.hasStored ∧ step ∈ workflow.steps ∧
        row.stepId = step.id ∧ step.key = u.tag.payload.stepKey ∧
        row.attempt = u.tag.payload.attempt
  retries : ∀ job ∈ a.store.jobs, job.payload.attempt ≠ 1 →
    ∃ (i : Nat) (u : Thread Delivery Stage), a.threads[i]? = some u ∧ u.body = .returned ∧
      u.tag.payload.stepKey = job.payload.stepKey ∧
      u.tag.payload.attempt + 1 = job.payload.attempt ∧ ∀ output, ¬ Executed a.trace i output
  unthrown : ∀ {i : Nat} {u : Thread Delivery Stage}, a.threads[i]? = some u →
    Unthrown a.trace i u.body
  effects : (a.trace.filterMap (effectOf a)).Nodup

section Invariant

variable {rt : Runtime} {workflow : Definition} {x : String} {a : Stages} {i j : Nat}
  {u v : Thread Delivery Stage} {o : RunnerOp} {choice : Choice}
  {answer : RunnerIface.Answer o} {store : Store} {s' : Stage}

theorem Once.job_unique {n m : Nat} {job job' : Job} (once : Once workflow x a)
    (found : a.store.jobs[n]? = some job) (found' : a.store.jobs[m]? = some job')
    (same : job.attempt = job'.attempt) : n = m := by
  have left : (a.store.jobs.map Job.attempt)[n]? = some job.attempt := by simp [found]
  have right : (a.store.jobs.map Job.attempt)[m]? = some job.attempt := by simp [found', same]
  obtain ⟨bound, value⟩ := List.getElem?_eq_some_iff.mp left
  obtain ⟨bound', value'⟩ := List.getElem?_eq_some_iff.mp right
  exact (List.Nodup.getElem_inj_iff once.jobs).mp (value.trans value'.symm)

theorem Once.delivery_unique (tidy : Tidy workflow x a) (once : Once workflow x a)
    (there : a.threads[i]? = some u) (there' : a.threads[j]? = some v)
    (key : u.tag.payload.stepKey = v.tag.payload.stepKey)
    (attempt : u.tag.payload.attempt = v.tag.payload.attempt) : i = j := by
  obtain ⟨job, found, payload, _⟩ := tidy.delivered there
  obtain ⟨job', found', payload', _⟩ := tidy.delivered there'
  refine once.delivered there there' (once.job_unique found found' ?_)
  rw [Job.attempt, Job.attempt, payload, payload', key, attempt]

/-- Of a step that has reached attempt `m`, no delivery of an earlier attempt has executed
it. -/
theorem Once.not_executed (tidy : Tidy workflow x a) (once : Once workflow x a)
    (there : a.threads[i]? = some u) {job : Job} (later : job ∈ a.store.jobs)
    (key : job.payload.stepKey = u.tag.payload.stepKey) {d : Nat}
    (attempt : job.payload.attempt = u.tag.payload.attempt + 1 + d) :
    u.body = .returned ∧ ∀ output, ¬ Executed a.trace i output := by
  have first : 1 ≤ u.tag.payload.attempt := by
    obtain ⟨own, found, payload, _⟩ := tidy.delivered there
    rw [← payload]
    exact once.positive own (List.mem_of_getElem? found)
  induction d generalizing job with
  | zero =>
      obtain ⟨j, v, there', returned, sameKey, next, unexecuted⟩ := once.retries job later (by omega)
      obtain rfl := once.delivery_unique tidy there there' (key.symm.trans sameKey.symm) (by omega)
      rw [there] at there'
      cases Option.some.inj there'
      exact ⟨returned, unexecuted⟩
  | succ d ih =>
      obtain ⟨j, v, there', _, sameKey, next, _⟩ := once.retries job later (by omega)
      obtain ⟨job', found, payload, _⟩ := tidy.delivered there'
      refine ih (List.mem_of_getElem? found) ?_ ?_
      · rw [payload, sameKey, key]
      · rw [payload]
        omega

theorem effectOf_advance {event : Event RunnerIface} :
    effectOf (a.advance i s' store event) = effectOf a := by
  funext e
  rcases e with ⟨k, o, answer⟩
  cases o <;> cases answer <;> first | rfl | exact congrFun stepKeyOf_advance k

/-- The step of an event that completes an execution. -/
theorem effectOf_eq_some {event : Event RunnerIface} {key : String} {trace : List (Event RunnerIface)}
    (there : event ∈ trace) (effect : effectOf a event = some key) :
    ∃ v output, a.threads[event.actor]? = some v ∧ v.tag.payload.stepKey = key ∧
      Executed trace event.actor output := by
  rcases event with ⟨k, o, answer⟩
  cases o <;> cases answer <;> first
    | cases effect
    | (obtain ⟨v, found, same⟩ := Option.map_eq_some_iff.mp effect
       exact ⟨v, _, found, same, _, _, there⟩)

/-- A delivery that is about to execute its step is the first to do so. -/
theorem Once.fresh_effect (tidy : Tidy workflow x a) (once : Once workflow x a)
    (there : a.threads[i]? = some u) {c : JobContext} (trying : u.body = .trying c) :
    u.tag.payload.stepKey ∉ a.trace.filterMap (effectOf a) := by
  intro member
  obtain ⟨event, old, effect⟩ := List.mem_filterMap.mp member
  obtain ⟨v, output, there', key, executed⟩ := effectOf_eq_some old effect
  have history := tidy.history there
  rw [trying] at history
  obtain ⟨own, found, payload, _⟩ := tidy.delivered there
  obtain ⟨own', found', payload', _⟩ := tidy.delivered there'
  rcases Nat.lt_trichotomy v.tag.payload.attempt u.tag.payload.attempt with earlier | same | later
  · obtain ⟨d, gap⟩ := Nat.exists_eq_add_of_lt earlier
    have unexecuted := (once.not_executed tidy there' (List.mem_of_getElem? found) (d := d)
      (by rw [payload, key]) (by rw [payload]; omega)).2
    exact unexecuted output executed
  · have sameDelivery := once.delivery_unique tidy there' there key same
    rw [sameDelivery] at executed
    exact history.1 output executed
  · obtain ⟨d, gap⟩ := Nat.exists_eq_add_of_lt later
    have returned := (once.not_executed tidy there (List.mem_of_getElem? found') (d := d)
      (by rw [payload', key]) (by rw [payload']; omega)).1
    rw [trying] at returned
    cases returned

/-! ### A step of a delivery -/

/-- The run is without faults and the step parses: the reasons for which a delivery can
fail but for the step it executes. -/
structure Smooth (rt : Runtime) (workflow : Definition) (choice : Choice) : Prop where
  faultless : choice.fault = none
  parses : ∀ step ∈ workflow.steps, (rt.parseStep (stepInput step)).isOk

/-- An operation fails only by the step it executes. -/
theorem Once.error {e : Thrown} (smooth : Smooth rt workflow choice) (tidy : Tidy workflow x a)
    (once : Once workflow x a) (there : a.threads[i]? = some u)
    (answered : a.store.handle o choice = (.error e, store))
    (step : u.body.Step rt u.tag.payload o (.error e) s') :
    (∃ parsed context, o = .executeStep parsed context) ∧
      ∃ c, u.body = .trying c ∧ s' = .catching c := by
  have awaits := step.awaits
  have own := (tidy.payload there).1
  rcases Store.handle_error_cases smooth.faultless answered with
    ⟨parsed, context, rfl⟩ | ⟨data, rfl, taken⟩ | ⟨id, data, rfl, absent⟩
  · generalize body : u.body = s at step awaits
    cases s with
    | trying c => exact ⟨⟨_, _, rfl⟩, c, rfl, step.2⟩
    | _ => simp [Stage.Awaits] at awaits
  · -- The row that is in the way was stored by this delivery, which is not there yet.
    exfalso
    obtain ⟨row, present, same⟩ := List.any_eq_true.mp taken
    rw [decide_eq_true_eq] at same
    have rowOf : ∃ c, u.body.context = some c ∧ u.body.hasStored = false ∧
        IsRow u.tag.payload c data := by
      generalize u.body = s at awaits
      cases s <;> simp only [Stage.Awaits, reduceCtorEq, or_self, exists_const,
        RunnerOp.createStepResult.injEq, and_false, exists_false] at awaits
      all_goals
        obtain ⟨_, rfl, isRow, _⟩ := awaits
        exact ⟨_, rfl, rfl, isRow⟩
    obtain ⟨c, context, unstored, isRow⟩ := rowOf
    obtain ⟨j, v, source, there', stored, known, rowStep, key, attempt⟩ :=
      once.rows row present (same.1.trans (isRow.executionId.trans own))
    obtain ⟨mine, myKey⟩ := tidy.step_mem there context
    have sameStep := once.persisted.eq_of_id known mine
      (rowStep.symm.trans (same.2.1.trans isRow.stepId))
    obtain rfl := once.delivery_unique tidy there there'
      (by rw [← key, sameStep, myKey]) (by rw [← attempt, same.2.2, isRow.attempt])
    rw [there] at there'
    cases Option.some.inj there'
    rw [unstored] at stored
    cases stored
  · exfalso
    have execution := once.execution
    rw [← own, ← step.of_update.1, absent] at execution
    cases execution

theorem Stage.Step.hasStored {r : o.Result} {p : WorkflowExecutionJobPayload} {s : Stage}
    (step : s.Step rt p o (.ok r) s') (stored : s.hasStored) : s'.hasStored := by
  have awaits := step.awaits
  cases step.2 with
  | clock _ => exact stored
  | routed | enqueued | fallback | fell =>
      rcases Stage.afterEnqueue_cases _ _ with ⟨_, same⟩ | ⟨_, same⟩ <;> rw [same] <;> rfl
  | _ => first | rfl | cases stored

theorem Stage.Step.stores {p : WorkflowExecutionJobPayload} {s : Stage} {row : StepResult}
    {r : Unit} (step : s.Step rt p (.createStepResult row) (.ok r) s') :
    (∃ c, s.context = some c ∧ IsRow p c row) ∧ s'.hasStored := by
  have awaits := step.awaits
  cases step.2 with
  | stored | retry | finish =>
      obtain ⟨row, same, isRow, _⟩ := awaits
      cases same
      exact ⟨⟨_, rfl, isRow⟩, rfl⟩
  | fallback =>
      obtain ⟨row, same, isRow, _⟩ := awaits
      cases same
      refine ⟨⟨_, rfl, isRow⟩, ?_⟩
      rcases Stage.afterEnqueue_cases _ _ with ⟨_, same⟩ | ⟨_, same⟩ <;> rw [same] <;> rfl

theorem Unthrown.congr {trace trace' : List (Event RunnerIface)} {s : Stage}
    (unthrown : Unthrown trace i s)
    (executed : ∀ output, Executed trace' i output ↔ Executed trace i output) :
    Unthrown trace' i s := by
  cases s <;> simp only [Unthrown, executed] at unthrown ⊢ <;> exact unthrown

theorem Unthrown.ok {r : o.Result} (smooth : Smooth rt workflow choice)
    (tidy : Tidy workflow x a) (once : Once workflow x a) (there : a.threads[i]? = some u)
    (step : u.body.Step rt u.tag.payload o (.ok r) s') :
    Unthrown (⟨i, o, .ok r⟩ :: a.trace) i s' := by
  have unthrown := once.unthrown there
  have history := tidy.history there
  have known : ∀ {c}, u.body.context = some c → c.step ∈ workflow.steps :=
    fun context => (tidy.step_mem there context).1
  generalize u.body = s at step unthrown history known
  have awaits := step.awaits
  cases step.2 with
  | unparsed parse =>
      have parses := smooth.parses _ (known rfl)
      rw [parse] at parses
      cases parses
  | clock _ => exact unthrown.congr fun _ => executed_cons_of_ne (by simp)
  | quotaReached =>
      intro output executed
      rw [executed_cons_of_ne (by simp)] at executed
      exact history.1 output executed
  | retry | finish =>
      intro output executed
      rw [executed_cons_of_ne (by simp)] at executed
      exact unthrown output executed
  | fallback | fell =>
      rcases Stage.afterEnqueue_cases _ _ with ⟨_, same⟩ | ⟨_, same⟩ <;> rw [same]
      · trivial
      · intro output executed
        rw [executed_cons_of_ne (by simp)] at executed
        exact unthrown output executed
  | routed | enqueued =>
      rcases Stage.afterEnqueue_cases _ _ with ⟨_, same⟩ | ⟨_, same⟩ <;> rw [same] <;> trivial
  | _ => trivial

/-- A job that is added is for a step and an attempt that no job is for. -/
theorem Once.addJob_fresh {job : WorkflowExecutionJobPayload} {options : JobOptions}
    {answer : RunnerIface.Answer (.addJob job options)} (tidy : Tidy workflow x a)
    (once : Once workflow x a) (there : a.threads[i]? = some u)
    (step : u.body.Step rt u.tag.payload (.addJob job options) answer s')
    (first : job.attempt = 1 → ∀ job' ∈ a.store.jobs, job'.attempt ≠ (job.stepKey, 1)) :
    1 ≤ job.attempt ∧ ∀ job' ∈ a.store.jobs, job'.attempt ≠ (job.stepKey, job.attempt) := by
  rcases step.of_addJob with ⟨target, rest, _, rfl⟩ | ⟨⟨c, retrying⟩, rfl⟩
  · exact ⟨Nat.le_refl 1, first rfl⟩
  · refine ⟨Nat.le_add_left 1 _, fun job' present same => ?_⟩
    obtain ⟨key, attempt⟩ := Prod.mk.inj same
    have returned := (once.not_executed tidy there present (d := 0) key attempt).1
    rw [retrying] at returned
    cases returned

/-- What a step does to the jobs: nothing, or it appends one that is new. -/
theorem Once.jobs_cases (tidy : Tidy workflow x a) (once : Once workflow x a)
    (there : a.threads[i]? = some u) (answered : a.store.handle o choice = (answer, store))
    (step : u.body.Step rt u.tag.payload o answer s')
    (first : ∀ job options, o = .addJob job options → job.attempt = 1 →
      a.store.holdsJob options.jobId choice.retained = true ∨
        ∀ job' ∈ a.store.jobs, job'.attempt ≠ (job.stepKey, 1)) :
    store.jobs = a.store.jobs ∨
    ∃ (job : Job) (options : JobOptions), o = .addJob job.payload options ∧
      (∃ r, answer = .ok r) ∧ store.jobs = a.store.jobs ++ [job] ∧
      1 ≤ job.payload.attempt ∧ ∀ job' ∈ a.store.jobs, job'.attempt ≠ job.attempt := by
  rcases Store.handle_cases step.uncreated answered with
    rfl | ⟨quotas, rfl⟩ | ⟨id, data, _, rfl⟩ | ⟨data, _, _, _, rfl⟩ |
      ⟨payload, options, rfl, added, rfl⟩
  · exact .inl rfl
  · exact .inl rfl
  · exact .inl rfl
  · exact .inl rfl
  · rcases Store.addJob_cases with same | same
    · exact .inl (by rw [same])
    by_cases held : a.store.holdsJob options.jobId choice.retained = true
    · exact .inl (by simp [Store.addJob, held])
    have fresh := once.addJob_fresh tidy there step fun attempt =>
      (first _ _ rfl attempt).resolve_left held
    exact .inr ⟨_, options, rfl, added, congrArg Store.jobs same, fresh.1, fresh.2⟩

theorem executed_other {event : Event RunnerIface} {trace : List (Event RunnerIface)}
    (other : j ≠ event.actor) (output : Option Json) :
    Executed (event :: trace) j output ↔ Executed trace j output := by
  rw [executed_cons]
  refine or_iff_right ?_
  rintro ⟨_, _, rfl⟩
  exact other rfl

/-- After a step every row still belongs to a delivery that has stored it. -/
theorem Once.rows_run (smooth : Smooth rt workflow choice) (tidy : Tidy workflow x a)
    (once : Once workflow x a) (there : a.threads[i]? = some u)
    (answered : a.store.handle o choice = (answer, store))
    (step : u.body.Step rt u.tag.payload o answer s') :
    ∀ row ∈ store.stepResults, row.executionId = x →
      ∃ (j : Nat) (v : Thread Delivery Stage) (source : WorkflowStep),
        (a.advance i s' store ⟨i, o, answer⟩).threads[j]? = some v ∧ v.body.hasStored ∧
          source ∈ workflow.steps ∧ row.stepId = source.id ∧
          source.key = v.tag.payload.stepKey ∧ row.attempt = v.tag.payload.attempt := by
  intro row present execution
  have old (before : row ∈ a.store.stepResults) : ∃ (j : Nat) (v : Thread Delivery Stage)
      (source : WorkflowStep), (a.advance i s' store ⟨i, o, answer⟩).threads[j]? = some v ∧
        v.body.hasStored ∧ source ∈ workflow.steps ∧ row.stepId = source.id ∧
        source.key = v.tag.payload.stepKey ∧ row.attempt = v.tag.payload.attempt := by
    obtain ⟨j, v, source, found, stored, rest⟩ := once.rows row before execution
    by_cases same : j = i
    · subst same
      rw [there] at found
      cases Option.some.inj found
      refine ⟨j, _, source, World.advance_self there, ?_, rest⟩
      cases answer with
      | ok r => exact step.hasStored stored
      | error e =>
          obtain ⟨_, c, trying, _⟩ := once.error smooth tidy there answered step
          rw [trying] at stored
          cases stored
    · exact ⟨j, v, source, (World.advance_other same).trans found, stored, rest⟩
  rcases Store.handle_cases step.uncreated answered with
    rfl | ⟨quotas, rfl⟩ | ⟨id, data, _, rfl⟩ | ⟨data, rfl, ⟨r, rfl⟩, _, rfl⟩ |
      ⟨payload, options, _, _, rfl⟩
  · exact old present
  · exact old present
  · exact old present
  · rcases List.mem_append.mp present with before | new
    · exact old before
    · obtain rfl := List.mem_singleton.mp new
      obtain ⟨⟨c, context, isRow⟩, stored⟩ := step.stores
      obtain ⟨known, key⟩ := tidy.step_mem there context
      exact ⟨i, _, c.step, World.advance_self there, stored, known, isRow.stepId, key,
        isRow.attempt⟩
  · rcases Store.addJob_cases with same | same <;> rw [same] at present <;> exact old present

/-- After a step every later attempt still follows a delivery that has not executed. -/
theorem Once.retries_run (tidy : Tidy workflow x a) (once : Once workflow x a)
    (there : a.threads[i]? = some u) (answered : a.store.handle o choice = (answer, store))
    (step : u.body.Step rt u.tag.payload o answer s')
    (first : ∀ job options, o = .addJob job options → job.attempt = 1 →
      a.store.holdsJob options.jobId choice.retained = true ∨
        ∀ job' ∈ a.store.jobs, job'.attempt ≠ (job.stepKey, 1)) :
    ∀ job ∈ store.jobs, job.payload.attempt ≠ 1 →
      ∃ (j : Nat) (v : Thread Delivery Stage),
        (a.advance i s' store ⟨i, o, answer⟩).threads[j]? = some v ∧ v.body = .returned ∧
          v.tag.payload.stepKey = job.payload.stepKey ∧
          v.tag.payload.attempt + 1 = job.payload.attempt ∧
          ∀ output, ¬ Executed (⟨i, o, answer⟩ :: a.trace) j output := by
  intro job present attempt
  have running := step.running
  have old (before : job ∈ a.store.jobs) : ∃ (j : Nat) (v : Thread Delivery Stage),
      (a.advance i s' store ⟨i, o, answer⟩).threads[j]? = some v ∧ v.body = .returned ∧
        v.tag.payload.stepKey = job.payload.stepKey ∧
        v.tag.payload.attempt + 1 = job.payload.attempt ∧
        ∀ output, ¬ Executed (⟨i, o, answer⟩ :: a.trace) j output := by
    obtain ⟨j, v, found, returned, key, next, unexecuted⟩ := once.retries job before attempt
    have other : j ≠ i := by
      rintro rfl
      rw [there] at found
      cases Option.some.inj found
      rw [returned] at running
      cases running
    exact ⟨j, v, (World.advance_other other).trans found, returned, key, next,
      fun output executed => unexecuted output ((executed_other other output).mp executed)⟩
  rcases once.jobs_cases tidy there answered step first with
    same | ⟨added, options, rfl, ⟨r, rfl⟩, same, _⟩ <;> rw [same] at present
  · exact old present
  rcases List.mem_append.mp present with before | new
  · exact old before
  obtain rfl := List.mem_singleton.mp new
  rcases step.of_addJob with ⟨target, rest, _, same⟩ | ⟨⟨c, retrying⟩, same⟩
  · rw [same] at attempt
    exact (attempt rfl).elim
  have unthrown := once.unthrown there
  rw [retrying] at unthrown step
  refine ⟨i, _, World.advance_self there, ?_, ?_, ?_, ?_⟩
  · cases step.2
    rfl
  · rw [same]
    rfl
  · rw [same]
    rfl
  · intro output executed
    rw [executed_cons_of_ne (by simp)] at executed
    exact unthrown output executed

theorem Once.unthrown_run (smooth : Smooth rt workflow choice) (tidy : Tidy workflow x a)
    (once : Once workflow x a) (there : a.threads[i]? = some u)
    (answered : a.store.handle o choice = (answer, store))
    (step : u.body.Step rt u.tag.payload o answer s') {v : Thread Delivery Stage}
    (after : (a.advance i s' store ⟨i, o, answer⟩).threads[j]? = some v) :
    Unthrown (⟨i, o, answer⟩ :: a.trace) j v.body := by
  rcases World.advance_cases there after with ⟨rfl, rfl⟩ | ⟨other, before⟩
  · cases answer with
    | ok r => exact .ok smooth tidy once there step
    | error e =>
        obtain ⟨⟨_, _, rfl⟩, c, trying, rfl⟩ := once.error smooth tidy there answered step
        have history := tidy.history there
        rw [trying] at history
        intro output executed
        rcases executed_cons.mp executed with ⟨_, _, same⟩ | executed
        · cases same
        · exact history.1 output executed
  · exact (once.unthrown before).congr (executed_other other)

/-- After a step the executed steps are still pairwise different. -/
theorem Once.effects_run (tidy : Tidy workflow x a) (once : Once workflow x a)
    (there : a.threads[i]? = some u) (step : u.body.Step rt u.tag.payload o answer s') :
    ((⟨i, o, answer⟩ :: a.trace : List (Event RunnerIface)).filterMap (effectOf a)).Nodup := by
  rw [List.filterMap_cons]
  split
  · exact once.effects
  · rename_i key effect
    refine List.nodup_cons.mpr ⟨?_, once.effects⟩
    obtain ⟨v, output, found, same, executed⟩ := effectOf_eq_some (List.mem_singleton_self _) effect
    rw [there] at found
    cases Option.some.inj found
    subst same
    rcases executed_cons.mp executed with ⟨parsed, context, same⟩ | ⟨_, _, old⟩
    · cases same
      have awaits := step.awaits
      generalize body : u.body = s at awaits
      cases s with
      | trying c => exact once.fresh_effect tidy there body
      | _ => simp [Stage.Awaits] at awaits
    · cases old

theorem Once.run (smooth : Smooth rt workflow choice) (tidy : Tidy workflow x a)
    (once : Once workflow x a) (there : a.threads[i]? = some u)
    (answered : a.store.handle o choice = (answer, store))
    (step : u.body.Step rt u.tag.payload o answer s')
    (first : ∀ job options, o = .addJob job options → job.attempt = 1 →
      a.store.holdsJob options.jobId choice.retained = true ∨
        ∀ job' ∈ a.store.jobs, job'.attempt ≠ (job.stepKey, 1)) :
    Once workflow x (a.advance i s' store ⟨i, o, answer⟩) := by
  have jobs := once.jobs_cases tidy there answered step first
  constructor
  · exact once.persisted
  · rcases Store.handle_execution x step.uncreated answered with same | ⟨data, _, same⟩
    · rw [World.advance_store, same]
      exact once.execution
    · rw [World.advance_store, same, Option.isSome_map]
      exact once.execution
  · rw [World.advance_store]
    rcases jobs with same | ⟨job, _, _, _, same, _, fresh⟩ <;> rw [same]
    · exact once.jobs
    · rw [List.map_append, List.map_singleton, List.nodup_append]
      refine ⟨once.jobs, List.nodup_singleton _, ?_⟩
      simpa using fresh
  · rw [World.advance_store]
    rcases jobs with same | ⟨job, _, _, _, same, positive, _⟩ <;> rw [same]
    · exact once.positive
    · simpa [or_imp, forall_and] using ⟨once.positive, positive⟩
  · intro j k v v' after after' same
    obtain ⟨t, before, tag, _⟩ := World.advance_kept after
    obtain ⟨t', before', tag', _⟩ := World.advance_kept after'
    exact once.delivered before before' (tag ▸ tag' ▸ same)
  · intro n j job v found waiting after
    obtain ⟨t, before, tag, _⟩ := World.advance_kept after
    rw [tag]
    rw [World.advance_store] at found
    obtain ⟨own, ownFound, _⟩ := tidy.delivered before
    have bound := (List.getElem?_eq_some_iff.mp ownFound).1
    rcases jobs with same | ⟨added, _, _, _, same, _⟩ <;> rw [same] at found
    · exact once.waiting found waiting before
    · rcases Nat.lt_or_ge n a.store.jobs.length with inside | beyond
      · rw [List.getElem?_append_left inside] at found
        exact once.waiting found waiting before
      · omega
  · exact once.rows_run smooth tidy there answered step
  · exact once.retries_run tidy there answered step first
  · exact once.unthrown_run smooth tidy there answered step
  · rw [effectOf_advance, World.advance_trace]
    exact once.effects_run tidy there step

/-! ### A step of the outside -/

/-- The outside adds no row, no event and no job, and moves a job forward only. -/
theorem Once.change {c : Change Delivery Store} (once : Once workflow x a)
    (execution : (c.store.execution x).isSome)
    (jobs : c.store.jobs.map (·.payload) = a.store.jobs.map (·.payload))
    (results : c.store.stepResults = a.store.stepResults)
    (delivered : ∀ {k l : Nat} {v v' : Thread Delivery Stage},
      (a.change (fun _ => .guard) c).threads[k]? = some v →
      (a.change (fun _ => .guard) c).threads[l]? = some v' → v.tag.job = v'.tag.job → k = l)
    (waiting : ∀ {n k : Nat} {job : Job} {v : Thread Delivery Stage},
      c.store.jobs[n]? = some job → job.state = .waiting →
      (a.change (fun _ => .guard) c).threads[k]? = some v → v.tag.job ≠ n)
    (actors : ∀ event ∈ a.trace, event.actor < a.threads.length) :
    Once workflow x (a.change (fun _ => .guard) c) := by
  have attempts : c.store.jobs.map Job.attempt = a.store.jobs.map Job.attempt := by
    have mapped := congrArg (List.map fun p : WorkflowExecutionJobPayload =>
      (p.stepKey, p.attempt)) jobs
    rw [List.map_map, List.map_map] at mapped
    exact mapped
  have payloads : ∀ job ∈ c.store.jobs, ∃ job' ∈ a.store.jobs, job'.payload = job.payload := by
    intro job present
    have mapped : job.payload ∈ a.store.jobs.map (·.payload) :=
      jobs ▸ List.mem_map_of_mem present
    exact List.mem_map.mp mapped
  constructor
  · exact once.persisted
  · exact execution
  · rw [World.change_store, attempts]
    exact once.jobs
  · intro job present
    obtain ⟨job', before, same⟩ := payloads job present
    rw [← same]
    exact once.positive job' before
  · exact delivered
  · exact waiting
  · intro row present
    rw [World.change_store, results] at present
    intro own
    obtain ⟨k, v, source, found, rest⟩ := once.rows row present own
    exact ⟨k, _, source, World.change_kept found, rest⟩
  · intro job present attempt
    obtain ⟨job', before, same⟩ := payloads job present
    rw [← same] at attempt ⊢
    obtain ⟨k, v, found, rest⟩ := once.retries job' before attempt
    exact ⟨k, _, World.change_kept found, rest⟩
  · intro k v after
    rcases World.change_cases after with ⟨t, before, rfl⟩ | ⟨tag, _, _, rfl⟩
    · have kept := once.unthrown before
      exact kept
    · trivial
  · have same : ∀ event ∈ a.trace,
        effectOf (a.change (fun _ => .guard) c) event = effectOf a event := by
      intro event present
      rcases event with ⟨k, o, answer⟩
      cases o <;> cases answer <;> first
        | rfl
        | exact stepKeyOf_change (actors _ present)
    rw [World.change_trace, List.filterMap_congr same]
    exact once.effects

/-- A payload by place is kept when BullMQ moves one job. -/
theorem Store.setJob_payloads {store : Store} {n : Nat} {f : Job → Job}
    (payload : ∀ job, (f job).payload = job.payload) :
    (store.setJob n f).jobs.map (·.payload) = store.jobs.map (·.payload) := by
  refine List.ext_getElem? fun m => ?_
  simp only [Store.setJob, List.getElem?_map, List.getElem?_modify]
  by_cases same : n = m <;> cases store.jobs[m]? <;> simp [same, payload]

theorem Once.env {event : Outside} {c : Change Delivery Store} (tidy : Tidy workflow x a)
    (once : Once workflow x a) (calm : ∀ n, event ≠ .stall n)
    (changed : outside event a.store (a.threads.map (Thread.map Stage.progress)) = some c) :
    Once workflow x (a.change (fun _ => .guard) c) := by
  -- Threads that were there before, as long as the outside starts none.
  have kept : ∀ {store : Store} {settle : Option Nat} {k : Nat} {v : Thread Delivery Stage},
      (a.change (fun _ => .guard) ⟨store, [], settle⟩).threads[k]? = some v →
        ∃ t, a.threads[k]? = some t ∧ v.tag = t.tag := by
    intro store settle k v after
    rcases World.change_cases after with ⟨t, before, rfl⟩ | ⟨tag, _, spawned, _⟩
    · exact ⟨t, before, rfl⟩
    · simp at spawned
  have delivered : ∀ {store : Store} {settle : Option Nat} {k l : Nat}
      {v v' : Thread Delivery Stage},
      (a.change (fun _ => .guard) ⟨store, [], settle⟩).threads[k]? = some v →
      (a.change (fun _ => .guard) ⟨store, [], settle⟩).threads[l]? = some v' →
        v.tag.job = v'.tag.job → k = l := by
    intro store settle k l v v' after after' same
    obtain ⟨t, before, tag⟩ := kept after
    obtain ⟨t', before', tag'⟩ := kept after'
    exact once.delivered before before' (tag ▸ tag' ▸ same)
  rcases outside_cases calm changed with ⟨n, job, found, waiting, rfl⟩ |
    ⟨k, t, there, ended, free, rfl⟩ | ⟨id, rfl⟩ | ⟨quotas, rfl⟩
  · -- A waiting job has no delivery yet.
    have oldOrNew : ∀ {k : Nat} {v : Thread Delivery Stage},
        (a.change (fun _ => .guard) ⟨a.store.setJob n fun job => { job with state := .active },
          [⟨n, job.payload⟩], none⟩).threads[k]? = some v →
        (∃ t, a.threads[k]? = some t ∧ v.tag.job = t.tag.job ∧ v.tag.job ≠ n) ∨
          k = a.threads.length ∧ v.tag.job = n := by
      intro k v after
      rcases World.change_cases after with ⟨t, before, rfl⟩ | ⟨tag, beyond, spawned, rfl⟩
      · have other := once.waiting found waiting before
        exact .inl ⟨t, before, rfl, other⟩
      · have bound := (List.getElem?_eq_some_iff.mp spawned).1
        rw [List.length_singleton] at bound
        obtain rfl : k = a.threads.length := by omega
        simp only [Nat.sub_self, List.getElem?_cons_zero, Option.some.injEq] at spawned
        exact .inr ⟨rfl, by rw [← spawned]⟩
    refine once.change once.execution (Store.setJob_payloads fun _ => rfl) rfl ?_ ?_ tidy.actors
    · intro k l v v' after after' same
      rcases oldOrNew after with ⟨t, before, job, other⟩ | ⟨rfl, job⟩ <;>
        rcases oldOrNew after' with ⟨t', before', job', other'⟩ | ⟨rfl, job'⟩
      · exact once.delivered before before' (job ▸ job' ▸ same)
      · exact absurd (same.trans job') other
      · exact absurd (same.symm.trans job) other'
      · rfl
    · intro m k job' v found' waiting' after
      simp only [Store.setJob, List.getElem?_modify] at found'
      obtain ⟨job'', before'', rfl⟩ := Option.map_eq_some_iff.mp found'
      have other : m ≠ n := by
        rintro rfl
        simp at waiting'
      rw [if_neg (Ne.symm other)] at waiting'
      rcases oldOrNew after with ⟨t, before, same, _⟩ | ⟨rfl, same⟩
      · rw [same]
        exact once.waiting before'' waiting' before
      · rw [same]
        exact Ne.symm other
  · -- A delivery that has ended has returned, so its job is not queued again.
    rw [List.getElem?_map] at there
    obtain ⟨u, before, rfl⟩ := Option.map_eq_some_iff.mp there
    have returned : u.body.progress = .returned := by
      have unthrown := once.unthrown before
      change u.body.progress ≠ .running at ended
      revert ended unthrown
      cases u.body <;> simp [Stage.progress, Unthrown]
    refine once.change once.execution (Store.setJob_payloads fun _ => Job.settle_payload _ _) rfl
      delivered ?_ tidy.actors
    intro m l job v found waiting after
    obtain ⟨t, before', tag⟩ := kept after
    rw [tag]
    simp only [Store.setJob, List.getElem?_modify] at found
    obtain ⟨job', found', rfl⟩ := Option.map_eq_some_iff.mp found
    by_cases same : (Thread.map Stage.progress u).tag.job = m
    · rw [if_pos same, show (Thread.map Stage.progress u).body = .returned from returned] at waiting
      cases waiting
    · rw [if_neg same] at waiting
      exact once.waiting found' waiting before'
  · refine once.change ?_ rfl rfl delivered ?_ tidy.actors
    · rw [Store.execution_updateExecution]
      split
      · rw [Option.isSome_map]
        exact once.execution
      · exact once.execution
    · intro m l job v found waiting after
      obtain ⟨t, before, tag⟩ := kept after
      rw [tag]
      exact once.waiting found waiting before
  · refine once.change once.execution rfl rfl delivered ?_ tidy.actors
    intro m l job v found waiting after
    obtain ⟨t, before, tag⟩ := kept after
    rw [tag]
    exact once.waiting found waiting before

theorem Once.of_started {first : WorkflowStep} (persisted : PersistedSteps workflow.steps)
    (started : Started store workflow first x) : Once workflow x ⟨store, [], []⟩ := by
  obtain ⟨job, jobs, _, _, attempt, _⟩ := started.jobs
  have only : ∀ job' ∈ (⟨store, [], []⟩ : Stages).store.jobs, job' = job := by
    simp [jobs]
  constructor
  · exact persisted
  · obtain ⟨row, found, _⟩ := started.execution
    simp [found]
  · simp [jobs]
  · intro job' present
    rw [only job' present, attempt]
  · simp
  · simp
  · exact fun row present own => (started.results row present own).elim
  · intro job' present later
    rw [only job' present, attempt] at later
    exact (later rfl).elim
  · simp
  · exact List.nodup_nil

end Invariant

/-! ## Effects at most once -/

section Runs

variable {rt : Runtime} {workflow : Definition} {first : WorkflowStep} {x : String}
  {store : Store} {w : Engine} {a : Stages}

end Runs

end Workflow
