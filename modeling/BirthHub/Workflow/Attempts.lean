import BirthHub.Workflow.Scope

/-!
# The attempts of a step

The next attempt of a step is queued only by the attempt that has stored its failure, and
the database takes one row for each attempt. So the rows of a step are failures up to the
first that is none, and that one is the last, however often jobs are delivered or joined.
-/

namespace Workflow

open Data Effect

/-- The attempts of the step before attempt `n` have stored their failures. -/
def FailedBefore (store : Store) (x stepId : String) (n : Nat) : Prop :=
  ∀ k, 1 ≤ k → k < n → ∃ row ∈ store.stepResults, row.executionId = x ∧ row.stepId = stepId ∧
    row.attempt = k ∧ row.status = .FAILED

/-- The attempts before that of the job have failed. -/
def Earned (workflow : Definition) (store : Store) (x : String)
    (p : WorkflowExecutionJobPayload) : Prop :=
  1 ≤ p.attempt ∧ ∀ step, workflow.steps.find? (·.key = p.stepKey) = some step →
    FailedBefore store x step.id p.attempt

/-- What is stored for the attempts of the steps of execution `x`, and what its jobs rest on. -/
structure AttemptInv (workflow : Definition) (x : String) (a : Stages) : Prop where
  scope : Scoped workflow x a
  jobs : ∀ job ∈ a.store.jobs, job.payload.executionId = x →
    Earned workflow a.store x job.payload
  payload : ∀ {i : Nat} {u : Thread Delivery Stage}, a.threads[i]? = some u →
    u.tag.payload.executionId = x → Earned workflow a.store x u.tag.payload
  retrying : ∀ {i : Nat} {u : Thread Delivery Stage} {c : JobContext}, a.threads[i]? = some u →
    u.tag.payload.executionId = x → u.body = .retrying c →
    FailedBefore a.store x c.step.id (u.tag.payload.attempt + 1)
  steps : ∀ row ∈ a.store.stepResults, row.executionId = x →
    ∃ step ∈ workflow.steps, row.stepId = step.id
  rows : ∀ row ∈ a.store.stepResults, row.executionId = x →
    1 ≤ row.attempt ∧ FailedBefore a.store x row.stepId row.attempt
  single : ∀ row ∈ a.store.stepResults, ∀ row' ∈ a.store.stepResults, row.executionId = x →
    row'.executionId = x → row.stepId = row'.stepId → row.attempt = row'.attempt → row = row'
  final : a.store.stepResults.Pairwise fun row row' => row.executionId = x →
    row'.executionId = x → row.stepId = row'.stepId → row.status = .FAILED

section Invariant

variable {rt : Runtime} {workflow : Definition} {x : String} {a : Stages} {i : Nat}
  {u : Thread Delivery Stage} {o : RunnerOp} {choice : Choice}
  {answer : RunnerIface.Answer o} {store store' : Store} {s' : Stage}
  {p : WorkflowExecutionJobPayload} {c : JobContext} {row : StepResult}

theorem FailedBefore.mono {stepId : String} {n : Nat}
    (results : ∀ row ∈ store.stepResults, row ∈ store'.stepResults)
    (failed : FailedBefore store x stepId n) : FailedBefore store' x stepId n := by
  intro k first below
  obtain ⟨row, there, own⟩ := failed k first below
  exact ⟨row, results row there, own⟩

theorem Earned.mono (results : ∀ row ∈ store.stepResults, row ∈ store'.stepResults)
    (earned : Earned workflow store x p) : Earned workflow store' x p :=
  ⟨earned.1, fun step find => (earned.2 step find).mono results⟩

/-- A row that is stored now comes after failures of its step only. -/
theorem AttemptInv.earlier_failed (inv : AttemptInv workflow x a)
    (there : a.threads[i]? = some u) (own : u.tag.payload.executionId = x)
    (context : u.body.context = some c) (isRow : IsRow u.tag.payload c row)
    (fresh : a.store.hasResult row.executionId row.stepId row.attempt = false) :
    ∀ row' ∈ a.store.stepResults, row'.executionId = x → row'.stepId = c.step.id →
      row'.status = .FAILED := by
  intro row' inside execution step
  have absent : ∀ row'' ∈ a.store.stepResults, row''.executionId = x →
      row''.stepId = c.step.id → row''.attempt ≠ u.tag.payload.attempt := by
    intro row'' inside' execution' step' attempt'
    have none := List.any_eq_false.mp fresh row'' inside'
    simp [isRow.executionId, isRow.stepId, isRow.attempt, own, execution', step', attempt'] at none
  obtain ⟨first, failed⟩ := inv.payload there own
  have before := failed c.step (inv.scope.contexts there own context).2
  obtain ⟨first', failed'⟩ := inv.rows row' inside execution
  rcases Nat.lt_trichotomy row'.attempt u.tag.payload.attempt with earlier | same | later
  · -- That attempt has stored a failure, and no second row.
    obtain ⟨failure, inside', execution', step', attempt', status⟩ := before _ first' earlier
    have one := inv.single row' inside failure inside' execution execution'
      (step.trans step'.symm) attempt'.symm
    rw [one]
    exact status
  · exact (absent row' inside execution step same).elim
  · -- A later attempt rests on the failure of this one, which is not stored.
    obtain ⟨failure, inside', execution', step', attempt', _⟩ := failed' _ first later
    exact (absent failure inside' execution' (step'.trans step) attempt').elim

/-- A job queues its next attempt just after it has stored its failure. -/
theorem Stage.Step.to_retrying {s : Stage} (step : s.Step rt p o answer (.retrying c))
    (answered : store.handle o choice = (answer, store')) :
    s = .catching c ∧ ∃ row ∈ store'.stepResults, IsRow p c row ∧ row.status = .FAILED := by
  generalize after : Stage.retrying c = s' at step
  cases answer with
  | error e =>
      rw [step.2] at after
      cases s <;> cases after
  | ok r =>
      have awaits := step.awaits
      cases step.2 with
      | retry attempt =>
          cases after
          obtain ⟨row, same, isRow, failed⟩ := awaits
          cases same
          obtain ⟨_, rfl⟩ := Store.handle_createStepResult answered
          exact ⟨rfl, _, List.mem_append_right _ (List.mem_singleton.mpr rfl), isRow, failed⟩
      | clock _ =>
          subst after
          obtain ⟨options, same⟩ := awaits
          cases same
      | routed | enqueued | fallback | fell =>
          rcases Stage.afterEnqueue_cases _ _ with ⟨_, same⟩ | ⟨_, same⟩ <;> rw [same] at after <;>
            cases after
      | _ => cases after

/-- Only storing a row changes the rows, and it stores one of the job. -/
theorem Stage.Step.results_cases {s : Stage} (step : s.Step rt p o answer s')
    (answered : store.handle o choice = (answer, store')) :
    store'.stepResults = store.stepResults ∨
    ∃ c row, s.context = some c ∧ IsRow p c row ∧
      store.hasResult row.executionId row.stepId row.attempt = false ∧
      store'.stepResults = store.stepResults ++ [row] := by
  rcases Store.handle_cases step.uncreated answered with
    rfl | ⟨quotas, rfl⟩ | ⟨id, data, _, rfl⟩ | ⟨row, rfl, ⟨r, rfl⟩, fresh, rfl⟩ |
      ⟨payload, options, _, _, rfl⟩
  · exact .inl rfl
  · exact .inl rfl
  · exact .inl rfl
  · have awaits := step.awaits
    cases s <;> simp only [Stage.Awaits, reduceCtorEq, or_self, exists_const,
      RunnerOp.createStepResult.injEq, and_false, exists_false] at awaits
    · obtain ⟨row', rfl, isRow, _⟩ := awaits
      exact .inr ⟨_, row, rfl, isRow, fresh, rfl⟩
    · obtain ⟨row', rfl, isRow, _⟩ := awaits
      exact .inr ⟨_, row, rfl, isRow, fresh, rfl⟩
  · unfold Store.addJob
    split <;> exact .inl rfl

/-- Only adding a job changes the jobs. -/
theorem Stage.Step.jobs_cases {s : Stage} (step : s.Step rt p o answer s')
    (answered : store.handle o choice = (answer, store')) :
    store'.jobs = store.jobs ∨ ∃ job : Job, store'.jobs = store.jobs ++ [job] ∧
      ((∃ target, job.payload = successorJob p target) ∨
        (∃ c, s = .retrying c) ∧ job.payload = retryJob p) := by
  rcases Store.handle_cases step.uncreated answered with
    rfl | ⟨quotas, rfl⟩ | ⟨id, data, _, rfl⟩ | ⟨row, _, _, _, rfl⟩ |
      ⟨payload, options, rfl, _, rfl⟩
  · exact .inl rfl
  · exact .inl rfl
  · exact .inl rfl
  · exact .inl rfl
  · rcases Store.addJob_cases with same | same <;> rw [same]
    · exact .inl rfl
    · refine .inr ⟨_, rfl, ?_⟩
      rcases step.of_addJob with ⟨target, _, _, own⟩ | ⟨retrying, own⟩
      · exact .inl ⟨target, own⟩
      · exact .inr ⟨retrying, own⟩

theorem AttemptInv.run (inv : AttemptInv workflow x a) (there : a.threads[i]? = some u)
    (answered : a.store.handle o choice = (answer, store))
    (step : u.body.Step rt u.tag.payload o answer s') :
    AttemptInv workflow x (a.advance i s' store ⟨i, o, answer⟩) := by
  have results := Store.handle_results step.uncreated answered
  have stored := step.results_cases answered
  constructor
  case scope => exact inv.scope.run there answered step
  case jobs =>
    intro job added own
    rw [World.advance_store] at added ⊢
    rcases step.jobs_cases answered with same | ⟨new, same, kind⟩ <;> rw [same] at added
    · exact (inv.jobs job added own).mono results
    · rcases List.mem_append.mp added with before | last
      · exact (inv.jobs job before own).mono results
      · rw [List.mem_singleton] at last
        subst last
        rcases kind with ⟨target, payload⟩ | ⟨⟨c, retrying⟩, payload⟩ <;> rw [payload] at own ⊢
        · exact ⟨le_refl 1, fun _ _ k first below => absurd below (Nat.not_lt.mpr first)⟩
        · refine ⟨Nat.le_add_left 1 _, fun found find => ?_⟩
          have context : u.body.context = some c := by rw [retrying]; rfl
          have known := (inv.scope.contexts there own context).2
          cases Option.some.inj (find.symm.trans known)
          exact (inv.retrying there own retrying).mono results
  case payload =>
    intro j v after own
    obtain ⟨t, before, tag, _⟩ := World.advance_kept after
    rw [tag] at own ⊢
    exact (inv.payload before own).mono results
  case retrying =>
    intro j v c after own retrying
    rcases World.advance_cases there after with ⟨rfl, rfl⟩ | ⟨_, before⟩
    · rw [show s' = .retrying c from retrying] at step
      obtain ⟨catching, row, inside, isRow, failed⟩ := step.to_retrying answered
      have context : u.body.context = some c := by rw [catching]; rfl
      have earned := (inv.payload there own).2 c.step (inv.scope.contexts there own context).2
      intro k first below
      rcases Nat.lt_or_ge k u.tag.payload.attempt with earlier | last
      · exact earned.mono results k first earlier
      · refine ⟨row, inside, isRow.executionId.trans own, isRow.stepId, ?_, failed⟩
        rw [isRow.attempt]
        exact Nat.le_antisymm last (Nat.le_of_lt_succ below)
    · exact (inv.retrying before own retrying).mono results
  case steps =>
    intro row inside own
    rw [World.advance_store] at inside
    rcases stored with same | ⟨c, row', context, isRow, _, same⟩ <;> rw [same] at inside
    · exact inv.steps row inside own
    · rcases List.mem_append.mp inside with before | last
      · exact inv.steps row before own
      · rw [List.mem_singleton.mp last] at own ⊢
        have known := (inv.scope.contexts there (isRow.executionId.symm.trans own) context).2
        exact ⟨c.step, List.mem_of_find?_eq_some known, isRow.stepId⟩
  case rows =>
    intro row inside own
    rw [World.advance_store] at inside ⊢
    rcases stored with same | ⟨c, row', context, isRow, _, same⟩
    · rw [same] at inside
      obtain ⟨first, failed⟩ := inv.rows row inside own
      exact ⟨first, failed.mono results⟩
    · rw [same] at inside
      rcases List.mem_append.mp inside with before | last
      · obtain ⟨first, failed⟩ := inv.rows row before own
        exact ⟨first, failed.mono results⟩
      · rw [List.mem_singleton.mp last] at own ⊢
        have ours := isRow.executionId.symm.trans own
        obtain ⟨first, failed⟩ := inv.payload there ours
        have known := (inv.scope.contexts there ours context).2
        rw [isRow.attempt, isRow.stepId]
        exact ⟨first, (failed c.step known).mono results⟩
  case single =>
    intro row inside row' inside' own own' stepId attempt
    rw [World.advance_store] at inside inside'
    rcases stored with same | ⟨c, new, context, isRow, fresh, same⟩ <;>
      rw [same] at inside inside'
    · exact inv.single row inside row' inside' own own' stepId attempt
    · have absent : ∀ old ∈ a.store.stepResults, ¬ (old.executionId = new.executionId ∧
          old.stepId = new.stepId ∧ old.attempt = new.attempt) := by
        intro old there' equal
        have none := List.any_eq_false.mp fresh old there'
        simp [equal] at none
      rcases List.mem_append.mp inside with before | last <;>
        rcases List.mem_append.mp inside' with before' | last'
      · exact inv.single row before row' before' own own' stepId attempt
      · cases List.mem_singleton.mp last'
        exact (absent row before ⟨own.trans own'.symm, stepId, attempt⟩).elim
      · cases List.mem_singleton.mp last
        exact (absent row' before' ⟨own'.trans own.symm, stepId.symm, attempt.symm⟩).elim
      · rw [List.mem_singleton.mp last, List.mem_singleton.mp last']
  case final =>
    rw [World.advance_store]
    rcases stored with same | ⟨c, new, context, isRow, fresh, same⟩ <;> rw [same]
    · exact inv.final
    · refine List.pairwise_append.mpr ⟨inv.final, List.pairwise_singleton _ _, ?_⟩
      intro row before row' last own own' stepId
      rw [List.mem_singleton.mp last] at own' stepId
      exact inv.earlier_failed there (isRow.executionId.symm.trans own') context isRow fresh row
        before own (stepId.trans isRow.stepId)

theorem AttemptInv.env {event : Outside} {c : Change Delivery Store}
    (inv : AttemptInv workflow x a)
    (changed : outside event a.store (a.threads.map (Thread.map Stage.progress)) = some c) :
    AttemptInv workflow x (a.change (fun _ => .guard) c) := by
  obtain ⟨moved, spawns⟩ := outside_payloads changed
  have results := (outside_frame changed).2
  have mono : ∀ row ∈ a.store.stepResults, row ∈ c.store.stepResults := by
    rw [results]
    exact fun row inside => inside
  constructor
  case scope => exact inv.scope.env changed
  case jobs =>
    intro job inside own
    obtain ⟨job', before, payload⟩ := moved job inside
    rw [payload] at own ⊢
    exact (inv.jobs job' before own).mono mono
  case payload =>
    intro j v there own
    rcases World.change_cases there with ⟨t, before, rfl⟩ | ⟨tag, _, spawned, rfl⟩
    · exact (inv.payload before own).mono mono
    · obtain ⟨job, inside, payload⟩ := spawns tag (List.mem_of_getElem? spawned)
      have earned := inv.jobs job inside (payload ▸ own)
      rw [← payload] at earned
      exact earned.mono mono
  case retrying =>
    intro j v ctx there own retrying
    rcases World.change_cases there with ⟨t, before, rfl⟩ | ⟨tag, _, _, rfl⟩
    · exact (inv.retrying before own retrying).mono mono
    · cases retrying
  case steps =>
    rw [World.change_store, results]
    exact inv.steps
  case rows =>
    intro row inside own
    rw [World.change_store, results] at inside
    obtain ⟨first, failed⟩ := inv.rows row inside own
    exact ⟨first, failed.mono mono⟩
  case single =>
    rw [World.change_store, results]
    exact inv.single
  case final =>
    rw [World.change_store, results]
    exact inv.final

theorem AttemptInv.of_begun (begun : Begun store workflow x) :
    AttemptInv workflow x ⟨store, [], []⟩ where
  scope := .of_begun begun
  jobs job there own := by
    rw [Earned, (begun.jobs job there own).1]
    exact ⟨le_refl 1, fun _ _ k first below => absurd below (Nat.not_lt.mpr first)⟩
  payload there := nomatch there
  retrying there := nomatch there
  steps row there own := (begun.results row there own).elim
  rows row there own := (begun.results row there own).elim
  single row there _ _ own := (begun.results row there own).elim
  final := by
    refine List.Pairwise.imp_of_mem (R := fun _ _ => True) (fun there _ _ own => ?_) ?_
    · exact (begun.results _ there own).elim
    · exact List.pairwise_of_forall fun _ _ => trivial

end Invariant

end Workflow
