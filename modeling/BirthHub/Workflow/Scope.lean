import BirthHub.Workflow.Routing

/-!
# The jobs of one execution

What holds of the jobs and deliveries of one execution in every run, whatever else the
queue holds, however often BullMQ delivers a job and whichever operations fail: they are
of the execution's workflow, and each delivery knows that workflow and its step.
-/

namespace Workflow

open Data Effect

/-- Execution `x` of the workflow is stored with no result, and its jobs in the queue are
first attempts. -/
structure Begun (store : Store) (workflow : Definition) (x : String) : Prop where
  stored : store.workflow workflow.id workflow.tenantId = some workflow
  execution : ∃ row, store.execution x = some row ∧ row.depth = 0
  results : ∀ row ∈ store.stepResults, row.executionId ≠ x
  jobs : ∀ job ∈ store.jobs, job.payload.executionId = x → job.payload.attempt = 1 ∧
    job.payload.workflowId = workflow.id ∧ job.payload.tenantId = workflow.tenantId

theorem Started.begun {store : Store} {workflow : Definition} {first : WorkflowStep} {x : String}
    (started : Started store workflow first x) : Begun store workflow x where
  stored := started.stored
  execution := by
    obtain ⟨row, found, _, depth⟩ := started.execution
    exact ⟨row, found, depth⟩
  results := started.results
  jobs := by
    obtain ⟨job, jobs, _, _, attempt, _, _, workflowId, tenantId⟩ := started.jobs
    intro job' there _
    rw [jobs, List.mem_singleton] at there
    subst there
    exact ⟨attempt, workflowId, tenantId⟩

/-- The jobs of execution `x` are of the workflow, and its deliveries know their step. -/
structure Scoped (workflow : Definition) (x : String) (a : Stages) : Prop where
  stored : a.store.workflow workflow.id workflow.tenantId = some workflow
  jobs : ∀ job ∈ a.store.jobs, job.payload.executionId = x →
    job.payload.workflowId = workflow.id ∧ job.payload.tenantId = workflow.tenantId
  payload : ∀ {i : Nat} {u : Thread Delivery Stage}, a.threads[i]? = some u →
    u.tag.payload.executionId = x → u.tag.IsOf workflow
  contexts : ∀ {i : Nat} {u : Thread Delivery Stage} {c : JobContext}, a.threads[i]? = some u →
    u.tag.payload.executionId = x → u.body.context = some c →
    c.workflow = workflow ∧ workflow.steps.find? (·.key = u.tag.payload.stepKey) = some c.step
  actors : ∀ event ∈ a.trace, event.actor < a.threads.length

/-- The outside moves jobs and delivers them, but makes up none. -/
theorem outside_payloads {event : Outside} {store : Store}
    {threads : List (Thread Delivery Outcome)} {c : Change Delivery Store}
    (changed : outside event store threads = some c) :
    (∀ job ∈ c.store.jobs, ∃ job' ∈ store.jobs, job.payload = job'.payload) ∧
      ∀ delivery ∈ c.spawn, ∃ job ∈ store.jobs, delivery.payload = job.payload := by
  have moved : ∀ {n : Nat} {f : Job → Job}, (∀ job, (f job).payload = job.payload) →
      ∀ job ∈ (store.setJob n f).jobs, ∃ job' ∈ store.jobs, job.payload = job'.payload := by
    intro n f payload job there
    obtain ⟨m, found⟩ := List.mem_iff_getElem?.mp there
    simp only [Store.setJob, List.getElem?_modify] at found
    obtain ⟨job', found', rfl⟩ := Option.map_eq_some_iff.mp found
    refine ⟨job', List.mem_of_getElem? found', ?_⟩
    split
    · exact payload job'
    · rfl
  cases event with
  | deliver n =>
      simp only [outside] at changed
      split at changed <;> (try split at changed) <;> cases changed
      rename_i job found waiting
      refine ⟨moved fun _ => rfl, fun delivery spawned => ?_⟩
      rw [List.mem_singleton] at spawned
      exact ⟨job, List.mem_of_getElem? found, by rw [spawned]⟩
  | settle i =>
      simp only [outside] at changed
      split at changed <;> (try split at changed) <;> cases changed
      exact ⟨moved fun job => job.settle_payload _, by simp⟩
  | stall n =>
      simp only [outside] at changed
      split at changed <;> (try split at changed) <;> cases changed
      exact ⟨moved fun _ => rfl, by simp⟩
  | cancel id =>
      cases changed
      exact ⟨fun job there => ⟨job, there, rfl⟩, by simp⟩
  | setQuotas quotas =>
      cases changed
      exact ⟨fun job there => ⟨job, there, rfl⟩, by simp⟩

section Invariant

variable {rt : Runtime} {workflow : Definition} {x : String} {a : Stages} {i : Nat}
  {u : Thread Delivery Stage} {o : RunnerOp} {choice : Choice}
  {answer : RunnerIface.Answer o} {store : Store} {s' : Stage}

theorem Scoped.run (scope : Scoped workflow x a) (there : a.threads[i]? = some u)
    (answered : a.store.handle o choice = (answer, store))
    (step : u.body.Step rt u.tag.payload o answer s') :
    Scoped workflow x (a.advance i s' store ⟨i, o, answer⟩) := by
  obtain ⟨workflows, jobs⟩ := Store.handle_frame step answered
  constructor
  case stored =>
    rw [World.advance_store, Store.workflow, workflows]
    exact scope.stored
  case jobs =>
    intro job added own
    rw [World.advance_store] at added
    rcases jobs with same | ⟨job', same, _, executionId, workflowId, tenantId⟩
    · rw [same] at added
      exact scope.jobs job added own
    · rw [same, List.mem_append, List.mem_singleton] at added
      rcases added with before | rfl
      · exact scope.jobs job before own
      · have isOf := scope.payload there (executionId.symm.trans own)
        exact ⟨workflowId.trans isOf.1, tenantId.trans isOf.2⟩
  case payload =>
    intro j v after own
    obtain ⟨t, before, tag, _⟩ := World.advance_kept after
    rw [tag] at own ⊢
    exact scope.payload before own
  case contexts =>
    intro j v c after own context
    rcases World.advance_cases there after with ⟨rfl, rfl⟩ | ⟨_, before⟩
    · rcases step.context answered context with old | ⟨_, found, find⟩
      · have held := scope.contexts there own old
        exact held
      · have isOf := scope.payload there own
        rw [isOf.1, isOf.2, scope.stored] at found
        cases found
        exact ⟨rfl, find⟩
    · exact scope.contexts before own context
  case actors =>
    intro event inside
    rw [World.advance_length]
    rcases List.mem_cons.mp inside with rfl | before
    · exact (List.getElem?_eq_some_iff.mp there).1
    · exact scope.actors event before

theorem Scoped.env {event : Outside} {c : Change Delivery Store} (scope : Scoped workflow x a)
    (changed : outside event a.store (a.threads.map (Thread.map Stage.progress)) = some c) :
    Scoped workflow x (a.change (fun _ => .guard) c) := by
  obtain ⟨moved, spawns⟩ := outside_payloads changed
  constructor
  case stored =>
    rw [World.change_store, Store.workflow, (outside_frame changed).1]
    exact scope.stored
  case jobs =>
    intro job there own
    obtain ⟨job', before, payload⟩ := moved job there
    rw [payload] at own ⊢
    exact scope.jobs job' before own
  case payload =>
    intro j v there own
    rcases World.change_cases there with ⟨t, before, rfl⟩ | ⟨tag, _, spawned, rfl⟩
    · have held := scope.payload before own
      exact held
    · obtain ⟨job, inside, payload⟩ := spawns tag (List.mem_of_getElem? spawned)
      have isOf := scope.jobs job inside (payload ▸ own)
      rw [← payload] at isOf
      exact isOf
  case contexts =>
    intro j v ctx there own context
    rcases World.change_cases there with ⟨t, before, rfl⟩ | ⟨tag, _, _, rfl⟩
    · have held := scope.contexts before own context
      exact held
    · cases context
  case actors =>
    intro event inside
    rw [World.change_length]
    exact Nat.lt_of_lt_of_le (scope.actors event inside) (Nat.le_add_right _ _)

theorem Scoped.of_begun (begun : Begun store workflow x) : Scoped workflow x ⟨store, [], []⟩ where
  stored := begun.stored
  jobs job there own := (begun.jobs job there own).2
  payload found := nomatch found
  contexts found := nomatch found
  actors := by simp

end Invariant

end Workflow
