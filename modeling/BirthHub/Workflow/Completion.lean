import BirthHub.Workflow.Deliveries

/-!
# Completion of an execution

When `SUCCESS` means that the execution is complete: no job of it is left to run, and
every step that routing selected has a stored result. A job decides it alone, as soon as
its own step has no transition to follow. This is the whole execution if routing never
selects two transitions of a step: then there is one job at a time, and `Phase` says what
it still has to do.
-/

namespace Workflow

open Data Effect

/-! ## The property -/

/-- Routing selects at most one transition of an executed step. -/
def singleRoute (workflow : Definition) (w : Engine) : Act Choice Outside → Bool
  | .env _ => true
  | .run i choice =>
      match w.threads[i]? with
      | none => true
      | some t =>
          match t.body.pending, choice.fault, choice.result with
          | some (.executeStep _ _), none, .ok output =>
              ((workflow.steps.find? (·.key = t.tag.payload.stepKey)).map fun step =>
                decide ((nextTransitions workflow step output false).length ≤ 1)).getD true
          | _, _, _ => true

/-- The job is queued or delayed, or a delivery of it has not returned. -/
def stillRuns (w : Engine) (n : Nat) : Bool :=
  ((w.store.jobs[n]?).map fun job => decide (job.state = .waiting)).getD false ||
    w.threads.any fun t =>
      decide (t.tag.job = n) && !t.settled && decide (t.body.outcome ≠ .returned)

/-- The steps that routing selected so far: the first one, and the target of each
transition followed on the output of a step whose result was stored. -/
inductive Selected (workflow : Definition) (first : WorkflowStep) (x : String)
    (trace : List (Event RunnerIface)) : WorkflowStep → Prop
  | trigger : Selected workflow first x trace first
  | follow {i : Nat} {output : Option Json} {row : StepResult} {step target : WorkflowStep}
      {transition : WorkflowTransition} (executed : Executed trace i output)
      (recorded : Recorded trace i row) (execution : row.executionId = x)
      (known : step ∈ workflow.steps) (own : row.stepId = step.id)
      (followed : transition ∈ nextTransitions workflow step output false)
      (find : workflow.steps.find? (·.id = transition.targetStepId) = some target) :
      Selected workflow first x trace target

/-- The step has a stored result that is not a failure. -/
def HasResult (store : Store) (x : String) (step : WorkflowStep) : Prop :=
  ∃ row ∈ store.stepResults, row.executionId = x ∧ row.stepId = step.id ∧ row.status ≠ .FAILED

/-- The newest operation has set the status of the execution to `SUCCESS`. -/
def setsSuccess (x : String) : List (Event RunnerIface) → Bool
  | ⟨_, .updateExecution id data, .ok _⟩ :: _ => id == x && data.status == some .SUCCESS
  | _ => false

/-- In runs within `guard`, when a job sets the status to `SUCCESS` no job is left to run
and every selected step has a result. -/
def CompletionSound (rt : Runtime) (guard : Engine → Act Choice Outside → Prop) (w₀ : Engine)
    (workflow : Definition) (first : WorkflowStep) (x : String) : Prop :=
  ∀ (w w' : Engine) (i : Nat) (choice : Choice),
    (engine rt).Run guard w₀ w → guard w (.run i choice) →
    (engine rt).step w (.run i choice) = some w' → setsSuccess x w'.trace →
    (∀ n, stillRuns w' n = false) ∧
      ∀ step, Selected workflow first x w'.trace step → HasResult w'.store x step

/-! ## One job at a time -/

/-- The steps a delivery has still to enqueue. -/
def Stage.promises (workflow : Definition) : Stage → List WorkflowStep
  | .recorded c output => successors workflow (nextTransitions workflow c.step output false)
  | .enqueuing _ remaining => remaining
  | _ => []

/-- The stages of a delivery that has stored nothing. -/
def Stage.isUnrecorded : Stage → Bool
  | .recorded .. | .completing _ | .enqueuing .. | .retrying _ | .falling .. | .finishing _ =>
      false
  | _ => true

/-- The job has stored its result. -/
def StoredRow (store : Store) (p : WorkflowExecutionJobPayload) (c : JobContext) : Prop :=
  ∃ row ∈ store.stepResults, IsRow p c row ∧ row.status ≠ .FAILED

/-- What is known of the routing and of the stored result at a stage. -/
def Stage.IsRouted (workflow : Definition) (store : Store) (p : WorkflowExecutionJobPayload) :
    Stage → Prop
  | .produced c output => (nextTransitions workflow c.step output false).length ≤ 1
  | .recorded c output =>
      (nextTransitions workflow c.step output false).length ≤ 1 ∧ StoredRow store p c
  | .completing c => StoredRow store p c
  | .enqueuing c remaining => remaining.length ≤ 1 ∧ StoredRow store p c
  | .falling .. => False
  | _ => True

/-- A row for the attempt of this job exists, so it cannot store another. -/
def Spent (workflow : Definition) (store : Store) (x : String)
    (p : WorkflowExecutionJobPayload) : Prop :=
  ∃ step, workflow.steps.find? (·.key = p.stepKey) = some step ∧
    store.hasResult x step.id p.attempt = true

/-- Apart from delivery `i` and job `n`, nothing is left to run. -/
structure Quiet (a : Stages) (i n : Option Nat) : Prop where
  threads : ∀ {j : Nat} {v : Thread Delivery Stage}, a.threads[j]? = some v → some j ≠ i →
    v.settled = true ∨ v.body = .returned
  jobs : ∀ {m : Nat} {job : Job}, a.store.jobs[m]? = some job → some m ≠ n →
    job.state ≠ .waiting

section Phases

variable (workflow : Definition) (first : WorkflowStep) (x : String)

/-- Every selected step has a result, is the one with this key, or is promised. -/
def Accounts (store : Store) (trace : List (Event RunnerIface)) (key : String)
    (promised : List WorkflowStep) : Prop :=
  ∀ step, Selected workflow first x trace step →
    HasResult store x step ∨ step.key = key ∨ step ∈ promised

/-- The one job of the execution, if any, and the selected steps it accounts for. -/
inductive Phase (a : Stages) : Prop
  | inert (quiet : Quiet a none none)
  | queued {n : Nat} {job : Job} (found : a.store.jobs[n]? = some job)
      (waiting : job.state = .waiting) (quiet : Quiet a none (some n))
      (account : Spent workflow a.store x job.payload ∨
        Accounts workflow first x a.store a.trace job.payload.stepKey [])
  | running {i : Nat} {u : Thread Delivery Stage} (there : a.threads[i]? = some u)
      (free : u.settled = false) (unfinished : u.body ≠ .returned)
      (quiet : Quiet a (some i) none) (routed : u.body.IsRouted workflow a.store u.tag.payload)
      (account : (Spent workflow a.store x u.tag.payload ∧ u.body.isUnrecorded) ∨
        Accounts workflow first x a.store a.trace u.tag.payload.stepKey
          (u.body.promises workflow))

end Phases

section Steps

variable {rt : Runtime} {workflow : Definition} {first : WorkflowStep} {x : String}
  {a : Stages} {i : Nat} {u : Thread Delivery Stage} {o : RunnerOp} {choice : Choice}
  {answer : RunnerIface.Answer o} {store : Store} {s' : Stage} {event : Event RunnerIface}

/-- Routing selects more only when a result is stored, and then what the delivery that
stores it promises. -/
theorem selected_cons (persisted : PersistedSteps workflow.steps) (tidy : Tidy workflow x a)
    (there : a.threads[i]? = some u) (step : u.body.Step rt u.tag.payload o answer s')
    {target : WorkflowStep}
    (selected : Selected workflow first x (⟨i, o, answer⟩ :: a.trace) target) :
    Selected workflow first x a.trace target ∨ target ∈ s'.promises workflow := by
  have history := tidy.history there
  have awaits := step.awaits
  cases selected with
  | trigger => exact .inl .trigger
  | @follow j output row source _ transition executed recorded execution known own followed find =>
      rcases recorded_cons.mp recorded with ⟨same, succeeded⟩ | stored
      · cases same
        rw [executed_cons_of_ne (by simp)] at executed
        generalize body : u.body = s at history awaits step
        cases s <;> simp only [Stage.Awaits, reduceCtorEq, or_self, exists_const,
          RunnerOp.createStepResult.injEq, and_false, exists_false] at awaits
        · rename_i c output'
          obtain ⟨row', rfl, isRow, _⟩ := awaits
          cases step.2 with
          | stored =>
              obtain rfl := history.1 output executed
              have context := (tidy.step_mem there (by rw [body]; rfl)).1
              obtain rfl := persisted.eq_of_id known context (own.symm.trans isRow.stepId)
              exact .inr (List.mem_filterMap.mpr ⟨transition, followed, find⟩)
        · obtain ⟨row', rfl, _, failed⟩ := awaits
          exact absurd failed succeeded
      · rcases executed_cons.mp executed with ⟨parsed, context, same⟩ | before
        · cases same
          generalize u.body = s at history awaits
          cases s <;> simp [Stage.Awaits] at awaits
          exact (history.2 row stored).elim
        · exact .inl (.follow before stored execution known own followed find)

theorem HasResult.mono {step : WorkflowStep} {store' : Store}
    (results : ∀ row ∈ store.stepResults, row ∈ store'.stepResults)
    (has : HasResult store x step) : HasResult store' x step := by
  obtain ⟨row, there, own⟩ := has
  exact ⟨row, results row there, own⟩

theorem StoredRow.mono {p : WorkflowExecutionJobPayload} {c : JobContext} {store' : Store}
    (results : ∀ row ∈ store.stepResults, row ∈ store'.stepResults)
    (has : StoredRow store p c) : StoredRow store' p c := by
  obtain ⟨row, there, own⟩ := has
  exact ⟨row, results row there, own⟩

theorem Spent.mono {p : WorkflowExecutionJobPayload} {store' : Store}
    (results : ∀ row ∈ store.stepResults, row ∈ store'.stepResults)
    (spent : Spent workflow store x p) : Spent workflow store' x p := by
  obtain ⟨step, find, has⟩ := spent
  obtain ⟨row, there, own⟩ := List.any_eq_true.mp has
  exact ⟨step, find, List.any_eq_true.mpr ⟨row, results row there, own⟩⟩

theorem StoredRow.hasResult {p : WorkflowExecutionJobPayload} {c : JobContext}
    (execution : p.executionId = x) (has : StoredRow store p c) : HasResult store x c.step := by
  obtain ⟨row, there, isRow, succeeded⟩ := has
  exact ⟨row, there, isRow.executionId.trans execution, isRow.stepId, succeeded⟩

theorem StoredRow.spent {p : WorkflowExecutionJobPayload} {c : JobContext}
    (execution : p.executionId = x)
    (find : workflow.steps.find? (·.key = p.stepKey) = some c.step) (has : StoredRow store p c) :
    Spent workflow store x p := by
  obtain ⟨row, there, isRow, _⟩ := has
  refine ⟨c.step, find, List.any_eq_true.mpr ⟨row, there, ?_⟩⟩
  simp [isRow.executionId, isRow.stepId, isRow.attempt, execution]

theorem Spent.not_stores {p : WorkflowExecutionJobPayload} {c : JobContext} {row : StepResult}
    (execution : p.executionId = x)
    (find : workflow.steps.find? (·.key = p.stepKey) = some c.step) (isRow : IsRow p c row)
    (spent : Spent workflow store x p)
    (fresh : store.hasResult row.executionId row.stepId row.attempt = false) : False := by
  obtain ⟨step, found, has⟩ := spent
  rw [find] at found
  cases Option.some.inj found
  rw [isRow.executionId, isRow.stepId, isRow.attempt, execution, has] at fresh
  cases fresh

/-! ### What is left to run after a step -/

theorem Quiet.advance (quiet : Quiet a (some i) none) (there : a.threads[i]? = some u)
    (jobs : store.jobs = a.store.jobs) :
    Quiet (a.advance i s' store event) (some i) none := by
  constructor
  · intro j v after other
    rcases World.advance_cases there after with ⟨rfl, _⟩ | ⟨_, before⟩
    · exact (other rfl).elim
    · exact quiet.threads before other
  · intro m job found
    rw [World.advance_store, jobs] at found
    exact quiet.jobs found

/-- When the last delivery returns without adding a job, nothing is left to run. -/
theorem Quiet.gone (quiet : Quiet a (some i) none) (there : a.threads[i]? = some u)
    (jobs : store.jobs = a.store.jobs) :
    Quiet (a.advance i .returned store event) none none := by
  constructor
  · intro j v after _
    rcases World.advance_cases there after with ⟨_, rfl⟩ | ⟨other, before⟩
    · exact .inr rfl
    · exact quiet.threads before (by simpa using other)
  · exact (quiet.advance there jobs).jobs

/-- When the last delivery returns and adds a job, that job is left to run. -/
theorem Quiet.hand {job : Job} (quiet : Quiet a (some i) none) (there : a.threads[i]? = some u)
    (jobs : store.jobs = a.store.jobs ++ [job]) :
    Quiet (a.advance i .returned store event) none (some a.store.jobs.length) := by
  constructor
  · intro j v after _
    rcases World.advance_cases there after with ⟨_, rfl⟩ | ⟨other, before⟩
    · exact .inr rfl
    · exact quiet.threads before (by simpa using other)
  · intro m job' found other
    rw [World.advance_store, jobs] at found
    rcases Nat.lt_or_ge m a.store.jobs.length with inside | beyond
    · rw [List.getElem?_append_left inside] at found
      exact quiet.jobs found (by simp)
    · have bound := (List.getElem?_eq_some_iff.mp found).1
      rw [List.length_append, List.length_singleton] at bound
      exact absurd (congrArg some (show m = a.store.jobs.length by omega)) other

/-- A job that sets the status to `SUCCESS` returns with it. -/
theorem Stage.Step.of_success {s : Stage} {p : WorkflowExecutionJobPayload}
    (step : s.Step rt p o answer s') (success : setsSuccess x (⟨i, o, answer⟩ :: a.trace)) :
    ∃ c, s = .completing c ∧ (∀ payload options, o ≠ .addJob payload options) ∧
      s' = .returned := by
  have awaits := step.awaits
  cases o with
  | updateExecution id data =>
      cases answer with
      | error e => cases success
      | ok r =>
          simp only [setsSuccess, Bool.and_eq_true, beq_iff_eq] at success
          cases s with
          | completing c =>
              cases step.2
              exact ⟨c, rfl, by simp, rfl⟩
          | recorded c output =>
              cases awaits
              cases success.2
          | failing =>
              rcases awaits with awaits | ⟨t, m, awaits⟩ <;> cases awaits
              cases success.2
          | finishing c =>
              rcases awaits with awaits | ⟨t, d, m, awaits⟩ <;> cases awaits
              cases success.2
          | _ => simp [Stage.Awaits] at awaits
  | _ => cases success

theorem Phase.stay (quiet : Quiet a (some i) none) (there : a.threads[i]? = some u)
    (free : u.settled = false) (jobs : store.jobs = a.store.jobs) (unfinished : s' ≠ .returned)
    (routed : s'.IsRouted workflow store u.tag.payload)
    (account : (Spent workflow store x u.tag.payload ∧ s'.isUnrecorded) ∨
      Accounts workflow first x store (event :: a.trace) u.tag.payload.stepKey
        (s'.promises workflow)) :
    Phase workflow first x (a.advance i s' store event) :=
  .running (World.advance_self there) free unfinished (quiet.advance there jobs) routed account

/-- The one running delivery returns, having added at most one job, whose step stands for
all that was not stored. -/
theorem Phase.hand {payload : WorkflowExecutionJobPayload} {options : JobOptions}
    {retained : Bool} (quiet : Quiet a (some i) none) (there : a.threads[i]? = some u)
    (added : store = a.store.addJob payload options retained)
    (account : Accounts workflow first x a.store (event :: a.trace) payload.stepKey []) :
    Phase workflow first x (a.advance i .returned store event) := by
  subst added
  rcases Store.addJob_cases with same | same
  · exact .inert (quiet.gone there (by rw [same]))
  · have jobs : (a.store.addJob payload options retained).jobs =
        a.store.jobs ++ [⟨options.jobId, payload, options.delay, 0, .waiting⟩] := by rw [same]
    have results : ∀ row ∈ a.store.stepResults,
        row ∈ (a.store.addJob payload options retained).stepResults := by
      rw [same]
      exact fun row there => there
    have found : (a.advance i .returned (a.store.addJob payload options retained)
        event).store.jobs[a.store.jobs.length]? =
          some ⟨options.jobId, payload, options.delay, 0, .waiting⟩ := by
      rw [World.advance_store, jobs, List.getElem?_append_right (Nat.le_refl _)]
      simp
    exact .queued found rfl (quiet.hand there jobs)
      (.inr fun step selected => (account step selected).imp_left (.mono results))

theorem Selected.mem {trace : List (Event RunnerIface)} {target : WorkflowStep}
    (trigger : triggerStep workflow = some first)
    (selected : Selected workflow first x trace target) : target ∈ workflow.steps := by
  cases selected with
  | trigger => exact List.mem_of_find?_eq_some trigger
  | follow _ _ _ _ _ _ find => exact List.mem_of_find?_eq_some find

/-- What was selected before a step is accounted for after it, provided the delivery keeps
its promises. -/
theorem account_cons (persisted : PersistedSteps workflow.steps) (tidy : Tidy workflow x a)
    (there : a.threads[i]? = some u) (step : u.body.Step rt u.tag.payload o answer s')
    (results : ∀ row ∈ a.store.stepResults, row ∈ store.stepResults)
    (promises : ∀ target ∈ u.body.promises workflow, target ∈ s'.promises workflow)
    (account : Accounts workflow first x a.store a.trace u.tag.payload.stepKey
      (u.body.promises workflow)) :
    Accounts workflow first x store (⟨i, o, answer⟩ :: a.trace) u.tag.payload.stepKey
      (s'.promises workflow) := by
  intro target selected
  rcases selected_cons persisted tidy there step selected with before | promised
  · exact (account target before).imp (.mono results) (.imp_right (promises target))
  · exact .inr (.inr promised)

theorem Phase.fault {e : Thrown} (persisted : PersistedSteps workflow.steps)
    (tidy : Tidy workflow x a) (there : a.threads[i]? = some u) (free : u.settled = false)
    (quiet : Quiet a (some i) none) (routed : u.body.IsRouted workflow a.store u.tag.payload)
    (account : (Spent workflow a.store x u.tag.payload ∧ u.body.isUnrecorded) ∨
      Accounts workflow first x a.store a.trace u.tag.payload.stepKey
        (u.body.promises workflow))
    (step : u.body.Step rt u.tag.payload o (.error e) s') :
    Phase workflow first x (a.advance i s' a.store ⟨i, o, .error e⟩) := by
  have own := (tidy.payload there).1
  have failed := step.2
  rcases u with ⟨tag, s, settled⟩
  subst failed
  -- After the result is stored, the failure leads to a delivery that cannot store again.
  have spend : ∀ c, Stage.context s = some c → StoredRow a.store tag.payload c →
      s.onFault = .catching c →
      Phase workflow first x (a.advance i s.onFault a.store ⟨i, o, .error e⟩) := by
    intro c context row caught
    refine .stay quiet there free rfl (by simp [caught]) (by rw [caught]; trivial) (.inl ⟨?_, by rw [caught]; rfl⟩)
    exact row.spent own (tidy.contexts there context).2
  cases s with
  | recorded c output => exact spend c rfl routed.2 rfl
  | completing c => exact spend c rfl routed rfl
  | enqueuing c remaining => exact spend c rfl routed.2 rfl
  | returned | threw => exact step.awaits.elim
  | falling c remaining => exact routed.elim
  | _ =>
      exact .stay quiet there free rfl (by simp [Stage.onFault]) trivial
        (account.imp (fun spent => ⟨spent.1, rfl⟩)
          (account_cons persisted tidy there step (fun _ same => same) (by simp [Stage.promises])))

theorem Phase.ok {r : o.Result} (persisted : PersistedSteps workflow.steps)
    (trigger : triggerStep workflow = some first) (tidy : Tidy workflow x a)
    (there : a.threads[i]? = some u) (free : u.settled = false) (quiet : Quiet a (some i) none)
    (routed : u.body.IsRouted workflow a.store u.tag.payload)
    (account : (Spent workflow a.store x u.tag.payload ∧ u.body.isUnrecorded) ∨
      Accounts workflow first x a.store a.trace u.tag.payload.stepKey
        (u.body.promises workflow))
    (answered : a.store.handle o choice = (.ok r, store))
    (step : u.body.Step rt u.tag.payload o (.ok r) s')
    (single : ∀ c output, u.body = .trying c → s' = .produced c output →
      (nextTransitions workflow c.step output false).length ≤ 1) :
    Phase workflow first x (a.advance i s' store ⟨i, o, .ok r⟩) := by
  have own := (tidy.payload there).1
  have results := Store.handle_results step.uncreated answered
  have jobs := fun unadded => Store.handle_jobs step.uncreated unadded answered
  have context : ∀ {c}, u.body.context = some c → c.workflow = workflow ∧
      workflow.steps.find? (·.key = u.tag.payload.stepKey) = some c.step ∧
      c.step ∈ workflow.steps ∧ c.step.key = u.tag.payload.stepKey :=
    fun same => ⟨(tidy.contexts there same).1, (tidy.contexts there same).2,
      tidy.step_mem there same⟩
  -- Where no promise is lost, the account carries over.
  have onward : (∀ target ∈ u.body.promises workflow, target ∈ s'.promises workflow) →
      Accounts workflow first x a.store a.trace u.tag.payload.stepKey
        (u.body.promises workflow) →
      Accounts workflow first x store (⟨i, o, .ok r⟩ :: a.trace) u.tag.payload.stepKey
        (s'.promises workflow) := account_cons persisted tidy there step results
  have awaits := step.awaits
  have leads := step.2
  rcases u with ⟨⟨n, p⟩, s, settled⟩
  -- A spent job stores nothing.
  have unspent : ∀ {c row}, s.context = some c → o = .createStepResult row → IsRow p c row →
      HEq r () → Spent workflow a.store x p → False := by
    intro c row same stores isRow unit spent
    subst stores
    exact spent.not_stores own (context same).2.1 isRow (Store.handle_createStepResult answered).1
  cases leads with
  | missing | cancelled _ | failed | completed | finished =>
      exact .inert (quiet.gone there (jobs (by simp)))
  | clock _ =>
      have kept := Store.handle_read (o := .now) rfl answered
      subst kept
      exact .stay quiet there free rfl (by rintro rfl; exact awaits.elim) routed
        (account.imp_right (onward fun _ promised => promised))
  | cacheHit =>
      simp only [Stage.Awaits, reduceCtorEq, exists_false, or_false, false_or] at awaits
      have uncached := persisted.cacheTTLSeconds _ (context rfl).2.2.1
      rw [uncached] at awaits
      exact absurd awaits.1 (by simp)
  | executed =>
      exact .stay quiet there free (jobs (by simp)) (by simp) (single _ _ rfl rfl)
        (account.imp (fun spent => ⟨spent.1.mono results, rfl⟩) (onward (by simp [Stage.promises])))
  | @stored c output row _ =>
      obtain ⟨row, same, isRow, succeeded⟩ := awaits
      cases same
      have store' := (Store.handle_createStepResult answered).2
      refine .stay quiet there free (jobs (by simp)) (by simp)
        ⟨routed, row, by rw [store']; simp, isRow, succeeded⟩ (.inr ?_)
      rcases account with ⟨spent, _⟩ | account
      · exact (unspent rfl rfl isRow HEq.rfl spent).elim
      · exact onward (by simp [Stage.promises]) account
  | leaf none =>
      rw [(context rfl).1] at none
      rcases account with ⟨_, unrecorded⟩ | account
      · cases unrecorded
      · exact .stay quiet there free (jobs (by simp)) (by simp) (routed.2.mono results)
          (.inr (onward (by simp [Stage.promises, none, successors]) account))
  | @routed c output _ _ _ _ =>
      obtain rfl := (context rfl).1
      rcases account with ⟨_, unrecorded⟩ | account
      · cases unrecorded
      rcases Stage.afterEnqueue_cases (.enqueuing c)
        (successors c.workflow (nextTransitions c.workflow c.step output false)) with
        ⟨_, same⟩ | ⟨_, same⟩ <;> rw [same] at onward ⊢
      · exact .inert (quiet.gone there (jobs (by simp)))
      · have few : (successors c.workflow
            (nextTransitions c.workflow c.step output false)).length ≤ 1 :=
          (List.length_filterMap_le _ _).trans routed.1
        exact .stay quiet there free (jobs (by simp)) (by simp) ⟨few, routed.2.mono results⟩
          (.inr (onward (fun _ promised => promised) account))
  | @enqueued c target rest _ _ _ =>
      obtain rfl : rest = [] := by simpa using routed.1
      rcases awaits with awaits | ⟨_, _, _, same, awaits⟩ <;> cases awaits
      cases same
      rcases account with ⟨_, unrecorded⟩ | account
      · cases unrecorded
      refine .hand quiet there (Store.handle_addJob answered) fun selected chosen => ?_
      rcases selected_cons persisted tidy there step chosen with before | promised
      · rcases account selected before with has | key | promised
        · exact .inl has
        · have same := persisted.eq_of_key (before.mem trigger) (context rfl).2.2.1
            (key.trans (context rfl).2.2.2.symm)
          rw [same]
          exact .inl (routed.2.hasResult own)
        · rw [List.mem_singleton.mp promised]
          exact .inr (.inl rfl)
      · cases promised
  | retry _ | finish _ =>
      obtain ⟨row, same, isRow, _⟩ := awaits
      cases same
      refine .stay quiet there free (jobs (by simp)) (by simp) trivial (.inr ?_)
      rcases account with ⟨spent, _⟩ | account
      · exact (unspent rfl rfl isRow HEq.rfl spent).elim
      · exact onward (by simp [Stage.promises]) account
  | fallback _ onError =>
      rw [persisted.onError _ (context rfl).2.2.1] at onError
      cases onError
  | retried =>
      obtain ⟨options, awaits⟩ := awaits
      cases awaits
      rcases account with ⟨_, unrecorded⟩ | account
      · cases unrecorded
      refine .hand quiet there (Store.handle_addJob answered) fun selected chosen => ?_
      rcases selected_cons persisted tidy there step chosen with before | promised
      · exact account selected before
      · cases promised
  | fell => exact routed.elim
  | _ =>
      exact .stay quiet there free (jobs (by simp)) (by simp) trivial
        (account.imp (fun spent => ⟨spent.1.mono results, rfl⟩) (onward (by simp [Stage.promises])))

theorem Phase.of_step (tidy : Tidy workflow x a) (phase : Phase workflow first x a)
    (there : a.threads[i]? = some u) (step : u.body.Step rt u.tag.payload o answer s') :
    Quiet a (some i) none ∧ u.body.IsRouted workflow a.store u.tag.payload ∧
      ((Spent workflow a.store x u.tag.payload ∧ u.body.isUnrecorded) ∨
        Accounts workflow first x a.store a.trace u.tag.payload.stepKey
          (u.body.promises workflow)) := by
  have loud : ¬ (u.settled = true ∨ u.body = .returned) := by
    rintro (settled | returned)
    · rw [tidy.unsettled there step] at settled
      cases settled
    · have running := step.running
      rw [returned] at running
      cases running
  cases phase with
  | inert quiet => exact (loud (quiet.threads there (by simp))).elim
  | queued _ _ quiet _ => exact (loud (quiet.threads there (by simp))).elim
  | @running j v there' free _ quiet routed account =>
      obtain rfl : i = j := by
        by_contra other
        exact loud (quiet.threads there (by simpa using other))
      rw [there] at there'
      cases Option.some.inj there'
      exact ⟨quiet, routed, account⟩

theorem Phase.run (persisted : PersistedSteps workflow.steps)
    (trigger : triggerStep workflow = some first) (tidy : Tidy workflow x a)
    (phase : Phase workflow first x a) (there : a.threads[i]? = some u)
    (answered : a.store.handle o choice = (answer, store))
    (step : u.body.Step rt u.tag.payload o answer s')
    (single : ∀ c output, u.body = .trying c → s' = .produced c output →
      (nextTransitions workflow c.step output false).length ≤ 1) :
    Phase workflow first x (a.advance i s' store ⟨i, o, answer⟩) := by
  obtain ⟨quiet, routed, account⟩ := phase.of_step tidy there step
  have free := tidy.unsettled there step
  cases answer with
  | error e =>
      rw [Store.handle_error answered]
      exact .fault persisted tidy there free quiet routed account step
  | ok r => exact .ok persisted trigger tidy there free quiet routed account answered step single

/-! ### What is left to run after a step of the outside -/

theorem Quiet.setJob {m n : Option Nat} {k : Nat} {f : Job → Job}
    (jobs : ∀ {l : Nat} {job : Job}, a.store.jobs[l]? = some job → some l ≠ n →
      job.state ≠ .waiting)
    (moved : ∀ job, a.store.jobs[k]? = some job → some k ≠ m → (f job).state ≠ .waiting)
    (others : ∀ l, l ≠ k → some l ≠ m → some l ≠ n) {l : Nat} {job : Job}
    (found : (a.store.setJob k f).jobs[l]? = some job) (other : some l ≠ m) :
    job.state ≠ .waiting := by
  simp only [Store.setJob, List.getElem?_modify] at found
  obtain ⟨job', before, rfl⟩ := Option.map_eq_some_iff.mp found
  by_cases same : k = l
  · subst same
    simpa using moved job' before other
  · simpa [same] using jobs before (others l (Ne.symm same) other)

theorem settled_threads {f : Job → Job} {k : Nat} {j : Nat} {v : Thread Delivery Stage}
    (after : (a.change (fun _ => .guard) ⟨a.store.setJob k f, [], some i⟩).threads[j]? = some v) :
    ∃ t, a.threads[j]? = some t ∧ v.body = t.body ∧ v.settled = (t.settled || decide (i = j)) := by
  rcases World.change_cases after with ⟨t, before, rfl⟩ | ⟨tag, _, spawned, _⟩
  · exact ⟨t, before, rfl, by simp⟩
  · simp at spawned

theorem Phase.deliver {n : Nat} {job : Job} (phase : Phase workflow first x a)
    (found : a.store.jobs[n]? = some job) (waiting : job.state = .waiting) :
    Phase workflow first x (a.change (fun _ => .guard)
      ⟨a.store.setJob n fun job => { job with state := .active }, [⟨n, job.payload⟩], none⟩) := by
  cases phase with
  | inert quiet => exact (quiet.jobs found (by simp) waiting).elim
  | running _ _ _ quiet _ _ => exact (quiet.jobs found (by simp) waiting).elim
  | @queued m job' found' _ quiet account =>
      obtain rfl : n = m := by
        by_contra other
        exact quiet.jobs found (by simpa using other) waiting
      rw [found] at found'
      cases Option.some.inj found'
      refine .running (i := a.threads.length) (u := ⟨⟨n, job.payload⟩, .guard, false⟩)
        (by simp [World.change]) rfl (by simp) ⟨?_, ?_⟩ trivial
        (account.imp (fun spent => ⟨spent, rfl⟩) fun account => account)
      · intro j v after other
        rcases World.change_cases after with ⟨t, before, rfl⟩ | ⟨tag, beyond, spawned, _⟩
        · simpa using quiet.threads before (by simp)
        · have bound := (List.getElem?_eq_some_iff.mp spawned).1
          rw [List.length_singleton] at bound
          exact absurd (congrArg some (show j = a.threads.length by omega)) other
      · exact Quiet.setJob quiet.jobs (fun _ _ _ => by simp) (fun l other _ => by simpa using other)

theorem Phase.settle (tidy : Tidy workflow x a) (phase : Phase workflow first x a)
    (there : a.threads[i]? = some u) (ended : u.body.progress ≠ .running)
    (free : u.settled = false) :
    Phase workflow first x (a.change (fun _ => .guard)
      ⟨a.store.setJob u.tag.job fun job => job.settle u.body.progress, [], some i⟩) := by
  obtain ⟨job, found, payload, active⟩ := tidy.delivered there
  -- A delivery that returned completes its job.
  have completed : u.body = .returned → ∀ job : Job, (job.settle u.body.progress).state ≠ .waiting := by
    intro returned job
    rw [returned]
    simp [Stage.progress, Job.settle]
  -- The other deliveries are as quiet as they were.
  have threads : ∀ {m n : Option Nat}, Quiet a m n → ∀ {m' : Option Nat},
      (∀ l, l ≠ i → some l ≠ m' → some l ≠ m) →
      ∀ {j : Nat} {v : Thread Delivery Stage}, (a.change (fun _ => .guard)
        ⟨a.store.setJob u.tag.job fun job => job.settle u.body.progress, [], some i⟩).threads[j]? =
          some v → some j ≠ m' → v.settled = true ∨ v.body = .returned := by
    intro m n quiet m' others j v after other
    obtain ⟨t, before, body, settled⟩ := settled_threads after
    rw [body, settled]
    by_cases same : i = j
    · exact .inl (by simp [same])
    · simpa [same] using quiet.threads before (others j (Ne.symm same) other)
  cases phase with
  | inert quiet =>
      have returned := (quiet.threads there (by simp)).resolve_left (by simp [free])
      exact .inert ⟨threads quiet (by simp),
        Quiet.setJob quiet.jobs (fun job _ _ => completed returned job) (by simp)⟩
  | @queued n job' found' waiting quiet account =>
      have returned := (quiet.threads there (by simp)).resolve_left (by simp [free])
      have other : u.tag.job ≠ n := by
        rintro rfl
        rw [found] at found'
        cases Option.some.inj found'
        rw [active free] at waiting
        cases waiting
      have kept : (a.store.setJob u.tag.job fun job => job.settle u.body.progress).jobs[n]? =
          some job' := by
        simp [Store.setJob, other, found']
      exact .queued kept waiting ⟨threads quiet (by simp),
        Quiet.setJob quiet.jobs (fun job _ _ => completed returned job) (fun _ _ same => same)⟩
        account
  | @running j v there' free' unfinished quiet routed account =>
      by_cases same : i = j
      · subst same
        rw [there] at there'
        cases Option.some.inj there'
        have threw : u.body = .threw := by
          revert ended unfinished
          cases u.body <;> simp [Stage.progress]
        rw [threw]
        rw [threw] at threads account
        by_cases again : job.attemptsMade + 1 < JOB_ATTEMPTS
        · have kept : (a.store.setJob u.tag.job fun job =>
              job.settle Stage.threw.progress).jobs[u.tag.job]? =
                some (job.settle Stage.threw.progress) := by
            simp [Store.setJob, found]
          refine .queued kept (by simp [Job.settle, Stage.progress, again])
            ⟨threads quiet (by simp), Quiet.setJob quiet.jobs
              (fun _ _ other => (other rfl).elim) (by simp)⟩ ?_
          rw [Job.settle_payload, payload]
          exact account.imp (fun spent => spent.1) fun account => account
        · refine .inert ⟨threads quiet (by simp), Quiet.setJob quiet.jobs
            (fun job' found' _ => ?_) (by simp)⟩
          rw [found] at found'
          cases Option.some.inj found'
          simp [Job.settle, Stage.progress, again]
      · have returned := (quiet.threads there (by simpa using same)).resolve_left (by simp [free])
        have kept : (a.change (fun _ => .guard) ⟨a.store.setJob u.tag.job fun job =>
            job.settle u.body.progress, [], some i⟩).threads[j]? = some v := by
          rw [World.change_kept there']
          simp [same]
        exact .running kept free' unfinished ⟨threads quiet (fun _ _ same => same),
          Quiet.setJob quiet.jobs (fun job _ _ => completed returned job) (by simp)⟩ routed account

theorem Phase.of_store (phase : Phase workflow first x a) (jobs : store.jobs = a.store.jobs)
    (results : store.stepResults = a.store.stepResults) :
    Phase workflow first x (a.change (fun _ => .guard) ⟨store, [], none⟩) := by
  have same : a.change (fun _ => .guard) ⟨store, [], none⟩ = { a with store := store } := by
    simp [World.change]
  have mono : ∀ row ∈ a.store.stepResults, row ∈ store.stepResults := by simp [results]
  rw [same]
  have stays : ∀ {m n : Option Nat}, Quiet a m n → Quiet { a with store := store } m n :=
    fun quiet => ⟨quiet.threads, fun found => quiet.jobs (jobs ▸ found)⟩
  have accounts : ∀ {key : String} {promised : List WorkflowStep},
      Accounts workflow first x a.store a.trace key promised →
        Accounts workflow first x store a.trace key promised :=
    fun account step selected => (account step selected).imp_left (.mono mono)
  cases phase with
  | inert quiet => exact .inert (stays quiet)
  | queued found waiting quiet account =>
      exact .queued (jobs ▸ found) waiting (stays quiet) (account.imp (.mono mono) accounts)
  | running there free unfinished quiet routed account =>
      refine .running there free unfinished (stays quiet) ?_
        (account.imp (fun spent => ⟨spent.1.mono mono, spent.2⟩) accounts)
      generalize Thread.body _ = s at routed
      cases s <;> first
        | exact routed
        | exact routed.mono mono
        | exact ⟨routed.1, routed.2.mono mono⟩

theorem Phase.env {event : Outside} {c : Change Delivery Store} (tidy : Tidy workflow x a)
    (phase : Phase workflow first x a) (quiet : ∀ n, event ≠ .stall n)
    (changed : outside event a.store (a.threads.map (Thread.map Stage.progress)) = some c) :
    Phase workflow first x (a.change (fun _ => .guard) c) := by
  rcases outside_cases quiet changed with ⟨n, job, found, waiting, rfl⟩ |
    ⟨i, t, there, ended, free, rfl⟩ | ⟨id, rfl⟩ | ⟨quotas, rfl⟩
  · exact phase.deliver found waiting
  · rw [List.getElem?_map] at there
    obtain ⟨u, found, rfl⟩ := Option.map_eq_some_iff.mp there
    exact phase.settle tidy found ended free
  · exact phase.of_store rfl rfl
  · exact phase.of_store rfl rfl

theorem Phase.of_started (started : Started store workflow first x) :
    Phase workflow first x ⟨store, [], []⟩ := by
  obtain ⟨job, jobs, waiting, _, _, _, key, _, _⟩ := started.jobs
  have found : (⟨store, [], []⟩ : Stages).store.jobs[0]? = some job := by simp [jobs]
  refine .queued found waiting ⟨by simp, fun {m job'} found' other => ?_⟩
    (.inr fun step selected => ?_)
  · rw [show (⟨store, [], []⟩ : Stages).store.jobs = [job] from jobs] at found'
    have bound := (List.getElem?_eq_some_iff.mp found').1
    rw [List.length_singleton] at bound
    exact absurd (congrArg some (show m = 0 by omega)) other
  · cases selected with
    | trigger => exact .inr (.inl key.symm)
    | follow executed => exact absurd executed (by simp [Executed])

end Steps

/-! ## Sound completion -/

section Runs

variable {rt : Runtime} {workflow : Definition} {first : WorkflowStep} {x : String}
  {store : Store} {w : Engine}

/-- The steps of a run in which routing selects one transition at a time. -/
def Routed (workflow : Definition) (w : Engine) (act : Act Choice Outside) : Prop :=
  calm w act ∧ singleRoute workflow w act

/-- The guard gives what a job needs at the moment it has an output. -/
theorem single_of_singleRoute {a : Stages} {i : Nat} {choice : Choice}
    {t : Thread Delivery (Prog RunnerIface Unit)} {u : Thread Delivery Stage} {o : RunnerOp}
    {k : RunnerIface.Answer o → Prog RunnerIface Unit} {answer : RunnerIface.Answer o}
    {store' : Store} {s' : Stage} (persisted : PersistedSteps workflow.steps)
    (tidy : Tidy workflow x a) (refines : (stages rt).Refines w a)
    (allowed : singleRoute workflow w (.run i choice)) (found : w.threads[i]? = some t)
    (pending : t.body = .op o k) (there : a.threads[i]? = some u)
    (answered : a.store.handle o choice = (answer, store'))
    (step : u.body.Step rt u.tag.payload o answer s') :
    ∀ c output, u.body = .trying c → s' = .produced c output →
      (nextTransitions workflow c.step output false).length ≤ 1 := by
  rintro c output trying rfl
  have sameTag := (refines.follows found there).1
  have context : u.body.context = some c := by rw [trying]; rfl
  obtain ⟨_, ⟨parsed, context', rfl, fault, result⟩ | cached⟩ := step.produced answered
  · have find := (tidy.contexts there context).2
    rw [sameTag] at find
    simpa [singleRoute, found, pending, fault, result, find] using allowed
  · rw [persisted.cacheTTLSeconds _ (tidy.step_mem there context).1] at cached
    exact absurd cached (by simp)

theorem Phase.of_run (valid : Validated workflow) (started : Started store workflow first x)
    (reached : (engine rt).Run (Routed workflow) (idle store) w) :
    ∃ a, (stages rt).Refines w a ∧ Tidy workflow x a ∧ Phase workflow first x a := by
  have start : (stages rt).Refines (idle store) ⟨store, [], []⟩ := ⟨rfl, rfl, rfl, by simp [idle]⟩
  refine System.Run.invariant (engine_follows rt)
    (fun inv refines allowed found pending there answered step => ?_)
    (fun inv refines allowed changed => ?_) start
    ⟨.of_started started, .of_started started⟩ reached
  · exact ⟨inv.1.run there (Option.some.inj answered) step,
      inv.2.run valid.steps started.trigger inv.1 there (Option.some.inj answered) step
        (single_of_singleRoute valid.steps inv.1 refines allowed.2 found pending there
          (Option.some.inj answered) step)⟩
  · exact ⟨inv.1.env (not_stall_of_calm allowed.1) changed,
      inv.2.env inv.1 (not_stall_of_calm allowed.1) changed⟩

/-- Where nothing is left to run by stages, no job still runs. -/
theorem Quiet.not_stillRuns {a : Stages} (refines : (stages rt).Refines w a)
    (quiet : Quiet a none none) (n : Nat) : stillRuns w n = false := by
  rw [stillRuns, Bool.or_eq_false_iff]
  constructor
  · rw [← refines.store]
    cases found : a.store.jobs[n]? with
    | none => rfl
    | some job => simpa using quiet.jobs found (by simp)
  · rw [List.any_eq_false]
    intro t there
    obtain ⟨i, found⟩ := List.mem_iff_getElem?.mp there
    obtain ⟨u, stage, _, sameSettled, follows⟩ := refines.stage_of_thread found
    have outcome := (stages rt).progress_eq follows
    rcases quiet.threads stage (by simp) with settled | returned
    · rw [sameSettled] at settled
      simp [settled]
    · rw [returned] at outcome
      simp [← outcome, stages, Stage.progress]

/-- With one transition at a time, `SUCCESS` means that the execution is complete. -/
theorem completionSound_of_routed (valid : Validated workflow)
    (started : Started store workflow first x) :
    CompletionSound rt (Routed workflow) (idle store) workflow first x := by
  intro w w' i choice reached _ taken success
  obtain ⟨a, refines, tidy, phase⟩ := Phase.of_run valid started reached
  obtain ⟨t, o, k, answer, store', u, s', _, _, there, _, answered, step, after⟩ :=
    refines.run taken
  have traced : w'.trace = ⟨i, o, answer⟩ :: a.trace := after.trace.symm
  obtain ⟨quiet, routed, account⟩ := phase.of_step tidy there step
  have own := (tidy.payload there).1
  have moved : u.body.Step rt u.tag.payload o answer s' := step
  have handled : a.store.handle o choice = (answer, store') := Option.some.inj answered
  have results := Store.handle_results moved.uncreated handled
  have selects : ∀ target, Selected workflow first x (⟨i, o, answer⟩ :: a.trace) target →
      Selected workflow first x a.trace target ∨ target ∈ s'.promises workflow :=
    fun target => selected_cons valid.steps tidy there moved
  rw [traced] at success
  obtain ⟨c, completing, unadded, rfl⟩ := moved.of_success success
  rw [completing] at routed account
  constructor
  · intro n
    exact Quiet.not_stillRuns after
      (quiet.gone there (Store.handle_jobs moved.uncreated unadded handled)) n
  · intro target selected
    rw [traced] at selected
    rw [← after.store]
    show HasResult store' x target
    rcases selects target selected with before | promised
    · rcases account with ⟨_, unrecorded⟩ | account
      · cases unrecorded
      rcases account target before with has | key | promised
      · exact has.mono results
      · have context : u.body.context = some c := by rw [completing]; rfl
        obtain ⟨known, ownKey⟩ := tidy.step_mem there context
        have same := valid.steps.eq_of_key (before.mem started.trigger) known
          (key.trans ownKey.symm)
        rw [same]
        exact (routed.hasResult own).mono results
      · cases promised
    · cases promised

end Runs

/-- The trigger has run, and the leaf is about to complete the execution. -/
def lineActs : List (Act Choice Outside) :=
  [deliver 0, operate 0 9 7, settle 0, deliver 1, operate 1 9 8].flatten

/-- The next operation of the leaf sets `SUCCESS`. -/
def completesLine (w : Engine) : Bool :=
  calm w (.run 1 { time := 8 }) && singleRoute lineWorkflow w (.run 1 { time := 8 }) &&
  ((engine plainRuntime).step w (.run 1 ({ time := 8 } : Choice))).any fun w' =>
    setsSuccess "x" w'.trace

/-- The line completes with nothing left to run and a result for each selected step. -/
theorem line_completionSound :
    ∃ w w' : Engine, (engine plainRuntime).Run (Routed lineWorkflow)
        lineStart w ∧
      (engine plainRuntime).step w (.run 1 ({ time := 8 } : Choice)) = some w' ∧
      setsSuccess "x" w'.trace = true ∧ (∀ n, stillRuns w' n = false) ∧
      ∀ step, Selected lineWorkflow lineTrigger "x" w'.trace step →
        HasResult w'.store "x" step := by
  have evaluated : ((engine plainRuntime).execute
      (fun w act => calm w act && singleRoute lineWorkflow w act)
      lineStart lineActs).any completesLine = true := by
    decide
  have sound : ∀ w act, (calm w act && singleRoute lineWorkflow w act) = true →
      Routed lineWorkflow w act := by
    intro w act allowed
    rwa [Bool.and_eq_true] at allowed
  obtain ⟨w, reached, completes⟩ := System.Run.exists_of_execute sound evaluated
  rw [completesLine, Bool.and_eq_true] at completes
  obtain ⟨allowed, next⟩ := completes
  cases taken : (engine plainRuntime).step w (.run 1 ({ time := 8 } : Choice)) with
  | none => simp [taken] at next
  | some w' =>
      simp only [taken, Option.any_some] at next
      have valid : Validated lineWorkflow := publishedWorkflow_validated _
      have complete := completionSound_of_routed valid lineStart_started w w' 1 _ reached
        (sound _ _ allowed) taken next
      exact ⟨w, w', reached, taken, next, complete⟩

/-- The trigger has ended, and the left leaf is about to complete the execution. -/
def forkLeft : List (Act Choice Outside) :=
  [deliver 0, operate 0 11 7, settle 0, deliver 1, operate 1 9 8].flatten

/-- The next operation of the left leaf sets `SUCCESS` while the job of the right leaf is
queued. -/
def completesEarly (w : Engine) : Bool :=
  calm w (.run 1 { time := 8 }) &&
  ((engine plainRuntime).step w (.run 1 ({ time := 8 } : Choice))).any fun w' =>
    setsSuccess "x" w'.trace && stillRuns w' 2

/-- With two leaves the first one to complete sets `SUCCESS` too early. -/
theorem fork_not_completionSound :
    Validated forkWorkflow ∧ Started forkStart.store forkWorkflow forkTrigger "x" ∧
      ¬ CompletionSound plainRuntime (fun w act => calm w act) forkStart forkWorkflow
        forkTrigger "x" := by
  refine ⟨publishedWorkflow_validated _, forkStart_started, fun sound => ?_⟩
  have evaluated : ((engine plainRuntime).execute (fun w act => calm w act) forkStart
      forkLeft).any completesEarly = true := by decide
  obtain ⟨w, reached, early⟩ := System.Run.exists_of_execute (fun _ _ allowed => allowed) evaluated
  rw [completesEarly, Bool.and_eq_true] at early
  obtain ⟨allowed, next⟩ := early
  cases taken : (engine plainRuntime).step w (.run 1 ({ time := 8 } : Choice)) with
  | none => simp [taken] at next
  | some w' =>
      simp only [taken, Option.any_some, Bool.and_eq_true] at next
      have complete := (sound w w' 1 _ reached allowed taken next.1).1 2
      rw [complete] at next
      cases next.2

end Workflow
