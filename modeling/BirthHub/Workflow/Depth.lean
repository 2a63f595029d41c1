import BirthHub.Workflow.Scope

/-!
# The depth of an execution

A job reads the depth when it starts and writes it back as one more after it has stored
its result. The depth counts the completed steps, and bounds them, as long as no other
job stores a result between the two; two branches that run at once break both.
-/

namespace Workflow

open Data Effect

/-! ## The property -/

/-- The steps of execution `x` that have completed: its rows but those of failures. -/
def completions (store : Store) (x : String) : Nat :=
  store.stepResults.countP fun row => row.executionId = x ∧ row.status ≠ .FAILED

/-- The operation writes the depth of execution `x`. -/
def writesDepth (x : String) : RunnerOp → Bool
  | .updateExecution id data => id == x && data.depth.isSome
  | _ => false

/-- Some job has stored its result and has not yet updated the depth. -/
def isCounting (x : String) (w : Engine) : Bool :=
  w.threads.any fun t => t.body.pending.any (writesDepth x)

/-- In runs within `guard` the depth is the number of completed steps whenever no job is about
to update it, and no more than `maxDepth` steps complete. -/
def DepthSound (rt : Runtime) (guard : Engine → Act Choice Outside → Prop) (w₀ : Engine)
    (workflow : Definition) (x : String) : Prop :=
  ∀ w : Engine, (engine rt).Run guard w₀ w →
    (isCounting x w = false →
      ∃ row, w.store.execution x = some row ∧ row.depth = completions w.store x) ∧
    completions w.store x ≤ maxDepth workflow

/-- The depth that delivery `i` has read of execution `x` is the one that is stored. -/
def readsCurrent (x : String) (w : Engine) (i : Nat) : Bool :=
  w.trace.all fun
    | ⟨j, .findExecution id, .ok (some e)⟩ => !(decide (j = i) && decide (id = x)) ||
        decide ((w.store.execution x).map (·.depth) = some e.depth)
    | _ => true

/-- A result is stored only while the depth its job has read is the stored one and no other job
is about to update it, and an update of the depth does not fail. -/
def tracksDepth (x : String) (w : Engine) : Act Choice Outside → Bool
  | .env _ => true
  | .run i choice =>
      match (w.threads[i]?).bind (·.body.pending) with
      | some (.createStepResult row) =>
          decide (row.executionId ≠ x) || decide (row.status = .FAILED) ||
            choice.fault.isSome || w.store.hasResult row.executionId row.stepId row.attempt ||
            (readsCurrent x w i && !isCounting x w)
      | some o => !writesDepth x o || choice.fault.isNone
      | none => true

/-! ## What one operation counts -/

/-- The event completes a step of execution `x`. -/
def completes (x : String) : Event RunnerIface → Bool
  | ⟨_, .createStepResult row, .ok _⟩ =>
      decide (row.executionId = x) && decide (row.status ≠ .FAILED)
  | _ => false

theorem completes_of_ne {x : String} {i : Nat} {o : RunnerOp} {answer : RunnerIface.Answer o}
    (unstored : ∀ row, o ≠ .createStepResult row) : completes x ⟨i, o, answer⟩ = false := by
  cases o <;> first
    | rfl
    | exact (unstored _ rfl).elim

theorem completions_append {store : Store} {x : String} {row : StepResult} :
    completions { store with stepResults := store.stepResults ++ [row] } x =
      completions store x + if row.executionId = x ∧ row.status ≠ .FAILED then 1 else 0 := by
  simp [completions, List.countP_append, List.countP_singleton]

section Steps

variable {rt : Runtime} {p : WorkflowExecutionJobPayload} {x : String} {i : Nat}
  {s s' : Stage} {o : RunnerOp} {answer : RunnerIface.Answer o} {store store' : Store}
  {choice : Choice} {c : JobContext} {output : Option Json}

/-- An operation counts by the row it stores. -/
theorem completions_handle (uncreated : ∀ payload, o ≠ .createExecution payload)
    (answered : store.handle o choice = (answer, store')) :
    completions store' x = completions store x + if completes x ⟨i, o, answer⟩ then 1 else 0 := by
  by_cases stores : ∃ row, o = .createStepResult row
  · obtain ⟨row, rfl⟩ := stores
    cases answer with
    | error e =>
        rw [Store.handle_error answered]
        simp [completes]
    | ok r =>
        obtain ⟨_, rfl⟩ := Store.handle_createStepResult answered
        rw [completions_append]
        simp [completes]
  · have unstored : ∀ row, o ≠ .createStepResult row := fun row same => stores ⟨row, same⟩
    rw [completes_of_ne unstored]
    rcases Store.handle_cases uncreated answered with
      rfl | ⟨quotas, rfl⟩ | ⟨id, data, _, rfl⟩ | ⟨data, same, _⟩ | ⟨payload, options, _, _, rfl⟩
    · rfl
    · rfl
    · rfl
    · exact (unstored data same).elim
    · unfold Store.addJob
      split <;> rfl

theorem depth_handle {row : WorkflowExecution}
    (uncreated : ∀ payload, o ≠ .createExecution payload) (unwritten : writesDepth x o = false)
    (answered : store.handle o choice = (answer, store')) (found : store.execution x = some row) :
    ∃ row', store'.execution x = some row' ∧ row'.depth = row.depth := by
  rcases Store.handle_execution x uncreated answered with same | ⟨data, rfl, same⟩
  · exact ⟨row, same.trans found, rfl⟩
  · have undeep : data.depth = none := by simpa [writesDepth] using unwritten
    rw [found] at same
    exact ⟨_, same, by simp [ExecutionUpdate.apply, undeep]⟩

def Stage.isRecorded : Stage → Bool
  | .recorded .. => true
  | _ => false

/-- What a job has read of its execution. -/
def Stage.execution : Stage → Option WorkflowExecution
  | .guarded e => some e
  | s => s.context.map (·.execution)

/-- The result is stored when a job has produced an output. -/
theorem Stage.Step.of_completes (step : s.Step rt p o answer s')
    (counted : completes x ⟨i, o, answer⟩ = true) :
    ∃ c output, s = .produced c output ∧ s' = .recorded c output ∧ p.executionId = x := by
  have awaits := step.awaits
  cases o with
  | createStepResult row =>
      cases answer with
      | error e => cases counted
      | ok r =>
          simp only [completes, Bool.and_eq_true, decide_eq_true_eq] at counted
          cases s <;> simp only [Stage.Awaits, reduceCtorEq, or_self, exists_const,
            RunnerOp.createStepResult.injEq, and_false, exists_false] at awaits
          · obtain ⟨row', rfl, isRow, _⟩ := awaits
            cases step.2
            exact ⟨_, _, rfl, rfl, isRow.executionId.symm.trans counted.1⟩
          · obtain ⟨row', rfl, _, failed⟩ := awaits
            exact absurd failed counted.2
  | _ => cases counted

/-- A job is about to update the depth just after it has stored its result. -/
theorem Stage.Step.recorded (step : s.Step rt p o answer s') (after : s'.isRecorded = true) :
    completes p.executionId ⟨i, o, answer⟩ = true := by
  cases answer with
  | error e =>
      rw [step.2] at after
      cases s <;> cases after
  | ok r =>
      have awaits := step.awaits
      cases step.2 with
      | stored =>
          obtain ⟨row, same, isRow, succeeded⟩ := awaits
          cases same
          simp [completes, isRow.executionId, succeeded]
      | clock _ =>
          cases s with
          | recorded c output => cases awaits
          | _ => cases after
      | routed | enqueued | fallback | fell =>
          rcases Stage.afterEnqueue_cases _ _ with ⟨_, same⟩ | ⟨_, same⟩ <;> rw [same] at after <;>
            cases after
      | _ => cases after

theorem Stage.Awaits.of_writesDepth (awaits : s.Awaits p o) (writes : writesDepth x o = true) :
    ∃ c output, s = .recorded c output ∧ p.executionId = x := by
  cases s with
  | recorded c output =>
      cases awaits
      simp only [writesDepth, Option.isSome_some, Bool.and_true, beq_iff_eq] at writes
      exact ⟨c, output, rfl, writes⟩
  | failing => rcases awaits with rfl | ⟨t, m, rfl⟩ <;> simp [writesDepth] at writes
  | completing c => rcases awaits with rfl | ⟨t, d, rfl⟩ <;> simp [writesDepth] at writes
  | finishing c => rcases awaits with rfl | ⟨t, d, m, rfl⟩ <;> simp [writesDepth] at writes
  | guard | guarded | preparing | prepared =>
      rw [show o = _ from awaits] at writes
      cases writes
  | trying c =>
      rcases awaits with ⟨_, rfl | ⟨t, rfl⟩⟩ | rfl | ⟨id, rfl⟩ | ⟨step, context, rfl⟩ <;>
        cases writes
  | produced c output =>
      obtain ⟨row, rfl, _⟩ := awaits
      cases writes
  | catching c =>
      obtain ⟨row, rfl, _⟩ := awaits
      cases writes
  | enqueuing c remaining | falling c remaining =>
      rcases awaits with rfl | ⟨step, rest, options, _, rfl⟩ <;> cases writes
  | retrying c =>
      obtain ⟨options, rfl⟩ := awaits
      cases writes
  | returned | threw => exact awaits.elim

/-- What a job has read of its execution stays, and is read once. -/
theorem Stage.Step.execution {e : WorkflowExecution} (step : s.Step rt p o answer s')
    (after : s'.execution = some e) :
    s.execution = some e ∨
      (⟨i, o, answer⟩ : Event RunnerIface) = ⟨i, .findExecution p.executionId, .ok (some e)⟩ := by
  cases answer with
  | error e' =>
      rw [step.2] at after
      cases s <;> first
        | exact .inl after
        | cases after
  | ok r =>
      have awaits := step.awaits
      cases step.2 with
      | admitted =>
          cases awaits
          cases after
          exact .inr rfl
      | routed | enqueued | fallback | fell =>
          rcases Stage.afterEnqueue_cases _ _ with ⟨_, same⟩ | ⟨_, same⟩ <;> rw [same] at after
          · cases after
          · exact .inl after
      | _ => first
        | exact .inl after
        | cases after

end Steps

/-! ## The invariant -/

section Invariant

variable {rt : Runtime} {workflow : Definition} {x : String} {a : Stages} {i : Nat}
  {u : Thread Delivery Stage} {o : RunnerOp} {choice : Choice}
  {answer : RunnerIface.Answer o} {store : Store} {s' : Stage}

/-- No job of execution `x` but delivery `i` is about to update the depth. -/
def OnlyCounts (x : String) (a : Stages) (i : Option Nat) : Prop :=
  ∀ {j : Nat} {v : Thread Delivery Stage}, a.threads[j]? = some v →
    v.tag.payload.executionId = x → v.body.isRecorded = true → some j = i

/-- The depth is the number of completed steps, or one job is about to make it that. -/
inductive Counted (x : String) (a : Stages) (depth : Int) : Prop
  | settled (only : OnlyCounts x a none) (count : depth = completions a.store x)
  | pending {i : Nat} {u : Thread Delivery Stage} {c : JobContext} {output : Option Json}
      (there : a.threads[i]? = some u) (own : u.tag.payload.executionId = x)
      (recorded : u.body = .recorded c output) (only : OnlyCounts x a (some i))
      (current : c.execution.depth = depth) (count : depth + 1 = completions a.store x)

/-- The jobs of execution `x` have read depths below the bound, and the depth is counted. -/
structure DepthInv (workflow : Definition) (x : String) (a : Stages) : Prop where
  scope : Scoped workflow x a
  read : ∀ {i : Nat} {u : Thread Delivery Stage} {e : WorkflowExecution},
    a.threads[i]? = some u → u.tag.payload.executionId = x → u.body.execution = some e →
    (⟨i, .findExecution x, .ok (some e)⟩ : Event RunnerIface) ∈ a.trace
  below : ∀ {i : Nat} {u : Thread Delivery Stage} {c : JobContext}, a.threads[i]? = some u →
    u.tag.payload.executionId = x → u.body.context = some c →
    c.execution.depth < maxDepth workflow
  bound : completions a.store x ≤ maxDepth workflow
  counted : ∃ row, a.store.execution x = some row ∧ Counted x a row.depth

/-- What an operation must respect: a result is stored while the depth read is the one stored
and nobody is about to update it, and the update does not fail. -/
structure Tracks (x : String) (a : Stages) (i : Nat) (u : Thread Delivery Stage) (o : RunnerOp)
    (answer : RunnerIface.Answer o) : Prop where
  current : completes x ⟨i, o, answer⟩ = true → OnlyCounts x a none ∧
    ∀ {e row : WorkflowExecution}, u.body.execution = some e →
      a.store.execution x = some row → e.depth = row.depth
  written : writesDepth x o = true → ∃ r, answer = .ok r

/-- The stages that are about to update the depth after a step. -/
theorem OnlyCounts.advance {m : Option Nat} (only : OnlyCounts x a m)
    (there : a.threads[i]? = some u) (step : u.body.Step rt u.tag.payload o answer s')
    (uncounted : completes x ⟨i, o, answer⟩ = false) :
    OnlyCounts x (a.advance i s' store ⟨i, o, answer⟩) m := by
  intro j v after own recorded
  rcases World.advance_cases there after with ⟨rfl, rfl⟩ | ⟨_, before⟩
  · have counted := step.recorded (i := j) recorded
    rw [show u.tag.payload.executionId = x from own, uncounted] at counted
    cases counted
  · exact only before own recorded

theorem Counted.run {row : WorkflowExecution}
    (counted : Counted x a row.depth) (found : a.store.execution x = some row)
    (tracks : Tracks x a i u o answer) (there : a.threads[i]? = some u)
    (answered : a.store.handle o choice = (answer, store))
    (step : u.body.Step rt u.tag.payload o answer s') :
    ∃ row', store.execution x = some row' ∧
      Counted x (a.advance i s' store ⟨i, o, answer⟩) row'.depth := by
  have counts : completions store x = completions a.store x + _ :=
    completions_handle (i := i) step.uncreated answered
  by_cases stores : completes x ⟨i, o, answer⟩ = true
  · -- A result is stored: this job is the one that is about to update the depth.
    obtain ⟨c, output, produced, rfl, own⟩ := step.of_completes stores
    obtain ⟨only, current⟩ := tracks.current stores
    have unwritten : writesDepth x o = false := by
      cases o <;> first
        | rfl
        | cases stores
    obtain ⟨row', found', same⟩ := depth_handle step.uncreated unwritten answered found
    refine ⟨row', found', .pending (World.advance_self there) own rfl ?_ ?_ ?_⟩
    · intro j v after own' recorded
      rcases World.advance_cases there after with ⟨rfl, _⟩ | ⟨_, before⟩
      · rfl
      · cases only before own' recorded
    · rw [same]
      exact current (by rw [produced]; rfl) found
    · rw [World.advance_store, counts, stores, same]
      cases counted with
      | settled _ count => simp [count]
      | pending there' own' recorded =>
          cases only there' own' (by rw [recorded]; rfl)
  have unstored : completes x ⟨i, o, answer⟩ = false := Bool.not_eq_true _ ▸ stores
  rw [unstored, if_neg Bool.false_ne_true, Nat.add_zero] at counts
  by_cases writes : writesDepth x o = true
  · -- The depth is updated: this job was the one to do it.
    obtain ⟨c, output, recorded, own⟩ := step.awaits.of_writesDepth writes
    obtain ⟨r, rfl⟩ := tracks.written writes
    have awaits := step.awaits
    rw [recorded] at awaits
    cases awaits
    have updated := Store.handle_updateExecution answered
    have depth : store.execution x =
        some (ExecutionUpdate.apply { depth := some (c.execution.depth + 1) } row) := by
      rw [updated, Store.execution_updateExecution, own, if_pos rfl, found]
      rfl
    refine ⟨_, depth, .settled ?_ ?_⟩
    · intro j v after own' recorded'
      rcases World.advance_cases there after with ⟨rfl, rfl⟩ | ⟨other, before⟩
      · have again := step.recorded (i := j) recorded'
        cases again
      · cases counted with
        | settled only _ => exact only before own' recorded'
        | pending there' own'' recorded'' only _ _ =>
            have first := only before own' recorded'
            have second := only there own (by rw [recorded]; rfl)
            exact (other (Option.some.inj (first.trans second.symm))).elim
    · rw [World.advance_store, counts]
      cases counted with
      | settled only _ => cases only there own (by rw [recorded]; rfl)
      | pending there' own' recorded' only current count =>
          have same := only there own (by rw [recorded]; rfl)
          cases same
          rw [there] at there'
          cases there'
          rw [recorded] at recorded'
          cases recorded'
          simp only [ExecutionUpdate.apply, Option.getD_some]
          omega
  · -- Neither: what is counted and who counts stays.
    rw [Bool.not_eq_true] at writes
    obtain ⟨row', found', same⟩ := depth_handle step.uncreated writes answered found
    refine ⟨row', found', ?_⟩
    rw [same]
    cases counted with
    | settled only count =>
        refine .settled (only.advance there step unstored) ?_
        rw [World.advance_store, counts]
        exact count
    | @pending j v c output there' own recorded only current count =>
        have other : j ≠ i := by
          rintro rfl
          rw [there] at there'
          cases there'
          have awaits := step.awaits
          rw [recorded] at awaits
          cases awaits
          simp [writesDepth, own] at writes
        refine .pending ((World.advance_other other).trans there') own recorded
          (only.advance there step unstored) current ?_
        rw [World.advance_store, counts]
        exact count

theorem DepthInv.run (inv : DepthInv workflow x a) (tracks : Tracks x a i u o answer)
    (there : a.threads[i]? = some u) (answered : a.store.handle o choice = (answer, store))
    (step : u.body.Step rt u.tag.payload o answer s') :
    DepthInv workflow x (a.advance i s' store ⟨i, o, answer⟩) := by
  obtain ⟨row, found, counted⟩ := inv.counted
  constructor
  case scope => exact inv.scope.run there answered step
  case read =>
    intro j v e after own execution
    rcases World.advance_cases there after with ⟨rfl, rfl⟩ | ⟨_, before⟩
    · rcases step.execution (i := j) execution with old | read
      · exact List.mem_cons_of_mem _ (inv.read there own old)
      · rw [read, show u.tag.payload.executionId = x from own]
        exact List.mem_cons_self
    · exact List.mem_cons_of_mem _ (inv.read before own execution)
  case below =>
    intro j v c after own context
    rcases World.advance_cases there after with ⟨rfl, rfl⟩ | ⟨_, before⟩
    · rcases step.context answered context with old | ⟨⟨_, depth⟩, found, _⟩
      · have held := inv.below there own old
        exact held
      · have isOf := inv.scope.payload there own
        rw [isOf.1, isOf.2, inv.scope.stored] at found
        rw [Option.some.inj found]
        exact depth
    · exact inv.below before own context
  case bound =>
    rw [World.advance_store, completions_handle (i := i) step.uncreated answered]
    by_cases stores : completes x ⟨i, o, answer⟩ = true
    · obtain ⟨c, output, produced, _, own⟩ := step.of_completes stores
      obtain ⟨only, current⟩ := tracks.current stores
      have read : u.body.execution = some c.execution := by rw [produced]; rfl
      have below := inv.below there own (by rw [produced]; rfl)
      have same := current read found
      cases counted with
      | settled _ count =>
          rw [stores, if_pos rfl]
          push_cast
          omega
      | pending there' own' recorded =>
          cases only there' own' (by rw [recorded]; rfl)
    · rw [if_neg stores]
      simpa using inv.bound
  case counted => exact counted.run found tracks there answered step

/-- What the outside leaves of the depth. -/
theorem outside_depth {event : Outside} {threads : List (Thread Delivery Outcome)}
    {c : Change Delivery Store} {row : WorkflowExecution}
    (changed : outside event store threads = some c) (found : store.execution x = some row) :
    ∃ row', c.store.execution x = some row' ∧ row'.depth = row.depth := by
  cases event with
  | cancel id =>
      cases changed
      rw [Store.execution_updateExecution, found]
      split <;> exact ⟨_, rfl, rfl⟩
  | setQuotas quotas =>
      cases changed
      exact ⟨row, found, rfl⟩
  | deliver n =>
      simp only [outside] at changed
      split at changed <;> (try split at changed) <;> cases changed
      exact ⟨row, found, rfl⟩
  | settle n =>
      simp only [outside] at changed
      split at changed <;> (try split at changed) <;> cases changed
      exact ⟨row, found, rfl⟩
  | stall n =>
      simp only [outside] at changed
      split at changed <;> (try split at changed) <;> cases changed
      exact ⟨row, found, rfl⟩

theorem DepthInv.env {event : Outside} {c : Change Delivery Store} (inv : DepthInv workflow x a)
    (changed : outside event a.store (a.threads.map (Thread.map Stage.progress)) = some c) :
    DepthInv workflow x (a.change (fun _ => .guard) c) := by
  have results := (outside_frame changed).2
  have counts : completions c.store x = completions a.store x := by
    rw [completions, results]
    rfl
  -- A delivery that has read something was there before.
  have old : ∀ {j : Nat} {v : Thread Delivery Stage},
      (a.change (fun _ => .guard) c).threads[j]? = some v → v.body ≠ .guard →
        ∃ t, a.threads[j]? = some t ∧ t.tag = v.tag ∧ t.body = v.body := by
    intro j v after begun
    rcases World.change_cases after with ⟨t, before, rfl⟩ | ⟨tag, _, _, rfl⟩
    · exact ⟨t, before, rfl, rfl⟩
    · exact (begun rfl).elim
  have only : ∀ {m : Option Nat}, OnlyCounts x a m →
      OnlyCounts x (a.change (fun _ => .guard) c) m := by
    intro m only j v after own recorded
    obtain ⟨t, before, tag, body⟩ := old after fun start => by
      rw [start] at recorded
      cases recorded
    exact only before (tag ▸ own) (body ▸ recorded)
  constructor
  case scope => exact inv.scope.env changed
  case read =>
    intro j v e after own execution
    obtain ⟨t, before, tag, body⟩ := old after fun start => by
      rw [start] at execution
      cases execution
    exact inv.read before (tag ▸ own) (body ▸ execution)
  case below =>
    intro j v ctx after own context
    obtain ⟨t, before, tag, body⟩ := old after fun start => by
      rw [start] at context
      cases context
    exact inv.below before (tag ▸ own) (body ▸ context)
  case bound =>
    rw [World.change_store, counts]
    exact inv.bound
  case counted =>
    obtain ⟨row, found, counted⟩ := inv.counted
    obtain ⟨row', found', same⟩ := outside_depth changed found
    refine ⟨row', found', ?_⟩
    rw [same]
    cases counted with
    | settled none count =>
        refine .settled (only none) ?_
        rw [World.change_store, counts]
        exact count
    | pending there own recorded one current count =>
        refine .pending (World.change_kept there) own recorded (only one) current ?_
        rw [World.change_store, counts]
        exact count

theorem DepthInv.of_begun (begun : Begun store workflow x) :
    DepthInv workflow x ⟨store, [], []⟩ := by
  have none : completions store x = 0 := by
    rw [completions, List.countP_eq_zero]
    intro row there
    simp [begun.results row there]
  obtain ⟨row, found, depth⟩ := begun.execution
  exact {
    scope := .of_begun begun
    read := fun there => nomatch there
    below := fun there => nomatch there
    bound := by simp [none, maxDepth]
    counted := ⟨row, found, .settled (fun there => nomatch there) (by simp [none, depth])⟩ }

end Invariant

/-! ## Every run -/

section Runs

variable {rt : Runtime} {workflow : Definition} {x : String} {w : Engine} {a : Stages}
  {store : Store}

/-- The stages that are about to update the depth are seen in the programs. -/
theorem onlyCounts_of_not_isCounting (refines : (stages rt).Refines w a)
    (idle : isCounting x w = false) : OnlyCounts x a none := by
  intro j v there own recorded
  obtain ⟨t, found, tag, _, follows⟩ := refines.thread_of_stage there
  have inside : t ∈ w.threads := List.mem_of_getElem? found
  have quiet := List.any_eq_false.mp idle t inside
  cases stage : v.body with
  | recorded c output =>
      rw [stage] at follows
      cases body : t.body with
      | pure r =>
          rw [body] at follows
          cases follows
      | throw e =>
          rw [body] at follows
          cases follows
      | op o k =>
          rw [body] at follows
          obtain ⟨_, ⟨awaits, _⟩, _⟩ := follows (.error (error ""))
          cases awaits
          simp [body, writesDepth, ← tag, own] at quiet
  | _ =>
      rw [stage] at recorded
      cases recorded

/-- The guard gives what an operation must respect. -/
theorem tracks_of_tracksDepth {i : Nat} {choice : Choice}
    {t : Thread Delivery (Prog RunnerIface Unit)} {u : Thread Delivery Stage} {o : RunnerOp}
    {k : RunnerIface.Answer o → Prog RunnerIface Unit} {answer : RunnerIface.Answer o}
    {store' : Store} {s' : Stage} (inv : DepthInv workflow x a)
    (refines : (stages rt).Refines w a) (allowed : tracksDepth x w (.run i choice) = true)
    (found : w.threads[i]? = some t) (pending : t.body = .op o k)
    (there : a.threads[i]? = some u) (answered : a.store.handle o choice = (answer, store'))
    (step : u.body.Step rt u.tag.payload o answer s') : Tracks x a i u o answer := by
  simp only [tracksDepth, found, Option.bind_some, pending, Prog.pending_op] at allowed
  constructor
  case current =>
    intro stores
    obtain ⟨c, output, produced, _, own⟩ := step.of_completes stores
    cases o with
    | createStepResult row =>
        cases answer with
        | error e => cases stores
        | ok r =>
            simp only [completes, Bool.and_eq_true, decide_eq_true_eq] at stores
            have fresh : w.store.hasResult x row.stepId row.attempt = false := by
              rw [← refines.store, ← stores.1]
              exact (Store.handle_createStepResult answered).1
            have faultless : choice.fault = none := by
              cases fault : choice.fault with
              | none => rfl
              | some e =>
                  rw [Store.handle_of_fault fault (by simp)] at answered
                  cases (Prod.mk.inj answered).1
            simp only [fresh, ne_eq, stores.1, not_true_eq_false, decide_false, stores.2, faultless,
              Option.isSome_none, Bool.or_self, Bool.false_or, Bool.and_eq_true,
              Bool.not_eq_true'] at allowed
            refine ⟨onlyCounts_of_not_isCounting refines allowed.2, fun {e row'} execution row' => ?_⟩
            have read := inv.read there own execution
            rw [refines.trace] at read
            have current := List.all_eq_true.mp allowed.1 _ read
            simpa [← refines.store, row', eq_comm] using current
    | _ => cases stores
  case written =>
    intro writes
    cases o with
    | updateExecution id data =>
        obtain ⟨row, stored, _⟩ := inv.counted
        have own : id = x := by
          simp only [writesDepth, Bool.and_eq_true, beq_iff_eq] at writes
          exact writes.1
        have faultless : choice.fault = none := by simpa [writes] using allowed
        cases answer with
        | ok r => exact ⟨r, rfl⟩
        | error e =>
            rcases Store.handle_error_cases faultless answered with
              ⟨_, _, same⟩ | ⟨_, same, _⟩ | ⟨id', data', same, missing⟩
            · cases same
            · cases same
            · cases same
              rw [own, stored] at missing
              cases missing
    | _ => cases writes

/-- When results are stored only by jobs that have read the depth that is stored, the depth
counts the completed steps and bounds them. -/
theorem depthSound_of_tracksDepth (begun : Begun store workflow x) :
    DepthSound rt (fun w act => tracksDepth x w act) (idle store) workflow x := by
  intro w reached
  have first : (stages rt).Refines (idle store) ⟨store, [], []⟩ := ⟨rfl, rfl, rfl, by simp [idle]⟩
  obtain ⟨a, refines, inv⟩ : ∃ a, (stages rt).Refines w a ∧ DepthInv workflow x a :=
    System.Run.invariant (engine_follows rt)
      (fun inv refines allowed found pending there answered step =>
        inv.run (tracks_of_tracksDepth inv refines allowed found pending there
          (Option.some.inj answered) step) there (Option.some.inj answered) step)
      (fun inv _ _ changed => inv.env changed) first (.of_begun begun) reached
  rw [← refines.store]
  refine ⟨fun idle => ?_, inv.bound⟩
  have only : OnlyCounts x a none := onlyCounts_of_not_isCounting refines idle
  obtain ⟨row, found, counted⟩ := inv.counted
  cases counted with
  | settled _ count => exact ⟨row, found, count⟩
  | pending there own recorded => cases only there own (by rw [recorded]; rfl)

end Runs

/-! ### A line and a fork -/

/-- The trigger and then the leaf, to their ends. -/
def lineTurns : List (Act Choice Outside) :=
  [deliver 0, operate 0 9 7, settle 0, deliver 1, operate 1 10 8].flatten

/-- Two steps have completed and nobody is about to update the depth. -/
def lineCounted (w : Engine) : Bool :=
  !isCounting "x" w && decide (completions w.store "x" = 2)

/-- The line completes two steps at depth two. -/
theorem line_depthSound :
    ∃ w : Engine, (engine plainRuntime).Run (fun w act => tracksDepth "x" w act) lineStart w ∧
      completions w.store "x" = 2 ∧
      ∃ row, w.store.execution "x" = some row ∧ row.depth = completions w.store "x" := by
  have evaluated : ((engine plainRuntime).execute (tracksDepth "x") lineStart
      lineTurns).any lineCounted = true := by decide
  obtain ⟨w, reached, counted⟩ := System.Run.exists_of_execute (fun _ _ allowed => allowed) evaluated
  rw [lineCounted, Bool.and_eq_true, Bool.not_eq_true', decide_eq_true_eq] at counted
  have sound := depthSound_of_tracksDepth (Started.begun lineStart_started) w reached
  exact ⟨w, reached, counted.2, sound.1 counted.1⟩

/-- The fork with the bound two on its depth. -/
def boundedFork : Definition := publishedWorkflow forkCanvas 2 (by decide)

def boundedForkTrigger : WorkflowStep := (triggerStep boundedFork).get (by decide)

def boundedForkStart : Engine := idle (startStore boundedFork boundedForkTrigger "x")

/-- Both leaves have read depth one before either of them writes it. -/
def crossedLeaves : List (Act Choice Outside) :=
  [deliver 0, operate 0 11 7, settle 0, deliver 1, deliver 2, operate 1 1 8, operate 2 1 8,
    operate 1 9 8, operate 2 9 8].flatten

/-- Three steps have completed at depth two. -/
def undercounted (w : Engine) : Bool :=
  !isCounting "x" w && decide (completions w.store "x" = 3) &&
    decide ((w.store.execution "x").map (·.depth) = some 2)

/-- Two branches that run at once count as one step, so that a third one completes in spite of
the bound. -/
theorem boundedFork_not_depthSound :
    Validated boundedFork ∧ Started boundedForkStart.store boundedFork boundedForkTrigger "x" ∧
      maxDepth boundedFork = 2 ∧
      ¬ DepthSound plainRuntime (fun _ _ => True) boundedForkStart boundedFork "x" ∧
      ∃ w : Engine, (engine plainRuntime).Run (fun _ _ => True) boundedForkStart w ∧
        isCounting "x" w = false ∧ completions w.store "x" = 3 ∧
        (w.store.execution "x").map (·.depth) = some 2 := by
  have evaluated : ((engine plainRuntime).execute (fun _ _ => true) boundedForkStart
      crossedLeaves).any undercounted = true := by decide
  obtain ⟨w, reached, counted⟩ := System.Run.exists_of_execute (fun _ _ _ => trivial) evaluated
  simp only [undercounted, Bool.and_eq_true, Bool.not_eq_true', decide_eq_true_eq] at counted
  obtain ⟨⟨idle, three⟩, depth⟩ := counted
  refine ⟨publishedWorkflow_validated _, startStore_started (by simp [boundedForkTrigger]),
    by decide, fun sound => ?_, w, reached, idle, three, depth⟩
  obtain ⟨row, found, same⟩ := (sound w reached).1 idle
  rw [found] at depth
  have two : row.depth = 2 := Option.some.inj depth
  rw [three, two] at same
  cases same

end Workflow
