import BirthHub.Workflow.Job

/-!
# Terminal states of an execution

When the status of an execution stays what it is once it is `SUCCESS`, `FAILED` or
`CANCELLED`. The runner reads the status once, at the start of a job, and lets only
`CANCELLED` stop it; every later write is unconditional. So a terminal status lasts as
long as no job is past that read when it is written, and none starts after `SUCCESS` or
`FAILED`.
-/

namespace Workflow

open Data Effect

def ExecutionStatus.isTerminal : ExecutionStatus → Bool
  | .SUCCESS | .FAILED | .CANCELLED => true
  | .RUNNING | .WAITING => false

theorem ExecutionStatus.not_isTerminal {status : ExecutionStatus} (success : status ≠ .SUCCESS)
    (failed : status ≠ .FAILED) (cancelled : status ≠ .CANCELLED) : status.isTerminal = false := by
  cases status <;> simp_all [isTerminal]

/-- The fields of an execution that its end fixes. -/
def WorkflowExecution.ending (row : WorkflowExecution) :
    ExecutionStatus × Option Int × Option String :=
  (row.status, row.completedAt, row.errorMessage)

/-- A job of execution `x` has read the execution and has not ended. -/
def isPastCheck (x : String) (t : Thread Delivery (Prog RunnerIface Unit)) : Bool :=
  t.tag.payload.executionId == x &&
    (match t.body.pending with
      | none | some (.findExecution _) => false
      | some _ => true)

/-- Some job of execution `x` other than the one of thread `i` is past its check. -/
def otherPastCheck (x : String) (i : Option Nat)
    (w : Engine) : Bool :=
  (List.range w.threads.length).any fun j =>
    some j ≠ i && ((w.threads[j]?).map (isPastCheck x)).getD false

/-- A job of execution `x` checks its status only when that is neither `SUCCESS` nor
`FAILED`, and a status is written only when no other job of `x` is past its check. -/
def orderly (x : String) (w : Engine) :
    Act Choice Outside → Bool
  | .run i _ =>
      match (w.threads[i]?).bind (·.body.pending) with
      | some (.findExecution id) =>
          id ≠ x || ((w.store.execution x).map fun row =>
            row.status ≠ .SUCCESS && row.status ≠ .FAILED).getD true
      | some (.updateExecution id data) =>
          id ≠ x || data.status.isNone || !otherPastCheck x (some i) w
      | _ => true
  | .env (.cancel id) => id ≠ x || !otherPastCheck x none w
  | .env _ => true

/-! ## Stages at a terminal status -/

/-- A stage at which a job has not read its execution, or has ended. -/
def Stage.isOutside : Stage → Bool
  | .guard | .returned | .threw => true
  | _ => false

/-- At a terminal status every job of the execution is before its check or has ended. -/
def TerminalInv (x : String) (a : World RunnerIface Delivery Store Stage) : Prop :=
  ∀ row, a.store.execution x = some row → row.status.isTerminal →
    ∀ (i : Nat) (u : Thread Delivery Stage), a.threads[i]? = some u →
      u.tag.payload.executionId = x → u.body.isOutside

section Stages

variable {rt : Runtime} {p : WorkflowExecutionJobPayload} {s s' : Stage} {o : RunnerOp}
  {answer : RunnerIface.Answer o} {x : String}

/-- A stage outside the job that moves is the check. -/
theorem Stage.Step.of_isOutside (step : s.Step rt p o answer s') (isOutside : s.isOutside) :
    s = .guard ∧ o = .findExecution p.executionId := by
  have awaits := step.awaits
  cases s <;> simp [Stage.Awaits, Stage.isOutside] at awaits isOutside ⊢
  exact awaits

end Stages

section Guard

variable {rt : Runtime} {x : String}
  {w : Engine}
  {a : World RunnerIface Delivery Store Stage}

/-- A job that is not past its check is at a stage outside. -/
theorem isOutside_of_not_isPastCheck (refines : (stages rt).Refines w a) {j : Nat}
    {u : Thread Delivery Stage} (found : a.threads[j]? = some u)
    (own : u.tag.payload.executionId = x) {i : Option Nat} (other : some j ≠ i)
    (none : otherPastCheck x i w = false) : u.body.isOutside := by
  obtain ⟨t, there, sameTag, _, follows⟩ := refines.thread_of_stage found
  have notPast : isPastCheck x t = false := by
    have bound := (List.getElem?_eq_some_iff.mp there).1
    have := List.any_eq_false.mp none j (List.mem_range.mpr bound)
    simpa [other, there] using this
  have ownThread : t.tag.payload.executionId = x := sameTag ▸ own
  cases body : t.body with
  | pure r =>
      rw [body] at follows
      rw [show u.body = .returned from follows]
      rfl
  | throw e =>
      rw [body] at follows
      rw [show u.body = .threw from follows]
      rfl
  | op o k =>
      rw [body] at follows
      obtain ⟨s', step, _⟩ := follows (.error default)
      have check : ∃ id, o = .findExecution id := by
        simp only [isPastCheck, ownThread, body, Prog.pending_op, beq_self_eq_true,
          Bool.true_and] at notPast
        split at notPast
        · contradiction
        · rename_i id same
          exact ⟨id, Option.some.inj same⟩
        · cases notPast
      obtain ⟨id, rfl⟩ := check
      have awaits : u.body.Awaits t.tag.payload (.findExecution id) := step.1
      generalize u.body = s at awaits
      cases s <;> first | rfl | simp [Stage.Awaits] at awaits

theorem TerminalInv.run {i : Nat} {choice : Choice} {t : Thread Delivery (Prog RunnerIface Unit)}
    {o : RunnerOp} {k : RunnerIface.Answer o → Prog RunnerIface Unit}
    {answer : RunnerIface.Answer o} {store : Store} {u : Thread Delivery Stage} {s' : Stage}
    (inv : TerminalInv x a) (refines : (stages rt).Refines w a)
    (allowed : orderly x w (.run i choice)) (found : w.threads[i]? = some t)
    (pending : t.body = .op o k) (there : a.threads[i]? = some u)
    (answered : a.store.handle o choice = (answer, store))
    (step : u.body.Step rt u.tag.payload o answer s') :
    TerminalInv x (a.advance i s' store ⟨i, o, answer⟩) := by
  intro row rowAfter terminal j u' there' own'
  simp only [orderly, found, Option.bind_some, pending, Prog.pending_op] at allowed
  rcases Store.handle_execution x step.uncreated answered with same | ⟨data, rfl, changed⟩
  · -- The row is as before, so the invariant gives the other jobs.
    rw [World.advance_store, same] at rowAfter
    rcases World.advance_cases there there' with ⟨rfl, rfl⟩ | ⟨other, before⟩
    · obtain ⟨atGuard, rfl⟩ := step.of_isOutside (inv row rowAfter terminal _ u there own')
      have own : u.tag.payload.executionId = x := own'
      simp only [own, ← refines.store, rowAfter, ne_eq, not_true_eq_false, decide_false,
        Option.map_some, Option.getD_some, Bool.false_or, Bool.and_eq_true,
        decide_eq_true_eq] at allowed
      rw [atGuard] at step
      cases answer with
      | error e => rw [step.2]; rfl
      | ok r =>
          have read := Store.handle_findExecution answered
          rw [own, rowAfter] at read
          subst read
          cases step.2 with
          | cancelled status => rfl
          | admitted status =>
              cases (ExecutionStatus.not_isTerminal allowed.1 allowed.2 status).symm.trans terminal
    · exact inv row rowAfter terminal j u' before own'
  · -- A job updates the row: it writes the depth, or the status and ends.
    obtain ⟨ownId, depth | ⟨⟨status, written⟩, ends⟩⟩ := step.of_update
    · obtain ⟨depth, rfl⟩ := depth
      rw [World.advance_store, changed] at rowAfter
      obtain ⟨before, found', rfl⟩ := Option.map_eq_some_iff.mp rowAfter
      have outside := inv before found' terminal
      rcases World.advance_cases there there' with ⟨rfl, rfl⟩ | ⟨other, there⟩
      · exact absurd (step.of_isOutside (outside _ u there own')).2 (by simp)
      · exact outside j u' there own'
    · rcases World.advance_cases there there' with ⟨rfl, rfl⟩ | ⟨other, before⟩
      · cases answer with
        | ok r => rw [ends r rfl]; rfl
        | error e =>
            have kept := Store.handle_error answered
            rw [World.advance_store, kept] at rowAfter
            exact absurd (step.of_isOutside (inv row rowAfter terminal _ u there own')).2 (by simp)
      · simp only [written, ne_eq, not_true_eq_false, decide_false, Option.isNone_some,
          Bool.false_or, Bool.not_eq_true'] at allowed
        exact isOutside_of_not_isPastCheck refines before own' (by simpa using other) allowed

theorem TerminalInv.env {event : Outside} {c : Change Delivery Store} (inv : TerminalInv x a)
    (refines : (stages rt).Refines w a) (allowed : orderly x w (.env event))
    (changed : outside event a.store (a.threads.map (Thread.map Stage.progress)) = some c) :
    TerminalInv x (a.change (fun _ => .guard) c) := by
  intro row rowAfter terminal j u' there' own'
  rcases World.change_cases there' with ⟨u, there, rfl⟩ | ⟨tag, _, _, rfl⟩
  swap
  · rfl
  have keeps : a.store.execution x = some row → u.body.isOutside :=
    fun before => inv row before terminal j u there own'
  cases event with
  | deliver n =>
      simp only [outside] at changed
      split at changed <;> (try split at changed) <;> cases changed
      exact keeps rowAfter
  | settle i =>
      simp only [outside] at changed
      split at changed <;> (try split at changed) <;> cases changed
      exact keeps rowAfter
  | stall n =>
      simp only [outside] at changed
      split at changed <;> (try split at changed) <;> cases changed
      exact keeps rowAfter
  | setQuotas quotas =>
      cases changed
      exact keeps rowAfter
  | cancel id =>
      cases changed
      by_cases target : id = x
      · simp only [orderly, target, ne_eq, not_true_eq_false, decide_false, Bool.false_or,
          Bool.not_eq_true'] at allowed
        have outsideNow : u.body.isOutside :=
          isOutside_of_not_isPastCheck refines there own' (by simp) allowed
        exact outsideNow
      · rw [World.change_store, Store.execution_updateExecution, if_neg (Ne.symm target)] at rowAfter
        exact keeps rowAfter

/-- In an orderly run a job never moves past its check at a terminal status. -/
theorem TerminalInv.of_run {w₀ : Engine}
    (idle : w₀.threads = []) (reached : (engine rt).Run (fun w act => orderly x w act) w₀ w) :
    ∃ a, (stages rt).Refines w a ∧ TerminalInv x a := by
  have first : (stages rt).Refines w₀ ⟨w₀.store, [], w₀.trace⟩ :=
    ⟨rfl, rfl, by simp [idle], by simp⟩
  refine System.Run.invariant (engine_follows rt)
    (fun inv refines allowed found pending there answered step => ?_)
    (fun inv refines allowed changed => ?_) first ?_ reached
  · exact inv.run refines allowed found pending there (Option.some.inj answered) step
  · exact inv.env refines allowed changed
  · intro row _ _ i u there
    cases there

end Guard

/-! ## Absorbing terminal states -/

/-- In runs within `guard` no step of a job changes the ending of an execution whose
status is terminal. -/
def EndingAbsorbing (rt : Runtime) (guard : Engine → Act Choice Outside → Prop) (w₀ : Engine)
    (x : String) : Prop :=
  ∀ (w w' : Engine) (i : Nat) (choice : Choice) (row : WorkflowExecution),
    (engine rt).Run guard w₀ w → guard w (.run i choice) →
    (engine rt).step w (.run i choice) = some w' →
    w.store.execution x = some row → row.status.isTerminal →
    (w'.store.execution x).map (·.ending) = some row.ending

/-- Terminal states are absorbing in every orderly run, whatever the workflow. -/
theorem endingAbsorbing_of_orderly {rt : Runtime} {w₀ : Engine} {x : String}
    (idle : w₀.threads = []) : EndingAbsorbing rt (fun w act => orderly x w act) w₀ x := by
  intro w w' i choice row reached _ taken found terminal
  obtain ⟨a, refines, inv⟩ := TerminalInv.of_run idle reached
  obtain ⟨t, o, k, answer, store, u, s', _, _, there, _, answered, step, after⟩ :=
    refines.run taken
  have stepped : u.body.Step rt u.tag.payload o answer s' := step
  rw [← refines.store] at found
  rw [← after.store, World.advance_store]
  rcases Store.handle_execution x stepped.uncreated (Option.some.inj answered) with
    same | ⟨data, rfl, _⟩
  · rw [same, found]
    rfl
  · obtain ⟨own, _⟩ := stepped.of_update
    have outside := inv row found terminal i u there own.symm
    exact absurd (stepped.of_isOutside outside).2 (by simp)

/-- The trigger and the left leaf run to their end while the right leaf is one operation
from its own completion. -/
def forkActs : List (Act Choice Outside) :=
  [deliver 0, operate 0 11 7, settle 0, deliver 1, deliver 2, operate 1 10 8,
    operate 2 9 9].flatten

/-- The execution has succeeded at 8, and the next step of the right leaf says 9. -/
def rewritesEnding (w : Engine) : Bool :=
  decide ((w.store.execution "x").map (·.ending) = some (.SUCCESS, some 8, none)) &&
  ((engine plainRuntime).step w (.run 2 ({ time := 9 } : Choice))).any fun w' =>
    decide ((w'.store.execution "x").map (·.ending) = some (.SUCCESS, some 9, none))

/-- With two leaves the second one to complete rewrites the ending of the first. -/
theorem fork_not_endingAbsorbing :
    Validated forkWorkflow ∧ Started forkStart.store forkWorkflow forkTrigger "x" ∧
      ¬ EndingAbsorbing plainRuntime (fun _ _ => True) forkStart "x" := by
  refine ⟨publishedWorkflow_validated _, forkStart_started, fun absorbing => ?_⟩
  have evaluated : ((engine plainRuntime).execute (fun _ _ => true) forkStart forkActs).any
      rewritesEnding = true := by decide
  obtain ⟨w, reached, rewrites⟩ :=
    System.Run.exists_of_execute (fun _ _ _ => trivial) evaluated
  simp only [rewritesEnding, Bool.and_eq_true, decide_eq_true_eq] at rewrites
  obtain ⟨before, after⟩ := rewrites
  obtain ⟨row, found, ending⟩ := Option.map_eq_some_iff.mp before
  cases taken : (engine plainRuntime).step w (.run 2 ({ time := 9 } : Choice)) with
  | none => simp [taken] at after
  | some w' =>
      simp only [taken, Option.any_some, decide_eq_true_eq] at after
      have terminal : row.status.isTerminal := by
        rw [show row.status = .SUCCESS from congrArg Prod.fst ending]
        rfl
      have kept := absorbing w w' 2 _ row reached trivial taken found terminal
      rw [after, ending] at kept
      cases kept

/-- The execution is cancelled, and the delivered job reads it. -/
def readsCancelled (w : Engine) : Bool :=
  decide ((w.store.execution "x").map (·.ending) = some (.CANCELLED, none, none)) &&
  orderly "x" w (.run 0 {}) && ((engine plainRuntime).step w (.run 0 ({} : Choice))).isSome

/-- A job that starts after a cancellation leaves the cancelled execution as it is. -/
theorem fork_cancelled_kept :
    ∃ w w' : Engine, (engine plainRuntime).Run (fun w act => orderly "x" w act) forkStart w ∧
      (engine plainRuntime).step w (.run 0 ({} : Choice)) = some w' ∧
      (w.store.execution "x").map (·.ending) = some (.CANCELLED, none, none) ∧
      (w'.store.execution "x").map (·.ending) = some (.CANCELLED, none, none) := by
  have evaluated : ((engine plainRuntime).execute (fun w act => orderly "x" w act) forkStart
      [.env (.deliver 0), .env (.cancel "x")]).any readsCancelled = true := by decide
  obtain ⟨w, reached, reads⟩ := System.Run.exists_of_execute (fun _ _ allowed => allowed) evaluated
  simp only [readsCancelled, Bool.and_eq_true, decide_eq_true_eq] at reads
  obtain ⟨⟨before, allowed⟩, next⟩ := reads
  obtain ⟨row, found, ending⟩ := Option.map_eq_some_iff.mp before
  obtain ⟨w', taken⟩ := Option.isSome_iff_exists.mp next
  have status : row.status = .CANCELLED := congrArg Prod.fst ending
  refine ⟨w, w', reached, taken, before, ?_⟩
  rw [← ending]
  exact endingAbsorbing_of_orderly rfl w w' 0 {} row reached allowed taken found
    (by rw [status]; rfl)

end Workflow
