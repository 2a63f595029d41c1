import BirthHub.Data.Graph
import BirthHub.Data.Json
import BirthHub.Data.OrderedMap
import BirthHub.Effect.Traces

/-!
# The goal loop

`GoalLoop.run` of `agents/runtime/goal_loop.py`. Over and over it goes through the steps of a plan
in their order and executes those whose dependencies have results, each a second time if it is to
be retried, until all have results, a step is given up, or nothing can be executed. What the
executor and the evaluator answer is left open, and each call may raise an exception.
-/

namespace GoalLoop

open Data Effect

/-! ## The code -/

structure Step where
  id : String
  description : String
  agent_type : String
  tool : String
  input_schema : List (String × Json)
  depends_on : List String

structure Plan where
  goal : String
  steps : List Step

inductive Decision
  | proceed
  | retry
  | escalate
deriving DecidableEq

structure Evaluation where
  score : Number
  decision : Decision
  reason : String

inductive GoalEvent
  | started (goal : String)
  | stepPlanned (step_id description : String)
  | stepExecuted (step_id : String) (result : Json)
  | stepEvaluated (step_id : String) (score : Number) (decision : Decision)
  | completed (goal : String) (steps : Nat)
  | failed (reason : String)

/-- `goal.completed` or `goal.failed`. -/
def GoalEvent.isFinal : GoalEvent → Bool
  | completed .. | failed _ => true
  | _ => false

/-- The calls of the loop; an evaluation names the step whose result it is about. -/
inductive GoalOp
  | emit (event : GoalEvent)
  | step_executor (step : Step) (context : Json)
  | evaluate (step : Step) (step_result : Json) (retries_done : Nat)

abbrev GoalOp.Result : GoalOp → Type
  | .emit _ => Unit
  | .step_executor .. => Json
  | .evaluate .. => Evaluation

abbrev GoalIface : Iface where
  Op := GoalOp
  Res := GoalOp.Result
  Err := Thrown

def call (o : GoalOp) : Prog GoalIface o.Result := Prog.perform (I := GoalIface) o

inductive GoalStatus
  | completed
  | failed
deriving DecidableEq

abbrev Results := OrderedMap String Json

structure Outcome where
  status : GoalStatus
  results : Results

/-- How a scan over the steps ends: the run returns, or there may be another pass. -/
inductive Pass
  | stopped (outcome : Outcome)
  | passed (results : Results) (progressed : Bool)

def scan (context : Json) : List Step → Results → Bool → Prog GoalIface Pass
  | [], results, progressed => pure (.passed results progressed)
  | step :: steps, results, progressed =>
      if step.id ∈ results.keys then scan context steps results progressed
      else if step.depends_on.any (· ∉ results.keys) then scan context steps results progressed
      else do
        call (.emit (.stepPlanned step.id step.description))
        let raw_result : Json ← call (.step_executor step context)
        call (.emit (.stepExecuted step.id raw_result))
        let evaluation : Evaluation ← call (.evaluate step raw_result 0)
        call (.emit (.stepEvaluated step.id evaluation.score evaluation.decision))
        match evaluation.decision with
        | .proceed => scan context steps (results.set step.id raw_result) true
        | .retry => do
            let retried : Json ← call (.step_executor step context)
            let retry_eval : Evaluation ← call (.evaluate step retried 1)
            call (.emit (.stepEvaluated step.id retry_eval.score retry_eval.decision))
            if retry_eval.decision ≠ .proceed then do
              call (.emit (.failed ("step " ++ step.id ++ " failed after retry")))
              pure (.stopped ⟨.failed, results⟩)
            else scan context steps (results.set step.id retried) true
        | .escalate => do
            call (.emit (.failed ("step " ++ step.id ++ " escalated")))
            pure (.stopped ⟨.failed, results⟩)

/-- The passes that are left. -/
def passes (goal : String) (context : Json) (plan : Plan) : Nat → Results → Prog GoalIface Outcome
  | 0, results => do
      call (.emit (.failed "max_iterations_exceeded"))
      pure ⟨.failed, results⟩
  | iterations + 1, results => do
      match ← scan context plan.steps results false with
      | .stopped outcome => pure outcome
      | .passed results progressed =>
          if results.keys.length = plan.steps.length then do
            call (.emit (.completed goal plan.steps.length))
            pure ⟨.completed, results⟩
          else if progressed = false then do
            call (.emit (.failed "execution deadlock"))
            pure ⟨.failed, results⟩
          else passes goal context plan iterations results

/-- `run`, where the planner creates this plan. -/
def run (goal : String) (context : Json) (plan : Plan) (max_iterations : Nat) :
    Prog GoalIface Outcome := do
  call (.emit (.started goal))
  passes goal context plan max_iterations .empty

/-! ## What a run shows -/

/-- What the calls so far show: the steps that were executed, the newest first, the results that
were accepted, how many final events were emitted, and the exception that was raised. -/
structure Seen where
  executed : List String := []
  accepted : Results := .empty
  finals : Nat := 0
  raised : Option Thrown := none

/-- The call itself, whatever its answer. -/
def Seen.called (seen : Seen) : GoalOp → Seen
  | .emit event => if event.isFinal then { seen with finals := seen.finals + 1 } else seen
  | .step_executor step _ => { seen with executed := step.id :: seen.executed }
  | .evaluate .. => seen

def Seen.observe (seen : Seen) : GoalIface.Event → Seen
  | ⟨o, .error e⟩ => { seen.called o with raised := some e }
  | ⟨.evaluate step step_result _, .ok evaluation⟩ =>
      if evaluation.decision = .proceed then
        { seen with accepted := seen.accepted.set step.id step_result }
      else seen
  | ⟨.emit event, .ok _⟩ => seen.called (.emit event)
  | ⟨.step_executor step context, .ok _⟩ => seen.called (.step_executor step context)

def seen (events : List GoalIface.Event) : Seen := events.foldl Seen.observe {}

/-- The first step needs a result of the second. -/
def Plan.DependsOn (plan : Plan) (a b : String) : Prop :=
  ∃ step ∈ plan.steps, step.id = a ∧ b ∈ step.depends_on

/-- The dependencies are steps of the plan, and no step needs itself. -/
def Plan.Executable (plan : Plan) : Prop :=
  (∀ step ∈ plan.steps, ∀ dep ∈ step.depends_on, dep ∈ plan.steps.map (·.id)) ∧
    IsAcyclic plan.DependsOn

/-- A step is executed once its dependencies have accepted results, twice at most, and not after
its own result was accepted. -/
def InOrder (events : List GoalIface.Event) : Prop :=
  ∀ before after step context answer,
    events = before ++ ⟨.step_executor step context, answer⟩ :: after →
      (∀ dep ∈ step.depends_on, dep ∈ (seen before).accepted.keys) ∧
        step.id ∉ (seen before).accepted.keys ∧ (seen before).executed.count step.id ≤ 1

/-- There is one final event, which is the last of all. -/
def EndsByEvent (events : List GoalIface.Event) : Prop :=
  ∃ front event answer, events = front ++ [⟨.emit event, answer⟩] ∧ event.isFinal = true ∧
    (seen front).finals = 0

/-- How a run that returns ends. -/
structure Returns (plan : Plan) (events : List GoalIface.Event) (outcome : Outcome) : Prop where
  completed : outcome.status = .completed ↔ plan.Executable ∧
    ∀ id ∈ (seen events).executed, id ∈ (seen events).accepted.keys
  results : outcome.results = (seen events).accepted
  final : EndsByEvent events

/-- How a run ends by an exception: the last call raised it, and there was no final event before. -/
def Escapes (events : List GoalIface.Event) (e : Thrown) : Prop :=
  ∃ front o, events = front ++ [⟨o, .error e⟩] ∧ (seen front).finals = 0

/-! ## What is permitted -/

/-- The step has no accepted result yet, and its dependencies have. -/
structure Ready (plan : Plan) (accepted : Results) (step : Step) : Prop where
  own : step ∈ plan.steps
  fresh : step.id ∉ accepted.keys
  dependencies : ∀ dep ∈ step.depends_on, dep ∈ accepted.keys

def Permitted (plan : Plan) (s : Seen) (o : GoalOp) : Prop :=
  s.finals = 0 ∧ s.raised = none ∧
    match o with
    | .emit _ => True
    | .step_executor step _ => Ready plan s.accepted step ∧ s.executed.count step.id ≤ 1
    | .evaluate step .. => Ready plan s.accepted step

/-- Between two steps: the results are those that were accepted, and every step that was executed
has one. -/
structure Idle (plan : Plan) (results : Results) (s : Seen) : Prop where
  finals : s.finals = 0
  raised : s.raised = none
  accepted : s.accepted = results
  executed : ∀ id ∈ s.executed, id ∈ results.keys
  known : ∀ id ∈ results.keys, id ∈ plan.steps.map (·.id)

/-- The run has given up, and a step that was executed has no result. -/
structure GaveUp (outcome : Outcome) (s : Seen) : Prop where
  finals : s.finals = 1
  raised : s.raised = none
  status : outcome.status = .failed
  results : outcome.results = s.accepted
  without : ∃ id ∈ s.executed, id ∉ s.accepted.keys

/-- The step has a result, or lacks one of a dependency. -/
def Waits (results : Results) (step : Step) : Prop :=
  step.id ∈ results.keys ∨ ∃ dep ∈ step.depends_on, dep ∉ results.keys

def ScanEnds (plan : Plan) (steps : List Step) (results : Results) (progressed : Bool) :
    Except Thrown Pass → Seen → Prop
  | .ok (.stopped outcome), s => GaveUp outcome s
  | .ok (.passed results' progressed'), s => Idle plan results' s ∧
      (progressed' = true ∧ (progressed = true ∨ results.keys.length < results'.keys.length) ∧
        results.keys.length ≤ results'.keys.length ∨
      progressed' = false ∧ progressed = false ∧ results' = results ∧
        ∀ step ∈ steps, Waits results step)
  | .error e, s => s.raised = some e

def RunEnds (plan : Plan) : Except Thrown Outcome → Seen → Prop
  | .ok outcome, s => GaveUp outcome s ∨
      s.finals = 1 ∧ s.raised = none ∧ outcome.results = s.accepted ∧
        (∀ id ∈ s.executed, id ∈ s.accepted.keys) ∧
        (outcome.status = .completed ∧ (∀ step ∈ plan.steps, step.id ∈ s.accepted.keys) ∨
          outcome.status = .failed ∧ (∃ step ∈ plan.steps, step.id ∉ s.accepted.keys) ∧
            ∀ step ∈ plan.steps, Waits s.accepted step)
  | .error e, s => s.raised = some e

section

variable {α : Type} {plan : Plan} {s : Seen} {results : Results} {step : Step} {context : Json}
  {Q : Except Thrown α → Seen → Prop}

theorem follows_call {o : GoalOp} {f : o.Result → Prog GoalIface α} (permitted : Permitted plan s o)
    (escapes : ∀ e s', s'.raised = some e → Q (.error e) s')
    (rest : ∀ a, (f a).Follows (Watched Seen.observe (Permitted plan)) Q (s.observe ⟨o, .ok a⟩)) :
    ((call o).bind f).Follows (Watched Seen.observe (Permitted plan)) Q s :=
  .performBind (fun a => ⟨_, ⟨permitted, rfl⟩, rest a⟩) fun e =>
    ⟨_, ⟨permitted, rfl⟩, escapes e _ rfl⟩

theorem mem_keys_set {results : Results} {id other : String} {result : Json} :
    other ∈ (results.set id result).keys ↔ other = id ∨ other ∈ results.keys := by
  rw [OrderedMap.keys_set]
  split
  · rename_i there
    exact ⟨.inr, fun given => given.elim (fun same => same ▸ there) fun inside => inside⟩
  · rw [List.mem_append, List.mem_singleton, or_comm]

/-- The step has its result. -/
theorem Idle.accept (idle : Idle plan results s) (own : step ∈ plan.steps) {result : Json}
    {executed : List String} (only : ∀ id ∈ executed, id = step.id ∨ id ∈ s.executed) :
    Idle plan (results.set step.id result)
      { s with executed, accepted := s.accepted.set step.id result } where
  finals := idle.finals
  raised := idle.raised
  accepted := congrArg (OrderedMap.set · step.id result) idle.accepted
  executed id inside := by
    rw [mem_keys_set]
    exact (only id inside).imp_right (idle.executed id)
  known id inside := by
    rcases mem_keys_set.mp inside with rfl | earlier
    · exact List.mem_map_of_mem own
    · exact idle.known id earlier

theorem length_keys_set {result : Json} (fresh : step.id ∉ results.keys) :
    (results.set step.id result).keys.length = results.keys.length + 1 := by
  rw [OrderedMap.keys_set, if_neg fresh, List.length_append, List.length_singleton]

/-- What a longer scan from more results ends in. -/
theorem ScanEnds.later {steps : List Step} {progressed : Bool} {result : Json}
    (fresh : step.id ∉ results.keys) {x : Except Thrown Pass} {s' : Seen}
    (ends : ScanEnds plan steps (results.set step.id result) true x s') :
    ScanEnds plan (step :: steps) results progressed x s' := by
  match x, ends with
  | .error e, ends => exact ends
  | .ok (.stopped outcome), ends => exact ends
  | .ok (.passed results' progressed'), ends =>
      obtain ⟨idle, more | ⟨_, none, _⟩⟩ := ends
      · rw [length_keys_set fresh] at more
        exact ⟨idle, .inl ⟨more.1, .inr (by omega), by omega⟩⟩
      · cases none

/-- A step that waits is passed over. -/
theorem ScanEnds.over {steps : List Step} {progressed : Bool} (waits : Waits results step)
    {x : Except Thrown Pass} {s' : Seen} (ends : ScanEnds plan steps results progressed x s') :
    ScanEnds plan (step :: steps) results progressed x s' := by
  match x, ends with
  | .error e, ends => exact ends
  | .ok (.stopped outcome), ends => exact ends
  | .ok (.passed results' progressed'), ends =>
      obtain ⟨idle, more | ⟨none, before, same, all⟩⟩ := ends
      · exact ⟨idle, .inl more⟩
      · refine ⟨idle, .inr ⟨none, before, same, fun other inside => ?_⟩⟩
        rcases List.mem_cons.mp inside with rfl | later
        · exact waits
        · exact all other later

theorem Seen.observe_accepted {raw : Json} {retries_done : Nat} {evaluation : Evaluation}
    (decided : evaluation.decision = .proceed) :
    s.observe ⟨.evaluate step raw retries_done, .ok evaluation⟩ =
      { s with accepted := s.accepted.set step.id raw } := if_pos decided

theorem Seen.observe_rejected {raw : Json} {retries_done : Nat} {evaluation : Evaluation}
    (decided : evaluation.decision ≠ .proceed) :
    s.observe ⟨.evaluate step raw retries_done, .ok evaluation⟩ = s := if_neg decided

/-- Giving up after a step was executed without being accepted. -/
theorem gaveUp_follows {steps : List Step} {progressed : Bool} {reason : String}
    (finals : s.finals = 0) (raised : s.raised = none) (accepted : s.accepted = results)
    (fresh : step.id ∉ results.keys) (executed : step.id ∈ s.executed) :
    (do
      call (.emit (.failed reason))
      pure (.stopped ⟨.failed, results⟩) : Prog GoalIface Pass).Follows
        (Watched Seen.observe (Permitted plan)) (ScanEnds plan steps results progressed) s := by
  refine follows_call ⟨finals, raised, trivial⟩ (fun _ _ raised => raised) fun _ => ?_
  exact {
    finals := congrArg (· + 1) finals
    raised
    status := rfl
    results := accepted.symm
    without := ⟨step.id, executed, fun inside => fresh (accepted ▸ inside)⟩ }

theorem scan_follows {steps : List Step} (own : ∀ step ∈ steps, step ∈ plan.steps)
    {progressed : Bool} (idle : Idle plan results s) :
    (scan context steps results progressed).Follows (Watched Seen.observe (Permitted plan))
      (ScanEnds plan steps results progressed) s := by
  induction steps generalizing results progressed s with
  | nil =>
      refine ⟨idle, ?_⟩
      cases progressed with
      | true => exact .inl ⟨rfl, .inl rfl, Nat.le_refl _⟩
      | false => exact .inr ⟨rfl, rfl, rfl, fun step inside => (List.not_mem_nil inside).elim⟩
  | cons step steps ih =>
      have others : ∀ step ∈ steps, step ∈ plan.steps :=
        fun other inside => own other (List.mem_cons_of_mem step inside)
      rw [scan]
      split
      · rename_i there
        exact .mono (fun _ _ => .over (.inl there)) (ih others idle)
      split
      · rename_i fresh waits
        obtain ⟨dep, inside, missing⟩ := List.any_eq_true.mp waits
        have waits' : Waits results step := .inr ⟨dep, inside, of_decide_eq_true missing⟩
        exact .mono (fun _ _ => .over waits') (ih others idle)
      rename_i fresh complete
      have ready : Ready plan s.accepted step := by
        rw [idle.accepted]
        refine ⟨own step List.mem_cons_self, fresh, fun dep inside => ?_⟩
        by_contra missing
        exact complete (List.any_eq_true.mpr ⟨dep, inside, decide_eq_true missing⟩)
      have unexecuted : s.executed.count step.id = 0 :=
        List.count_eq_zero.mpr fun inside => fresh (idle.executed _ inside)
      have clean : s.finals = 0 ∧ s.raised = none := ⟨idle.finals, idle.raised⟩
      have escapes (e : Thrown) (s' : Seen) (raised : s'.raised = some e) :
        ScanEnds plan (step :: steps) results progressed (.error e) s' := raised
      let tried : Seen := { s with executed := step.id :: s.executed }
      have once : tried.executed.count step.id ≤ 1 := by
        rw [List.count_cons_self, unexecuted]
      refine follows_call ⟨clean.1, clean.2, trivial⟩ escapes fun _ => ?_
      refine follows_call ⟨clean.1, clean.2, ready, unexecuted.trans_le (Nat.zero_le 1)⟩ escapes
        fun raw => ?_
      refine follows_call ⟨clean.1, clean.2, trivial⟩ escapes fun _ => ?_
      refine follows_call ⟨clean.1, clean.2, ready⟩ escapes fun evaluation => ?_
      change Prog.Follows _ _ _ (tried.observe ⟨.evaluate step raw 0, .ok evaluation⟩)
      cases decided : evaluation.decision with
      | proceed =>
          rw [Seen.observe_accepted decided]
          refine follows_call ⟨clean.1, clean.2, trivial⟩ escapes fun _ => ?_
          have idle' : Idle plan (results.set step.id raw)
              { tried with accepted := s.accepted.set step.id raw } :=
            idle.accept (own step List.mem_cons_self) fun id => List.mem_cons.mp
          exact .mono (fun _ _ => .later fresh) (ih others idle')
      | retry =>
          rw [Seen.observe_rejected (by rw [decided]; decide)]
          refine follows_call ⟨clean.1, clean.2, trivial⟩ escapes fun _ => ?_
          refine follows_call ⟨clean.1, clean.2, ready, once⟩ escapes fun retried => ?_
          let again : Seen := { s with executed := step.id :: step.id :: s.executed }
          refine follows_call ⟨clean.1, clean.2, ready⟩ escapes fun retry_eval => ?_
          change Prog.Follows _ _ _ (again.observe ⟨.evaluate step retried 1, .ok retry_eval⟩)
          by_cases proceeds : retry_eval.decision = .proceed
          · rw [Seen.observe_accepted proceeds]
            refine follows_call ⟨clean.1, clean.2, trivial⟩ escapes fun _ => ?_
            rw [if_neg (not_not_intro proceeds)]
            have idle' : Idle plan (results.set step.id retried)
                { again with accepted := s.accepted.set step.id retried } := by
              refine idle.accept (own step List.mem_cons_self) fun id inside => ?_
              rcases List.mem_cons.mp inside with same | inside'
              · exact .inl same
              · exact List.mem_cons.mp inside'
            exact .mono (fun _ _ => .later fresh) (ih others idle')
          · rw [Seen.observe_rejected proceeds]
            refine follows_call ⟨clean.1, clean.2, trivial⟩ escapes fun _ => ?_
            rw [if_pos proceeds]
            exact gaveUp_follows clean.1 clean.2 idle.accepted fresh List.mem_cons_self
      | escalate =>
          rw [Seen.observe_rejected (by rw [decided]; decide)]
          refine follows_call ⟨clean.1, clean.2, trivial⟩ escapes fun _ => ?_
          exact gaveUp_follows clean.1 clean.2 idle.accepted fresh List.mem_cons_self

/-! ## A run -/

theorem Idle.length_le (idle : Idle plan results s) : results.keys.length ≤ plan.steps.length := by
  have short : results.keys.length ≤ (plan.steps.map (·.id)).length :=
    results.distinct.length_le_of_subset idle.known
  rw [List.length_map] at short
  exact short

/-- With as many results as steps, every step has one. -/
theorem Idle.all (idle : Idle plan results s) (whole : results.keys.length = plan.steps.length) :
    ∀ step ∈ plan.steps, step.id ∈ results.keys := by
  intro step own
  have long : (plan.steps.map (·.id)).length ≤ results.keys.length := by
    rw [List.length_map, whole]
  have same := (results.distinct.subperm idle.known).perm_of_length_le long
  exact same.mem_iff.mpr (List.mem_map_of_mem own)

/-- With fewer results than steps, a step has none. -/
theorem Idle.exists_without (idle : Idle plan results s) (distinct : (plan.steps.map (·.id)).Nodup)
    (short : results.keys.length ≠ plan.steps.length) :
    ∃ step ∈ plan.steps, step.id ∉ results.keys := by
  by_contra all
  push Not at all
  have inside : plan.steps.map (·.id) ⊆ results.keys := by
    intro id listed
    obtain ⟨step, own, rfl⟩ := List.mem_map.mp listed
    exact all step own
  have long := distinct.length_le_of_subset inside
  rw [List.length_map] at long
  have := idle.length_le
  omega

/-- Each pass but the last accepts a result, so the passes do not run out. -/
theorem passes_follows {goal : String} (distinct : (plan.steps.map (·.id)).Nodup) {n : Nat}
    (positive : 0 < n) (enough : plan.steps.length ≤ n + results.keys.length)
    (idle : Idle plan results s) :
    (passes goal context plan n results).Follows (Watched Seen.observe (Permitted plan))
      (RunEnds plan) s := by
  induction n generalizing results s with
  | zero => omega
  | succ n ih =>
      rw [passes]
      refine .bind (.mono ?_ (scan_follows (fun _ own => own) idle))
      rintro (e | outcome | ⟨results', progressed⟩) s' ends
      · exact ends
      · exact .inl ends
      · obtain ⟨idle', more⟩ := ends
        have held : ∀ id ∈ s'.executed, id ∈ s'.accepted.keys := by
          rw [idle'.accepted]
          exact idle'.executed
        change Prog.Follows _ _ (ite _ _ _) s'
        split
        · rename_i whole
          refine follows_call ⟨idle'.finals, idle'.raised, trivial⟩ (fun _ _ raised => raised)
            fun _ => .inr ⟨congrArg (· + 1) idle'.finals, idle'.raised, idle'.accepted.symm, held,
              ?_⟩
          refine .inl ⟨rfl, fun step own => ?_⟩
          change step.id ∈ s'.accepted.keys
          rw [idle'.accepted]
          exact idle'.all whole step own
        rename_i short
        split
        · rename_i still
          obtain ⟨moved, _⟩ | ⟨_, _, rfl, waits⟩ := more
          · cases still.symm.trans moved
          refine follows_call ⟨idle'.finals, idle'.raised, trivial⟩ (fun _ _ raised => raised)
            fun _ => .inr ⟨congrArg (· + 1) idle'.finals, idle'.raised, idle'.accepted.symm, held,
              ?_⟩
          refine .inr ⟨rfl, ?_⟩
          change (∃ step ∈ plan.steps, step.id ∉ s'.accepted.keys) ∧
            ∀ step ∈ plan.steps, Waits s'.accepted step
          rw [idle'.accepted]
          exact ⟨idle'.exists_without distinct short, waits⟩
        · rename_i moved
          obtain ⟨_, none | longer, _⟩ | ⟨still, _⟩ := more
          · cases none
          · have := idle'.length_le
            exact ih (by omega) (by omega) idle'
          · exact (moved still).elim

theorem run_follows {goal : String} (distinct : (plan.steps.map (·.id)).Nodup)
    {max_iterations : Nat} (enough : max 1 plan.steps.length ≤ max_iterations) :
    (run goal context plan max_iterations).Follows (Watched Seen.observe (Permitted plan))
      (RunEnds plan) {} := by
  refine follows_call ⟨rfl, rfl, trivial⟩ (fun _ _ raised => raised) fun _ => ?_
  refine passes_follows distinct (by omega) (by omega) {
    finals := rfl
    raised := rfl
    accepted := rfl
    executed := fun id inside => (List.not_mem_nil inside).elim
    known := fun id inside => (List.not_mem_nil inside).elim }

/-- The results so far are those of steps of the plan, each after the results it needs. -/
structure Sorted (plan : Plan) (s : Seen) : Prop where
  finished : Finished plan.DependsOn s.accepted.keys.reverse
  known : ∀ id ∈ s.accepted.keys, id ∈ plan.steps.map (·.id)

theorem Sorted.observe (distinct : (plan.steps.map (·.id)).Nodup) (sorted : Sorted plan s)
    (event : GoalIface.Event) (permitted : Permitted plan s event.1) :
    Sorted plan (s.observe event) := by
  obtain ⟨o, answer⟩ := event
  have same {s' : Seen} (accepted : s'.accepted = s.accepted) : Sorted plan s' :=
    ⟨accepted ▸ sorted.finished, accepted ▸ sorted.known⟩
  have called : (s.called o).accepted = s.accepted := by
    cases o with
    | emit event =>
        rw [Seen.called]
        split <;> rfl
    | step_executor => rfl
    | evaluate => rfl
  cases answer with
  | error e => exact same called
  | ok a =>
      cases o with
      | emit event => exact same called
      | step_executor step context => exact same called
      | evaluate step raw retries_done =>
          obtain ⟨_, _, ready⟩ := permitted
          by_cases decided : a.decision = .proceed
          · rw [Seen.observe_accepted decided]
            refine ⟨?_, fun id inside => ?_⟩
            · change Finished plan.DependsOn (s.accepted.set step.id raw).keys.reverse
              rw [OrderedMap.keys_set, if_neg ready.fresh, List.reverse_concat]
              refine .cons (mt List.mem_reverse.mp ready.fresh) ?_ sorted.finished
              rintro dep ⟨step', own, named, needs⟩
              obtain rfl := List.inj_on_of_nodup_map distinct own ready.own named
              exact List.mem_reverse.mpr (ready.dependencies dep needs)
            · rcases mem_keys_set.mp inside with rfl | earlier
              · exact List.mem_map_of_mem ready.own
              · exact sorted.known id earlier
          · rw [Seen.observe_rejected decided]
            exact sorted

/-- With a result for each step, the plan was executable. -/
theorem Sorted.executable (sorted : Sorted plan s)
    (all : ∀ step ∈ plan.steps, step.id ∈ s.accepted.keys) : plan.Executable := by
  refine ⟨fun step own dep needs => ?_, fun id cycle => ?_⟩
  · have inside := List.mem_reverse.mpr (all step own)
    have next := sorted.finished.successor inside ⟨step, own, rfl, needs⟩
    exact sorted.known dep (List.mem_reverse.mp next)
  · obtain ⟨_, ⟨step, own, named, _⟩, _⟩ := Relation.TransGen.head'_iff.mp cycle
    have inside : id ∈ s.accepted.keys.reverse := List.mem_reverse.mpr (named ▸ all step own)
    exact sorted.finished.irrefl inside cycle

/-- In an executable plan some step does not wait, as long as one has no result. -/
theorem Plan.Executable.all (executable : plan.Executable)
    (waits : ∀ step ∈ plan.steps, Waits results step) :
    ∀ step ∈ plan.steps, step.id ∈ results.keys := by
  have acyclic : IsAcyclic fun a b => plan.DependsOn b a :=
    fun id cycle => executable.2 id (Relation.transGen_swap.mp cycle)
  have known (a b : String) (needs : plan.DependsOn b a) : a ∈ plan.steps.map (·.id) := by
    obtain ⟨step, own, _, inside⟩ := needs
    exact executable.1 step own a inside
  have all : ∀ id ∈ plan.steps.map (·.id), id ∈ results.keys := by
    refine acyclic.induction known fun id inside earlier => ?_
    obtain ⟨step, own, rfl⟩ := List.mem_map.mp inside
    rcases waits step own with there | ⟨dep, needs, missing⟩
    · exact there
    · exact (missing (earlier dep ⟨step, own, rfl, needs⟩)).elim
  exact fun step own => all step.id (List.mem_map_of_mem own)

/-- The event that takes the number of final events from none to one is a final one. -/
theorem isFinal_of_finals {event : GoalIface.Event} (before : s.finals = 0)
    (after : (s.observe event).finals = 1) (raised : (s.observe event).raised = none) :
    ∃ last answer, event = ⟨.emit last, answer⟩ ∧ last.isFinal = true := by
  obtain ⟨o, e | a⟩ := event
  · cases raised
  cases o with
  | emit last =>
      refine ⟨last, .ok a, rfl, ?_⟩
      by_contra other
      change (s.called (.emit last)).finals = 1 at after
      rw [Seen.called, if_neg other, before] at after
      cases after
  | step_executor step context =>
      change s.finals = 1 at after
      omega
  | evaluate step raw retries_done =>
      by_cases decided : a.decision = .proceed
      · rw [Seen.observe_accepted decided] at after
        change s.finals = 1 at after
        omega
      · rw [Seen.observe_rejected decided] at after
        omega

/-- Only an answer that is an exception leaves one behind. -/
theorem raised_of_observe {event : GoalIface.Event} {e : Thrown} (before : s.raised = none)
    (after : (s.observe event).raised = some e) : ∃ o, event = ⟨o, .error e⟩ := by
  obtain ⟨o, e' | a⟩ := event
  · cases after
    exact ⟨o, rfl⟩
  cases o with
  | emit last =>
      change (s.called (.emit last)).raised = some e at after
      rw [Seen.called] at after
      split at after <;> cases before.symm.trans after
  | step_executor step context => cases before.symm.trans after
  | evaluate step raw retries_done =>
      by_cases decided : a.decision = .proceed
      · rw [Seen.observe_accepted decided] at after
        cases before.symm.trans after
      · rw [Seen.observe_rejected decided] at after
        cases before.symm.trans after

variable {goal : String} {max_iterations : Nat} {events : List GoalIface.Event}
  {p' : Prog GoalIface Outcome}

/-- Every run, whatever the executor and the evaluator answer, executes the steps in the order of
their needs. A run that returns has completed if the plan could be executed and each step that was
tried got its result, and it ends by its only final event; else an exception escapes from it. -/
theorem run_spec (distinct : (plan.steps.map (·.id)).Nodup)
    (enough : max 1 plan.steps.length ≤ max_iterations)
    (goes : (run goal context plan max_iterations).Goes events p') :
    InOrder events ∧ (∀ outcome, p' = .pure outcome → Returns plan events outcome) ∧
      ∀ e, p' = .throw e → Escapes events e := by
  have follows : (run goal context plan max_iterations).Follows
      (Watched Seen.observe (Permitted plan)) (RunEnds plan) {} := run_follows distinct enough
  have sorted : Sorted plan (seen events) :=
    follows.invariant (Sorted plan) (fun _ event sorted => sorted.observe distinct event)
      ⟨.nil, fun id inside => (List.not_mem_nil inside).elim⟩ goes
  have ends := follows.watched goes
  refine ⟨?_, ?_, ?_⟩
  · intro before after step context answer parts
    obtain ⟨_, _, ready, few⟩ := follows.keeps goes parts
    exact ⟨ready.dependencies, ready.fresh, few⟩
  · rintro outcome rfl
    have finals : (seen events).finals = 1 := ends.elim (·.finals) (·.1)
    have raised : (seen events).raised = none := ends.elim (·.raised) (·.2.1)
    refine { completed := ?_, results := ends.elim (·.results) (·.2.2.1), final := ?_ }
    · rcases ends with gave | ⟨_, _, _, held, ⟨done, all⟩ | ⟨failed, ⟨step, own, missing⟩, waits⟩⟩
      · obtain ⟨id, executed, missing⟩ := gave.without
        rw [gave.status]
        exact ⟨fun done => (by cases done), fun ⟨_, held⟩ => (missing (held id executed)).elim⟩
      · exact ⟨fun _ => ⟨sorted.executable all, held⟩, fun _ => done⟩
      · rw [failed]
        refine ⟨fun done => (by cases done), fun ⟨executable, _⟩ => ?_⟩
        exact (missing (executable.all waits step own)).elim
    · rcases List.eq_nil_or_concat' events with rfl | ⟨front, last, rfl⟩
      · cases finals
      obtain ⟨none, _⟩ := follows.keeps goes rfl
      rw [seen, List.foldl_concat] at finals raised
      obtain ⟨event, answer, rfl, final⟩ := isFinal_of_finals none finals raised
      exact ⟨front, event, answer, rfl, final, none⟩
  · rintro e rfl
    have raised : (seen events).raised = some e := ends
    rcases List.eq_nil_or_concat' events with rfl | ⟨front, last, rfl⟩
    · cases raised
    obtain ⟨none, clean, _⟩ := follows.keeps goes rfl
    rw [seen, List.foldl_concat] at raised
    obtain ⟨o, rfl⟩ := raised_of_observe clean raised
    exact ⟨front, o, rfl, none⟩

end

/-! ### An executor that raises -/

def onlyStep : Step where
  id := "step-1"
  description := ""
  agent_type := "analista"
  tool := "analysis.summarize"
  input_schema := []
  depends_on := []

def onePlan : Plan := ⟨"goal", [onlyStep]⟩

/-- A retry of the only step is accepted. -/
theorem onePlan_completes : ∃ events,
    (run "goal" .null onePlan 10).Goes events (.pure ⟨.completed, .set .empty "step-1" .null⟩) ∧
      EndsByEvent events := by
  have goes : (run "goal" .null onePlan 10).Goes [
      ⟨.emit (.started "goal"), .ok ()⟩,
      ⟨.emit (.stepPlanned "step-1" ""), .ok ()⟩,
      ⟨.step_executor onlyStep .null, .ok .null⟩,
      ⟨.emit (.stepExecuted "step-1" .null), .ok ()⟩,
      ⟨.evaluate onlyStep .null 0, .ok ⟨.ofNat 0, .retry, ""⟩⟩,
      ⟨.emit (.stepEvaluated "step-1" (.ofNat 0) .retry), .ok ()⟩,
      ⟨.step_executor onlyStep .null, .ok .null⟩,
      ⟨.evaluate onlyStep .null 1, .ok ⟨.ofNat 1, .proceed, ""⟩⟩,
      ⟨.emit (.stepEvaluated "step-1" (.ofNat 1) .proceed), .ok ()⟩,
      ⟨.emit (.completed "goal" 1), .ok ()⟩] (.pure ⟨.completed, .set .empty "step-1" .null⟩) :=
    .op (.op (.op (.op (.op (.op (.op (.op (.op (.op .stop)))))))))
  have distinct : (onePlan.steps.map (·.id)).Nodup := by decide
  exact ⟨_, goes, ((run_spec distinct (by decide) goes).2.1 _ rfl).final⟩

/-- The exception of an executor ends the run without a final event. -/
theorem raising_not_endsByEvent : ¬ ∀ events e,
    (run "goal" .null onePlan 10).Goes events (.throw e) → EndsByEvent events := by
  intro always
  have goes : (run "goal" .null onePlan 10).Goes [
      ⟨.emit (.started "goal"), .ok ()⟩,
      ⟨.emit (.stepPlanned "step-1" ""), .ok ()⟩,
      ⟨.step_executor onlyStep .null, .error (error "unavailable")⟩]
      (.throw (error "unavailable")) :=
    .op (.op (.op .stop))
  obtain ⟨front, event, answer, parts, _⟩ := always _ _ goes
  have last := (congrArg List.getLast? parts).trans List.getLast?_concat
  cases congrArg Sigma.fst (Option.some.inj last)

end GoalLoop
