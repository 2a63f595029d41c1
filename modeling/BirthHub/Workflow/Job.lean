import BirthHub.Workflow.Engine

/-!
# The stages of an execution job

`processExecutionJob` as a protocol: the stages a job goes through, the operations it
may await at each, and where an answer or a failure leads. `processExecutionJob_follows`
connects the stages to the program; what follows about interleavings of jobs is proved
of stages and carried over by `Effect.System.Run.invariant`.
-/

namespace Workflow

open Data Effect

inductive Stage
  /-- Before the execution row is read. -/
  | guard
  | guarded (execution : WorkflowExecution)
  /-- Ending the execution because there is nothing to run. -/
  | failing
  | preparing (c : JobContext)
  | prepared (c : JobContext)
  /-- In the `try`, up to the output. -/
  | trying (c : JobContext)
  | produced (c : JobContext) (output : Option Json)
  /-- The result is stored, the depth is not. -/
  | recorded (c : JobContext) (output : Option Json)
  | completing (c : JobContext)
  | enqueuing (c : JobContext) (remaining : List WorkflowStep)
  /-- In the `catch`, before the failure is stored. -/
  | catching (c : JobContext)
  | retrying (c : JobContext)
  | falling (c : JobContext) (remaining : List WorkflowStep)
  | finishing (c : JobContext)
  | returned
  | threw

namespace Stage

def progress : Stage → Outcome
  | .returned => .returned
  | .threw => .threw
  | _ => .running

/-- What the job has read, from the point where the step is known. -/
def context : Stage → Option JobContext
  | .preparing c | .prepared c | .trying c | .produced c _ | .recorded c _ | .completing c
  | .enqueuing c _ | .catching c | .retrying c | .falling c _ | .finishing c => some c
  | .guard | .guarded _ | .failing | .returned | .threw => none

/-- Where a failing operation leads: into the `catch`, or out of the job. -/
def onFault : Stage → Stage
  | .trying c | .produced c _ | .recorded c _ | .completing c | .enqueuing c _ => .catching c
  | _ => .threw

/-- The job waits for the queue to take the steps that remain. -/
def afterEnqueue (enqueuing : List WorkflowStep → Stage) : List WorkflowStep → Stage
  | [] => .returned
  | remaining => enqueuing remaining

theorem afterEnqueue_cases (enqueuing : List WorkflowStep → Stage)
    (remaining : List WorkflowStep) :
    (remaining = [] ∧ afterEnqueue enqueuing remaining = .returned) ∨
    (remaining ≠ [] ∧ afterEnqueue enqueuing remaining = enqueuing remaining) := by
  cases remaining <;> simp [afterEnqueue]

end Stage

/-- The targets of transitions that exist, in order. -/
def successors (workflow : Definition) (transitions : List WorkflowTransition) :
    List WorkflowStep :=
  transitions.filterMap fun transition =>
    workflow.steps.find? (·.id = transition.targetStepId)

section Protocol

variable (rt : Runtime) (p : WorkflowExecutionJobPayload)

/-- The job of a successor. -/
def successorJob (step : WorkflowStep) : WorkflowExecutionJobPayload :=
  { p with attempt := 1, stepKey := step.key }

/-- The job of the next attempt. -/
def retryJob : WorkflowExecutionJobPayload := { p with attempt := p.attempt + 1 }

/-- A row that the job stores for its step and attempt. -/
structure IsRow (c : JobContext) (row : StepResult) : Prop where
  executionId : row.executionId = p.executionId
  stepId : row.stepId = c.step.id
  attempt : row.attempt = p.attempt

/-- The operations a job may await at a stage. -/
def Stage.Awaits : Stage → RunnerOp → Prop
  | .guard, o => o = .findExecution p.executionId
  | .guarded _, o => o = .findWorkflow p.workflowId p.tenantId
  | .failing, o => o = .now ∨ ∃ t m, o = .updateExecution p.executionId
      { completedAt := some t, errorMessage := some m, status := some .FAILED }
  | .preparing _, o => o = .findStepResults p.executionId
  | .prepared _, o => o = .now
  | .trying c, o =>
      (0 < c.step.cacheTTLSeconds.getD 0 ∧
        (o = .now ∨ ∃ t, o = .findCacheCandidates p.workflowId c.step.id t)) ∨
      o = .findQuota p.tenantId ∨ (∃ id, o = .incrementQuota id) ∨
      ∃ step context, o = .executeStep step context
  | .produced c _, o =>
      ∃ row, o = .createStepResult row ∧ IsRow p c row ∧ row.status ≠ .FAILED
  | .recorded c _, o =>
      o = .updateExecution p.executionId { depth := some (c.execution.depth + 1) }
  | .completing _, o => o = .now ∨ ∃ t d, o = .updateExecution p.executionId
      { completedAt := some t, durationMs := some d, status := some .SUCCESS }
  | .enqueuing _ remaining, o | .falling _ remaining, o =>
      o = .now ∨ ∃ step rest options, remaining = step :: rest ∧
        o = .addJob (successorJob p step) options
  | .catching c, o => ∃ row, o = .createStepResult row ∧ IsRow p c row ∧ row.status = .FAILED
  | .retrying _, o => ∃ options, o = .addJob (retryJob p) options
  | .finishing _, o => o = .now ∨ ∃ t d m, o = .updateExecution p.executionId
      { completedAt := some t, durationMs := some d, errorMessage := some m,
        status := some .FAILED }
  | .returned, _ | .threw, _ => False

/-- Where the result of an operation leads. -/
inductive Stage.Next : Stage → (o : RunnerOp) → o.Result → Stage → Prop
  | missing {id : String} :
      Next .guard (.findExecution id) (none : Option WorkflowExecution) .returned
  | cancelled {id : String} {e : WorkflowExecution} (status : e.status = .CANCELLED) :
      Next .guard (.findExecution id) (some e) .returned
  | admitted {id : String} {e : WorkflowExecution} (status : e.status ≠ .CANCELLED) :
      Next .guard (.findExecution id) (some e) (.guarded e)
  | undefined {id tenantId : String} {e : WorkflowExecution} :
      Next (.guarded e) (.findWorkflow id tenantId) (none : Option Definition) .failing
  | exhausted {id tenantId : String} {e : WorkflowExecution} {w : Definition}
      (depth : maxDepth w ≤ e.depth) :
      Next (.guarded e) (.findWorkflow id tenantId) (some w) .failing
  | unknown {id tenantId : String} {e : WorkflowExecution} {w : Definition}
      (find : w.steps.find? (·.key = p.stepKey) = none) :
      Next (.guarded e) (.findWorkflow id tenantId) (some w) .failing
  | known {id tenantId : String} {e : WorkflowExecution} {w : Definition} {step : WorkflowStep}
      (depth : e.depth < maxDepth w) (find : w.steps.find? (·.key = p.stepKey) = some step) :
      Next (.guarded e) (.findWorkflow id tenantId) (some w) (.preparing ⟨e, w, step⟩)
  | failed {id : String} {data : ExecutionUpdate} {r : Unit} :
      Next .failing (.updateExecution id data) r .returned
  | unparsed {id : String} {c : JobContext} {rows : List (String × StepResult)} {e : Thrown}
      (parse : rt.parseStep (stepInput c.step) = .error e) :
      Next (.preparing c) (.findStepResults id) rows .threw
  | parsed {id : String} {c : JobContext} {rows : List (String × StepResult)} {json : Json}
      (parse : rt.parseStep (stepInput c.step) = .ok json) :
      Next (.preparing c) (.findStepResults id) rows (.prepared c)
  | begun {c : JobContext} {t : Int} : Next (.prepared c) .now t (.trying c)
  | clock {s : Stage} {t : Int} (unprepared : ∀ c, s ≠ .prepared c) : Next s .now t s
  | cacheHit {c : JobContext} {id stepId : String} {t : Int} {rows : List StepResult}
      {output : Option Json} :
      Next (.trying c) (.findCacheCandidates id stepId t) rows (.produced c output)
  | cacheMiss {c : JobContext} {id stepId : String} {t : Int} {rows : List StepResult} :
      Next (.trying c) (.findCacheCandidates id stepId t) rows (.trying c)
  | quotaReached {c : JobContext} {id : String} {q : Option QuotaUsage} :
      Next (.trying c) (.findQuota id) q (.catching c)
  | quotaLeft {c : JobContext} {id : String} {q : Option QuotaUsage} :
      Next (.trying c) (.findQuota id) q (.trying c)
  | charged {c : JobContext} {id : String} {r : Unit} :
      Next (.trying c) (.incrementQuota id) r (.trying c)
  | executed {c : JobContext} {step : Json} {context : RuntimeContext} {output : Option Json} :
      Next (.trying c) (.executeStep step context) output (.produced c output)
  | stored {c : JobContext} {output : Option Json} {row : StepResult} {r : Unit} :
      Next (.produced c output) (.createStepResult row) r (.recorded c output)
  | leaf {c : JobContext} {output : Option Json} {id : String} {data : ExecutionUpdate}
      {r : Unit} (none : nextTransitions c.workflow c.step output false = []) :
      Next (.recorded c output) (.updateExecution id data) r (.completing c)
  | routed {c : JobContext} {output : Option Json} {id : String} {data : ExecutionUpdate}
      {r : Unit} (some : nextTransitions c.workflow c.step output false ≠ []) :
      Next (.recorded c output) (.updateExecution id data) r
        (Stage.afterEnqueue (.enqueuing c)
          (successors c.workflow (nextTransitions c.workflow c.step output false)))
  | completed {c : JobContext} {id : String} {data : ExecutionUpdate} {r : Unit} :
      Next (.completing c) (.updateExecution id data) r .returned
  | enqueued {c : JobContext} {step : WorkflowStep} {rest : List WorkflowStep}
      {job : WorkflowExecutionJobPayload} {options : JobOptions} {r : Unit} :
      Next (.enqueuing c (step :: rest)) (.addJob job options) r
        (Stage.afterEnqueue (.enqueuing c) rest)
  | retry {c : JobContext} {row : StepResult} {r : Unit} (attempt : p.attempt < MAX_ATTEMPTS) :
      Next (.catching c) (.createStepResult row) r (.retrying c)
  | fallback {c : JobContext} {row : StepResult} {r : Unit}
      (attempt : MAX_ATTEMPTS ≤ p.attempt) (onError : c.step.onError = .CONTINUE) :
      Next (.catching c) (.createStepResult row) r
        (Stage.afterEnqueue (.falling c) (successors c.workflow
          (nextTransitions c.workflow c.step (some .null) true)))
  | finish {c : JobContext} {row : StepResult} {r : Unit}
      (attempt : MAX_ATTEMPTS ≤ p.attempt) :
      Next (.catching c) (.createStepResult row) r (.finishing c)
  | retried {c : JobContext} {job : WorkflowExecutionJobPayload} {options : JobOptions}
      {r : Unit} : Next (.retrying c) (.addJob job options) r .returned
  | fell {c : JobContext} {step : WorkflowStep} {rest : List WorkflowStep}
      {job : WorkflowExecutionJobPayload} {options : JobOptions} {r : Unit} :
      Next (.falling c (step :: rest)) (.addJob job options) r
        (Stage.afterEnqueue (.falling c) rest)
  | finished {c : JobContext} {id : String} {data : ExecutionUpdate} {r : Unit} :
      Next (.finishing c) (.updateExecution id data) r .returned

/-- One step of a job: a result leads on, a failure into the `catch` or out. -/
def Stage.Step (s : Stage) (o : RunnerOp) : RunnerIface.Answer o → Stage → Prop
  | .ok r, s' => s.Awaits p o ∧ s.Next rt p o r s'
  | .error _, s' => s.Awaits p o ∧ s' = s.onFault

def Stage.Ends : Except Thrown Unit → Stage → Prop
  | .ok _, s => s = .returned
  | .error _, s => s = .threw

theorem Stage.Step.awaits {rt : Runtime} {p : WorkflowExecutionJobPayload} {s s' : Stage}
    {o : RunnerOp} {answer : RunnerIface.Answer o} (step : s.Step rt p o answer s') :
    s.Awaits p o := by
  cases answer <;> exact step.1

theorem Stage.Step.running {rt : Runtime} {p : WorkflowExecutionJobPayload} {s s' : Stage}
    {o : RunnerOp} {answer : RunnerIface.Answer o} (step : s.Step rt p o answer s') :
    s.progress = .running := by
  have awaits := step.awaits
  cases s <;> first | rfl | exact awaits.elim

theorem Stage.Step.uncreated {rt : Runtime} {p : WorkflowExecutionJobPayload} {s s' : Stage}
    {o : RunnerOp} {answer : RunnerIface.Answer o} (step : s.Step rt p o answer s') :
    ∀ payload, o ≠ .createExecution payload := by
  rintro payload rfl
  have awaits := step.awaits
  cases s <;> simp [Stage.Awaits] at awaits

/-- A job updates its own execution, and ends when it writes the status. -/
theorem Stage.Step.of_update {rt : Runtime} {p : WorkflowExecutionJobPayload} {s s' : Stage}
    {id : String} {data : ExecutionUpdate}
    {answer : RunnerIface.Answer (.updateExecution id data)}
    (step : s.Step rt p (.updateExecution id data) answer s') :
    id = p.executionId ∧
      ((∃ depth, data = { depth := some depth }) ∨
        (∃ status, data.status = some status) ∧ ∀ r, answer = .ok r → s' = .returned) := by
  have awaits := step.awaits
  cases s with
  | recorded c output =>
      cases awaits
      exact ⟨rfl, .inl ⟨_, rfl⟩⟩
  | failing =>
      rcases awaits with awaits | ⟨t, m, awaits⟩ <;> cases awaits
      refine ⟨rfl, .inr ⟨⟨_, rfl⟩, ?_⟩⟩
      rintro r rfl
      cases step.2
      rfl
  | completing c =>
      rcases awaits with awaits | ⟨t, d, awaits⟩ <;> cases awaits
      refine ⟨rfl, .inr ⟨⟨_, rfl⟩, ?_⟩⟩
      rintro r rfl
      cases step.2
      rfl
  | finishing c =>
      rcases awaits with awaits | ⟨t, d, m, awaits⟩ <;> cases awaits
      refine ⟨rfl, .inr ⟨⟨_, rfl⟩, ?_⟩⟩
      rintro r rfl
      cases step.2
      rfl
  | _ => simp [Stage.Awaits] at awaits

/-! ## The program follows the protocol -/

variable {rt p} {α : Type} {Q : Except Thrown α → Stage → Prop} {s : Stage}

theorem follows_await_bind {o : RunnerOp} {f : o.Result → Prog RunnerIface α}
    (awaits : s.Awaits p o)
    (next : ∀ r, ∃ s', s.Next rt p o r s' ∧ (f r).Follows (Stage.Step rt p) Q s')
    (fault : ∀ e, Q (.error e) s.onFault) :
    (await o >>= f).Follows (Stage.Step rt p) Q s := by
  refine Prog.Follows.performBind (I := RunnerIface) (fun r => ?_) fun e => ?_
  · obtain ⟨s', leads, rest⟩ := next r
    exact ⟨s', ⟨awaits, leads⟩, rest⟩
  · exact ⟨s.onFault, ⟨awaits, rfl⟩, fault e⟩

theorem follows_await {o : RunnerOp} {Q : Except Thrown o.Result → Stage → Prop}
    (awaits : s.Awaits p o) (next : ∀ r, ∃ s', s.Next rt p o r s' ∧ Q (.ok r) s')
    (fault : ∀ e, Q (.error e) s.onFault) :
    (await o).Follows (Stage.Step rt p) Q s := by
  refine Prog.Follows.perform (I := RunnerIface) fun answer => ?_
  cases answer with
  | ok r =>
      obtain ⟨s', leads, exit⟩ := next r
      exact ⟨s', ⟨awaits, leads⟩, exit⟩
  | error e => exact ⟨s.onFault, ⟨awaits, rfl⟩, fault e⟩

theorem failExecution_follows {message : String} :
    (failExecution p.executionId message).Follows (Stage.Step rt p) Stage.Ends .failing := by
  refine follows_await_bind (.inl rfl) (fun t => ⟨.failing, .clock (by simp), ?_⟩)
    (fun _ => rfl)
  exact follows_await (.inr ⟨t, message, rfl⟩) (fun _ => ⟨.returned, .failed, rfl⟩)
    (fun _ => rfl)

/-- Enqueuing from either loop: `loop` is the stage of that loop. -/
theorem enqueueSuccessors_follows {w : Definition} {delay : Option Number}
    {Q : Except Thrown Unit → Stage → Prop} {loop : List WorkflowStep → Stage}
    (awaits : ∀ step rest o, (o = .now ∨ ∃ options, o = .addJob (successorJob p step) options) →
      (loop (step :: rest)).Awaits p o)
    (clock : ∀ remaining t, (loop remaining).Next rt p .now t (loop remaining))
    (added : ∀ step rest job options r,
      (loop (step :: rest)).Next rt p (.addJob job options) r (Stage.afterEnqueue loop rest))
    (exit : Q (.ok ()) .returned) (fault : ∀ remaining e, Q (.error e) (loop remaining).onFault) :
    ∀ transitions, (enqueueSuccessors p w delay transitions).Follows (Stage.Step rt p) Q
      (Stage.afterEnqueue loop (successors w transitions)) := by
  intro transitions
  induction transitions with
  | nil => exact exit
  | cons transition transitions ih =>
      cases found : w.steps.find? (·.id = transition.targetStepId) with
      | none =>
          simp only [enqueueSuccessors, successors, List.filterMap_cons, found]
          exact ih
      | some step =>
          simp only [enqueueSuccessors, successors, List.filterMap_cons, found]
          refine follows_await_bind (awaits _ _ _ (.inl rfl))
            (fun t => ⟨_, clock _ t, ?_⟩) (fault _)
          exact follows_await_bind (awaits _ _ _ (.inr ⟨_, rfl⟩))
            (fun r => ⟨_, added _ _ _ _ r, ih⟩) (fault _)

theorem finishFailed_follows {c : JobContext} {e : Thrown} :
    (finishFailed p c e).Follows (Stage.Step rt p) Stage.Ends (.finishing c) := by
  refine follows_await_bind (.inl rfl) (fun t => ⟨_, .clock (by simp), ?_⟩) (fun _ => rfl)
  refine follows_await_bind (.inl rfl) (fun d => ⟨_, .clock (by simp), ?_⟩) (fun _ => rfl)
  exact follows_await (.inr ⟨_, _, _, rfl⟩) (fun _ => ⟨_, .finished, rfl⟩) (fun _ => rfl)

theorem recoverStep_follows {c : JobContext} {hash : String} {now : Int} {e : Thrown} :
    (recoverStep p c hash now e).Follows (Stage.Step rt p) Stage.Ends (.catching c) := by
  have stores : (Stage.catching c).Awaits p (.createStepResult (failureResult p c.step hash now e)) :=
    ⟨_, rfl, ⟨rfl, rfl, rfl⟩, rfl⟩
  by_cases attempt : p.attempt < MAX_ATTEMPTS
  · refine follows_await_bind stores (fun r => ⟨.retrying c, .retry attempt, ?_⟩) (fun _ => rfl)
    simp only [attempt]
    exact follows_await ⟨_, rfl⟩ (fun _ => ⟨_, .retried, rfl⟩) (fun _ => rfl)
  · have last : MAX_ATTEMPTS ≤ p.attempt := Nat.le_of_not_lt attempt
    by_cases onError : c.step.onError = .CONTINUE
    · cases fallbacks : nextTransitions c.workflow c.step (some .null) true with
      | nil =>
          refine follows_await_bind stores (fun r => ⟨.finishing c, .finish last, ?_⟩)
            (fun _ => rfl)
          simp only [attempt, onError, fallbacks, if_true]
          exact finishFailed_follows
      | cons transition transitions =>
          refine follows_await_bind stores (fun r => ⟨_, .fallback last onError, ?_⟩)
            (fun _ => rfl)
          simp only [attempt, onError, fallbacks, if_true]
          exact enqueueSuccessors_follows
            (fun step rest o => by
              rintro (rfl | ⟨options, rfl⟩)
              · exact .inl rfl
              · exact .inr ⟨step, rest, options, rfl, rfl⟩)
            (fun _ _ => .clock (by simp)) (fun _ _ _ _ _ => .fell) rfl (fun _ _ => rfl) _
    · refine follows_await_bind stores (fun r => ⟨.finishing c, .finish last, ?_⟩) (fun _ => rfl)
      simp only [attempt, onError, if_false]
      exact finishFailed_follows

/-- The exit of the `try` body: it returns, or it throws into the `catch`. -/
def TryEnds {α : Type} (c : JobContext) (next : α → Stage → Prop) :
    Except Thrown α → Stage → Prop
  | .ok a, s => next a s
  | .error _, s => s = .catching c

theorem consumeSharedAgentBudget_follows {c : JobContext} :
    (consumeSharedAgentBudget p.tenantId).Follows (Stage.Step rt p)
      (TryEnds c fun _ s => s = .trying c) (.trying c) := by
  refine follows_await_bind (.inr (.inl rfl)) (fun record => ?_) (fun _ => rfl)
  cases record with
  | none => exact ⟨_, .quotaLeft, rfl⟩
  | some q =>
      by_cases reached : q.count ≥ q.limit
      · refine ⟨_, .quotaReached, ?_⟩
        simp only [reached]
        rfl
      · refine ⟨_, .quotaLeft, ?_⟩
        simp only [reached]
        exact follows_await (.inr (.inr (.inl ⟨_, rfl⟩))) (fun _ => ⟨_, .charged, rfl⟩)
          (fun _ => rfl)

theorem findCachedOutput_follows {c : JobContext} {hash : String} :
    (findCachedOutput p c.step hash).Follows (Stage.Step rt p)
      (TryEnds c fun cached s => match cached with
        | some output => s = .produced c (some output)
        | none => s = .trying c) (.trying c) := by
  simp only [findCachedOutput]
  split
  · rename_i caching
    refine follows_await_bind (.inl ⟨caching.1, .inl rfl⟩) (fun t => ⟨_, .clock (by simp), ?_⟩)
      (fun _ => rfl)
    refine follows_await_bind (.inl ⟨caching.1, .inr ⟨_, rfl⟩⟩) (fun rows => ?_) (fun _ => rfl)
    cases hit : rows.find? (isCacheHit hash) with
    | none => exact ⟨_, .cacheMiss, rfl⟩
    | some row => exact ⟨_, .cacheHit, rfl⟩
  · rfl

theorem obtainOutput_follows {c : JobContext} {parsedStep steps : Json} {hash : String} :
    (obtainOutput p c.step parsedStep steps hash).Follows (Stage.Step rt p)
      (TryEnds c fun output s => s = .produced c output) (.trying c) := by
  refine Prog.Follows.bind (Prog.Follows.mono (fun x s ends => ?_) findCachedOutput_follows)
  cases x with
  | error e => exact ends
  | ok cached =>
      cases cached with
      | some output => exact ends
      | none =>
          obtain rfl : s = .trying c := ends
          have executes : ∀ step context, (await (.executeStep step context)).Follows
              (Stage.Step rt p) (TryEnds c fun output s => s = .produced c output) (.trying c) :=
            fun step context => follows_await (.inr (.inr (.inr ⟨_, _, rfl⟩)))
              (fun output => ⟨_, .executed, rfl⟩) (fun _ => rfl)
          by_cases agent : c.step.type = .AGENT_EXECUTE
          · simp only [Prog.bindPost, agent]
            refine Prog.Follows.bind (Prog.Follows.mono (fun x s ends => ?_)
              consumeSharedAgentBudget_follows)
            cases x with
            | error e => exact ends
            | ok _ =>
                obtain rfl : s = .trying c := ends
                exact executes _ _
          · simp only [Prog.bindPost, agent]
            exact executes _ _

theorem advanceExecution_follows {c : JobContext} {output : Option Json} :
    (advanceExecution p c output).Follows (Stage.Step rt p)
      (TryEnds c fun _ s => s = .returned) (.recorded c output) := by
  cases selected : nextTransitions c.workflow c.step output false with
  | nil =>
      refine follows_await_bind rfl (fun _ => ⟨_, .leaf selected, ?_⟩) (fun _ => rfl)
      simp only [selected]
      refine follows_await_bind (.inl rfl) (fun t => ⟨_, .clock (by simp), ?_⟩) (fun _ => rfl)
      refine follows_await_bind (.inl rfl) (fun d => ⟨_, .clock (by simp), ?_⟩) (fun _ => rfl)
      exact follows_await (.inr ⟨_, _, rfl⟩) (fun _ => ⟨_, .completed, rfl⟩) (fun _ => rfl)
  | cons transition transitions =>
      refine follows_await_bind rfl (fun _ => ⟨_, .routed (by simp [selected]), ?_⟩) (fun _ => rfl)
      simp only [selected]
      exact enqueueSuccessors_follows
        (fun step rest o => by
          rintro (rfl | ⟨options, rfl⟩)
          · exact .inl rfl
          · exact .inr ⟨step, rest, options, rfl, rfl⟩)
        (fun _ _ => .clock (by simp)) (fun _ _ _ _ _ => .enqueued) rfl (fun _ _ => rfl) _

theorem attemptStep_follows {c : JobContext} {parsedStep steps : Json} {hash : String}
    {now : Int} :
    (attemptStep rt p c parsedStep steps hash now).Follows (Stage.Step rt p)
      (TryEnds c fun _ s => s = .returned) (.trying c) := by
  refine Prog.Follows.bind (Prog.Follows.mono (fun x s ends => ?_) obtainOutput_follows)
  cases x with
  | error e => exact ends
  | ok output =>
      obtain rfl : s = .produced c output := ends
      refine follows_await_bind ⟨_, rfl, ⟨rfl, rfl, rfl⟩, ?_⟩
        (fun _ => ⟨_, .stored, advanceExecution_follows⟩) (fun _ => rfl)
      simp only [outputResult]
      split <;> simp

theorem runStep_follows {c : JobContext} :
    (runStep rt p c).Follows (Stage.Step rt p) Stage.Ends (.preparing c) := by
  refine follows_await_bind rfl (fun rows => ?_) (fun _ => rfl)
  cases parse : rt.parseStep (stepInput c.step) with
  | error e => exact ⟨_, .unparsed parse, rfl⟩
  | ok parsedStep =>
      refine ⟨_, .parsed parse, ?_⟩
      refine follows_await_bind rfl (fun t => ⟨_, .begun, ?_⟩) (fun _ => rfl)
      refine Prog.Follows.tryCatch (Prog.Follows.mono (fun x s ends => ?_) attemptStep_follows)
      cases x with
      | ok _ => exact ends
      | error e =>
          obtain rfl : s = .catching c := ends
          exact recoverStep_follows

theorem processExecutionJob_follows :
    (processExecutionJob rt p).Follows (Stage.Step rt p) Stage.Ends .guard := by
  refine follows_await_bind rfl (fun execution => ?_) (fun _ => rfl)
  cases execution with
  | none => exact ⟨_, .missing, rfl⟩
  | some execution =>
      by_cases cancelled : execution.status = .CANCELLED
      · refine ⟨_, .cancelled cancelled, ?_⟩
        simp only [cancelled, if_true]
        rfl
      · refine ⟨_, .admitted cancelled, ?_⟩
        simp only [cancelled, if_false]
        refine follows_await_bind rfl (fun workflow => ?_) (fun _ => rfl)
        cases workflow with
        | none => exact ⟨_, .undefined, failExecution_follows⟩
        | some workflow =>
            by_cases depth : execution.depth ≥ maxDepth workflow
            · refine ⟨_, .exhausted depth, ?_⟩
              simp only [depth, if_true]
              exact failExecution_follows
            · cases find : workflow.steps.find? (·.key = p.stepKey) with
              | none =>
                  refine ⟨_, .unknown find, ?_⟩
                  simp only [depth, if_false, find]
                  exact failExecution_follows
              | some step =>
                  refine ⟨_, .known (not_le.mp depth) find, ?_⟩
                  simp only [depth, if_false, find]
                  exact runStep_follows

end Protocol

/-- The stages of the jobs of the engine. -/
def stages (rt : Runtime) : Discipline RunnerIface Delivery Unit where
  Stage := Stage
  start _ := .guard
  step delivery := Stage.Step rt delivery.payload
  ends _ := Stage.Ends
  progress := Stage.progress
  progress_step step := Stage.Step.running step
  progress_returned ends := by rw [show _ = Stage.returned from ends]; rfl
  progress_threw ends := by rw [show _ = Stage.threw from ends]; rfl

theorem engine_follows (rt : Runtime) (delivery : Delivery) :
    ((engine rt).program delivery).Follows ((stages rt).step delivery)
      ((stages rt).ends delivery) ((stages rt).start delivery) :=
  processExecutionJob_follows

end Workflow
