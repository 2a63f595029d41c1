import BirthHub.Agents.Protocol
import BirthHub.Effect.Traces

/-!
# The ceilings of an execution

The plan executor has a ceiling for the steps of a plan, one for its cost and one for its time.
`Tally` is what the events of a run show of the plan: the calls that were started and completed,
the start of the execution and the last reading of the clock. The rule `InCeilings` says when the
executor may start a call, or start it again; `execute` keeps to it whatever the tools answer, and
whatever the clock shows.
-/

namespace Agents

open Data Effect

/-- What a run has done with its plan. A call that was started and did not complete is the last
one that was started, and the next attempt is at the same call. -/
structure Tally where
  started : List PlannedToolCall := []
  completed : List PlannedToolCall := []
  startedAt : Option Int := none
  /-- The clock, if it was read by the last operation. -/
  reading : Option Int := none

def Tally.observe (tally : Tally) : AgentIface.Event → Tally
  | ⟨.runTool _ call _ _, answer⟩ => {
      started := if tally.started.length = tally.completed.length then tally.started ++ [call]
        else tally.started
      completed := match answer with
        | .ok _ => tally.completed ++ [call]
        | .error _ => tally.completed
      startedAt := tally.startedAt
      reading := none }
  | ⟨.now, .ok now⟩ =>
      { tally with startedAt := tally.startedAt.or (some now), reading := some (now : Int) }
  | _ => { tally with reading := none }

/-- What the events of a run show. -/
def tallyOf (events : List AgentIface.Event) : Tally := events.foldl Tally.observe {}

/-- The cost of some calls. -/
def PlanExecutorOptions.cost (options : PlanExecutorOptions) (calls : List PlannedToolCall) : ℚ :=
  (calls.map options.estimateToolCost).sum

/-- The clock was read just now, and the time of the execution has not elapsed. -/
def Tally.InTime (tally : Tally) (options : PlanExecutorOptions) : Prop :=
  ∀ executionTimeoutMs, options.executionTimeoutMs = some executionTimeoutMs →
    ∃ startedAt now, tally.startedAt = some startedAt ∧ tally.reading = some now ∧
      now - startedAt < executionTimeoutMs

/-- The executor may start a call of a tool. -/
structure InCeilings (options : PlanExecutorOptions) (plan : List PlannedToolCall) (tally : Tally)
    (call : PlannedToolCall) : Prop where
  next : tally.completed ++ [call] <+: plan
  size : ∀ maxPlanSteps, options.maxPlanSteps = some maxPlanSteps → plan.length ≤ maxPlanSteps
  budget : ∀ maxCostBrl, options.maxCostBrl = some maxCostBrl →
    options.cost (tally.completed ++ [call]) ≤ maxCostBrl
  inTime : tally.InTime options

/-- The rule of the executor. -/
def Permits (options : PlanExecutorOptions) (plan : List PlannedToolCall) (tally : Tally) :
    AgentOp → Prop
  | .runTool _ call _ _ => InCeilings options plan tally call
  | _ => True

/-! ## Parts that call no tool -/

def AgentOp.CallsNoTool : AgentOp → Prop
  | .runTool .. => False
  | _ => True

/-- Hooks that call no tools of the executor. -/
structure Hooks.CallNoTools (hooks : Hooks) : Prop where
  onPlanBuilt : ∀ calls, (hooks.onPlanBuilt calls).Within AgentOp.CallsNoTool
  onStepCompleted :
    ∀ step index total, (hooks.onStepCompleted step index total).Within AgentOp.CallsNoTool
  onExecutionCompleted : ∀ result, (hooks.onExecutionCompleted result).Within AgentOp.CallsNoTool

theorem callsNoTool_of_neutral {o : AgentOp} (neutral : o.IsNeutral) : o.CallsNoTool := by
  cases o with
  | runTool => exact neutral.elim
  | _ => trivial

theorem Hooks.IsNeutral.callNoTools {hooks : Hooks} (neutral : hooks.IsNeutral) :
    hooks.CallNoTools where
  onPlanBuilt calls := (neutral.onPlanBuilt calls).mono fun _ => callsNoTool_of_neutral
  onStepCompleted step index total :=
    (neutral.onStepCompleted step index total).mono fun _ => callsNoTool_of_neutral
  onExecutionCompleted result :=
    (neutral.onExecutionCompleted result).mono fun _ => callsNoTool_of_neutral

/-- A run is at a point of its plan. -/
structure Tally.At (started completed : List PlannedToolCall) (startedAt : Int) (tally : Tally) :
    Prop where
  started : tally.started = started
  completed : tally.completed = completed
  startedAt : tally.startedAt = some startedAt

section

variable {α β : Type} {options : PlanExecutorOptions} {plan started completed : List PlannedToolCall}
  {startedAt : Int} {tally : Tally} {Q : Except Thrown α → Tally → Prop}

theorem Tally.At.observe {o : AgentOp} (here : tally.At started completed startedAt)
    (quiet : o.CallsNoTool) (answer : AgentIface.Answer o) :
    (tally.observe ⟨o, answer⟩).At started completed startedAt := by
  obtain ⟨hstarted, hcompleted, hstartedAt⟩ := here
  cases o with
  | runTool => exact quiet.elim
  | now =>
      cases answer with
      | ok now => exact ⟨hstarted, hcompleted, by rw [Tally.observe, hstartedAt]; rfl⟩
      | error e => exact ⟨hstarted, hcompleted, hstartedAt⟩
  | _ => exact ⟨hstarted, hcompleted, hstartedAt⟩

theorem permits_of_quiet {o : AgentOp} (quiet : o.CallsNoTool) : Permits options plan tally o := by
  cases o with
  | runTool => exact quiet.elim
  | _ => trivial

theorem follows_noTool {p : Prog AgentIface α} (within : p.Within AgentOp.CallsNoTool)
    (here : tally.At started completed startedAt) :
    p.Follows (Watched Tally.observe (Permits options plan))
      (fun _ tally' => tally'.At started completed startedAt) tally := by
  induction p generalizing tally with
  | pure a => exact here
  | throw e => exact here
  | op o k ih =>
      exact fun r => ⟨_, ⟨permits_of_quiet within.1, rfl⟩, ih r (within.2 r) (here.observe within.1 r)⟩

/-- A part that calls no tool, and then the rest at the same point of the plan. -/
theorem follows_noTool_bind {p : Prog AgentIface α} {f : α → Prog AgentIface β}
    {Q : Except Thrown β → Tally → Prop} (within : p.Within AgentOp.CallsNoTool)
    (here : tally.At started completed startedAt)
    (throws : ∀ e tally', tally'.At started completed startedAt → Q (.error e) tally')
    (rest : ∀ a tally', tally'.At started completed startedAt →
      (f a).Follows (Watched Tally.observe (Permits options plan)) Q tally') :
    (p >>= f).Follows (Watched Tally.observe (Permits options plan)) Q tally := by
  refine Prog.Follows.bind (Prog.Follows.mono (fun x tally' exit => ?_) (follows_noTool within here))
  cases x with
  | ok a => exact rest a tally' exit
  | error e => exact throws e tally' exit

end



/-! ## The calls of a plan -/

section

variable {options : PlanExecutorOptions} {hooks : Hooks} {request : AgentExecutionRequest}
  {plan started done : List PlannedToolCall} {startedAt : Int} {tally : Tally}
  {running : RunningCall} {call : PlannedToolCall}

/-- The time limit of a call is read off the clock when time is left. -/
theorem resolveToolTimeout_inTime {tool : Tool} (here : tally.At started done startedAt) :
    (options.resolveToolTimeout tool startedAt).Follows (Watched Tally.observe (Permits options plan))
      (fun x tally' => tally'.At started done startedAt ∧
        ∀ timeoutMs, x = .ok timeoutMs → tally'.InTime options) tally := by
  unfold PlanExecutorOptions.resolveToolTimeout
  cases limit : options.executionTimeoutMs with
  | none =>
      refine ⟨here, fun _ _ executionTimeoutMs known => ?_⟩
      rw [limit] at known
      cases known
  | some executionTimeoutMs =>
      refine Prog.Follows.performBind (fun now => ⟨_, ⟨trivial, rfl⟩, ?_⟩) fun e =>
        ⟨_, ⟨trivial, rfl⟩, Tally.At.observe here (by trivial) _, fun _ ok => (by cases ok)⟩
      have there : (tally.observe ⟨.now, .ok now⟩).At started done startedAt :=
        Tally.At.observe here (by trivial) _
      dsimp only
      split
      · exact ⟨there, fun _ ok => (by cases ok)⟩
      · rename_i left
        refine ⟨there, fun _ _ executionTimeoutMs' known => ?_⟩
        obtain rfl := Option.some.inj (limit.symm.trans known)
        refine ⟨startedAt, now, there.startedAt, rfl, ?_⟩
        omega

/-- The state of a call that may have been started. -/
def IsOpen (done : List PlannedToolCall) (call : PlannedToolCall)
    (started : List PlannedToolCall) : Prop :=
  started = done ∨ started = done ++ [call]

theorem Tally.At.runTool {request : AgentExecutionRequest} {cost : ℚ} {timeoutMs : Option Int}
    (here : tally.At started done startedAt) (isOpen : IsOpen done call started)
    (answer : Except Thrown Json) :
    (tally.observe ⟨.runTool request call cost timeoutMs, answer⟩).At (done ++ [call])
      (match answer with
        | .ok _ => done ++ [call]
        | .error _ => done) startedAt := by
  obtain ⟨hstarted, hcompleted, hstartedAt⟩ := here
  refine ⟨?_, ?_, hstartedAt⟩
  · simp only [Tally.observe, hstarted, hcompleted]
    rcases isOpen with rfl | rfl
    · rw [if_pos rfl]
    · rw [if_neg (by simp)]
  · simp only [Tally.observe, hcompleted]
    cases answer <;> rfl

/-- What may be done next if the clock says that time is left. -/
structure Ready (options : PlanExecutorOptions) (plan done : List PlannedToolCall)
    (call : PlannedToolCall) : Prop where
  next : done ++ [call] <+: plan
  size : ∀ maxPlanSteps, options.maxPlanSteps = some maxPlanSteps → plan.length ≤ maxPlanSteps
  budget : ∀ maxCostBrl, options.maxCostBrl = some maxCostBrl →
    options.cost (done ++ [call]) ≤ maxCostBrl

/-- Where an attempt at a call ends. -/
def attemptTally (done : List PlannedToolCall) (call : PlannedToolCall) (startedAt : Int) :
    Except Thrown (Except Thrown Json) → Tally → Prop
  | .ok (.ok _), tally => tally.At (done ++ [call]) (done ++ [call]) startedAt
  | .ok (.error _), tally => ∃ started, IsOpen done call started ∧ tally.At started done startedAt
  | .error _, _ => False

theorem attemptCall_watched (ready : Ready options plan done running.call)
    (isOpen : IsOpen done running.call started)
    (here : tally.At started done running.executionStartedAtMs) :
    (attemptCall options running).Follows (Watched Tally.observe (Permits options plan))
      (attemptTally done running.call running.executionStartedAtMs) tally := by
  refine Prog.Follows.tryCatch (Prog.Follows.bind ?_)
  refine Prog.Follows.mono (fun x tally' exit => ?_) (resolveToolTimeout_inTime here)
  obtain ⟨there, inTime⟩ := exit
  cases x with
  | error e => exact ⟨started, isOpen, there⟩
  | ok timeoutMs =>
      have permitted : InCeilings options plan tally' running.call := by
        obtain ⟨next, size, budget⟩ := ready
        exact ⟨there.completed ▸ next, size, there.completed ▸ budget, inTime timeoutMs rfl⟩
      refine Prog.Follows.performBind (fun output => ?_) fun e => ?_
      · exact ⟨_, ⟨permitted, rfl⟩, there.runTool isOpen (.ok output)⟩
      · exact ⟨_, ⟨permitted, rfl⟩, _, .inr rfl, there.runTool isOpen (.error e)⟩

/-- Where the attempts at a call end. -/
def retryTally (done : List PlannedToolCall) (call : PlannedToolCall) (startedAt : Int) :
    Except Thrown Json → Tally → Prop
  | .ok _, tally => tally.At (done ++ [call]) (done ++ [call]) startedAt
  | .error _, _ => True

theorem executeWithRetry_watched (ready : Ready options plan done running.call)
    (isOpen : IsOpen done running.call started)
    (here : tally.At started done running.executionStartedAtMs) (left attempt : Nat)
    (lastError : Option Thrown) :
    (executeWithRetry options running left attempt lastError).Follows
      (Watched Tally.observe (Permits options plan))
      (retryTally done running.call running.executionStartedAtMs) tally := by
  induction left generalizing started tally attempt lastError with
  | zero =>
      rw [executeWithRetry]
      trivial
  | succ left ih =>
      rw [executeWithRetry]
      refine follows_noTool_bind (assertExecutionDeadline_neutral.mono fun _ => callsNoTool_of_neutral)
        here (fun _ _ _ => trivial) fun _ tally here => ?_
      refine follows_noTool_bind (assertCircuitOpen_neutral.mono fun _ => callsNoTool_of_neutral)
        here (fun _ _ _ => trivial) fun _ tally here => ?_
      refine Prog.Follows.bind (Prog.Follows.mono (fun x tally' exit => ?_)
        (attemptCall_watched ready isOpen here))
      rcases x with e | output | output
      · exact exit.elim
      · obtain ⟨started', isOpen', here'⟩ := exit
        dsimp only [Prog.bindPost]
        split
        · trivial
        split
        · rename_i last
          subst last
          exact ih isOpen' here' _ _
        · exact follows_noTool_bind (Prog.Within.perform trivial) here' (fun _ _ _ => trivial)
            fun _ tally'' here'' => ih isOpen' here'' _ _
      · exact exit

/-- The variables of the loop after some calls. -/
structure PlanProgress.After (progress : PlanProgress) (options : PlanExecutorOptions)
    (done : List PlannedToolCall) : Prop where
  calls : progress.steps.map PlanExecutionStep.call = done
  costs : (progress.steps.map PlanExecutionStep.estimatedCostBrl).sum = options.cost done
  total : progress.estimatedCostBrlTotal = options.cost done

theorem cost_cents {calls : List PlannedToolCall} : IsCents (options.cost calls) := by
  induction calls with
  | nil => exact .zero
  | cons call calls ih =>
      rw [PlanExecutorOptions.cost, List.map_cons, List.sum_cons]
      exact estimateToolCost_cents.add ih

theorem cost_snoc {calls : List PlannedToolCall} :
    options.cost (calls ++ [call]) = options.cost calls + options.estimateToolCost call := by
  simp [PlanExecutorOptions.cost]

theorem PlanProgress.After.budget {progress : PlanProgress} {maxCostBrl : ℚ}
    (after : progress.After options done)
    (budgeted : options.assertExecutionBudget (options.estimateToolCost call)
      progress.estimatedCostBrlTotal = .ok ()) (limit : options.maxCostBrl = some maxCostBrl) :
    options.cost (done ++ [call]) ≤ maxCostBrl := by
  unfold PlanExecutorOptions.assertExecutionBudget at budgeted
  rw [limit] at budgeted
  dsimp only at budgeted
  split at budgeted
  · cases budgeted
  · rename_i within
    rw [after.total] at within
    rw [cost_snoc]
    exact not_lt.mp within

/-- The total is rounded after each call, which changes no sum of whole centavos. -/
theorem PlanProgress.After.step {progress : PlanProgress} {step : PlanExecutionStep}
    {context : OrderedMap String Json} {nodes : List TraceNode} {breakers : CircuitBreakers}
    (after : progress.After options done) (own : step.call = call)
    (cost : step.estimatedCostBrl = options.estimateToolCost call) :
    PlanProgress.After {
      steps := progress.steps ++ [step]
      recursiveContext := context
      estimatedCostBrlTotal :=
        roundCurrency (progress.estimatedCostBrlTotal + options.estimateToolCost call)
      traceNodes := nodes
      breakers } options (done ++ [call]) where
  calls := by rw [List.map_append, after.calls, List.map_singleton, own]
  costs := by
    rw [List.map_append, List.sum_append, after.costs, List.map_singleton, List.sum_singleton, cost,
      cost_snoc]
  total := by
    have whole : IsCents (progress.estimatedCostBrlTotal + options.estimateToolCost call) :=
      (after.total ▸ cost_cents).add estimateToolCost_cents
    rw [whole.roundCurrency, after.total, cost_snoc]

/-- Where the body of the loop ends. -/
def callTally (options : PlanExecutorOptions) (done : List PlannedToolCall) (startedAt : Int) :
    Except Thrown PlanProgress → Tally → Prop
  | .ok progress, tally => progress.After options done ∧ tally.At done done startedAt
  | .error _, _ => True

theorem runCall_watched {total index : Nat} {progress : PlanProgress} (noTools : hooks.CallNoTools)
    (next : done ++ [call] <+: plan)
    (size : ∀ maxPlanSteps, options.maxPlanSteps = some maxPlanSteps → plan.length ≤ maxPlanSteps)
    (after : progress.After options done) (here : tally.At done done startedAt) :
    (runCall options hooks request startedAt total index call progress).Follows
      (Watched Tally.observe (Permits options plan)) (callTally options (done ++ [call]) startedAt)
      tally := by
  refine follows_noTool_bind (assertExecutionDeadline_neutral.mono fun _ => callsNoTool_of_neutral)
    here (fun _ _ _ => trivial) fun _ tally here => ?_
  split
  · trivial
  rename_i tool registered
  dsimp only
  refine Prog.Follows.bind (Prog.Follows.ofExcept (fun _ budgeted => ?_) fun _ _ => trivial)
  have ready : Ready options plan done call :=
    ⟨next, size, fun maxCostBrl limit => after.budget budgeted limit⟩
  refine follows_noTool_bind (Prog.Within.perform trivial) here (fun _ _ _ => trivial)
    fun began tally here => ?_
  refine Prog.Follows.bind (Prog.Follows.mono (fun x tally' exit => ?_)
    (executeWithRetry_watched ready (.inl rfl) here options.retryAttempts 0 none))
  cases x with
  | error e => trivial
  | ok output =>
      refine follows_noTool_bind (Prog.Within.perform trivial) exit (fun _ _ _ => trivial)
        fun finished tally here => ?_
      refine follows_noTool_bind (noTools.onStepCompleted _ _ _) here (fun _ _ _ => trivial)
        fun _ tally here => ?_
      exact ⟨after.step rfl rfl, here⟩

/-- The loop over the calls that are left. -/
theorem runCalls_watched {total : Nat} (noTools : hooks.CallNoTools)
    (size : ∀ maxPlanSteps, options.maxPlanSteps = some maxPlanSteps → plan.length ≤ maxPlanSteps)
    (calls : List PlannedToolCall) (whole : done ++ calls = plan) (index : Nat)
    (progress : PlanProgress) (after : progress.After options done)
    (here : tally.At done done startedAt) :
    (runCalls options hooks request startedAt total index calls progress).Follows
      (Watched Tally.observe (Permits options plan)) (callTally options plan startedAt) tally := by
  induction calls generalizing done index progress tally with
  | nil =>
      rw [List.append_nil] at whole
      subst whole
      exact ⟨after, here⟩
  | cons call calls ih =>
      have next : done ++ [call] <+: plan := ⟨calls, by rw [← whole, List.append_assoc]; rfl⟩
      refine Prog.Follows.bind (Prog.Follows.mono (fun x tally' exit => ?_)
        (runCall_watched noTools next size after here))
      cases x with
      | error e => trivial
      | ok progress' =>
          have whole' : done ++ [call] ++ calls = plan := by rw [← whole, List.append_assoc]; rfl
          exact ih whole' (index + 1) progress' exit.1 exit.2

/-- What the result of an execution says. -/
def IsFaithful (plan : List PlannedToolCall)
    (result : PlanExecutionResult) : Prop :=
  result.steps.map PlanExecutionStep.call = plan ∧
    result.estimatedCostBrlTotal = (result.steps.map PlanExecutionStep.estimatedCostBrl).sum

/-- Where an execution ends. -/
def resultTally (plan : List PlannedToolCall) :
    Except Thrown PlanExecutionResult → Tally → Prop
  | .ok result, _ => result.cached = false → IsFaithful plan result
  | .error _, _ => True

theorem planSize {maxPlanSteps : Nat} (sized : options.assertPlanSize plan = .ok ())
    (limit : options.maxPlanSteps = some maxPlanSteps) : plan.length ≤ maxPlanSteps := by
  unfold PlanExecutorOptions.assertPlanSize at sized
  rw [limit] at sized
  dsimp only at sized
  split at sized
  · cases sized
  · rename_i within
    exact not_lt.mp within

theorem executePlan_watched {breakers : CircuitBreakers} (noTools : hooks.CallNoTools)
    (here : tally.At [] [] startedAt) :
    (executePlan options hooks breakers request startedAt).Follows
      (Watched Tally.observe (Permits options (request.toolCalls.getD (buildPlan request))))
      (resultTally (request.toolCalls.getD (buildPlan request))) tally := by
  refine Prog.Follows.bind (Prog.Follows.ofExcept (fun _ sized => ?_) fun _ _ => trivial)
  refine follows_noTool_bind (noTools.onPlanBuilt _) here (fun _ _ _ => trivial) fun _ tally here => ?_
  refine Prog.Follows.bind (Prog.Follows.mono (fun x tally' exit => ?_)
    (runCalls_watched noTools (fun _ limit => planSize sized limit) _ rfl 0 _ ⟨rfl, rfl, rfl⟩ here))
  cases x with
  | error e => trivial
  | ok progress =>
      obtain ⟨after, there⟩ := exit
      refine follows_noTool_bind (Prog.Within.perform trivial) there (fun _ _ _ => trivial)
        fun _ tally here => ?_
      refine follows_noTool_bind (noTools.onExecutionCompleted _) here (fun _ _ _ => trivial)
        fun _ tally here _ => ?_
      exact ⟨after.calls, after.total.trans after.costs.symm⟩

/-- **The executor keeps to its rule**, whatever the tools, the clock and the stores answer. -/
theorem execute_watched {breakers : CircuitBreakers} (noTools : hooks.CallNoTools) :
    (execute options hooks breakers request).Follows
      (Watched Tally.observe (Permits options (request.toolCalls.getD (buildPlan request))))
      (resultTally (request.toolCalls.getD (buildPlan request))) {} := by
  refine Prog.Follows.performBind (fun cachedResult => ⟨_, ⟨trivial, rfl⟩, ?_⟩)
    fun e => ⟨_, ⟨trivial, rfl⟩, trivial⟩
  cases cachedResult with
  | some result => exact fun live => (by cases live)
  | none =>
      refine Prog.Follows.performBind (fun locked => ⟨_, ⟨trivial, rfl⟩, ?_⟩)
        fun e => ⟨_, ⟨trivial, rfl⟩, trivial⟩
      cases locked with
      | false => exact trivial
      | true =>
          refine Prog.Follows.performBind (fun startedAt => ⟨_, ⟨trivial, rfl⟩, ?_⟩)
            fun e => ⟨_, ⟨trivial, rfl⟩, trivial⟩
          refine Prog.Follows.finallyDo (Prog.Follows.mono (fun x tally exit => ?_)
            (executePlan_watched noTools ⟨rfl, rfl, rfl⟩))
          refine Prog.Follows.perform fun answer => ⟨_, ⟨trivial, rfl⟩, ?_⟩
          cases answer with
          | ok _ => cases x <;> exact exit
          | error e => trivial

end

/-! ## Every run -/

section

variable {options : PlanExecutorOptions} {hooks : Hooks} {request : AgentExecutionRequest}
  {breakers : CircuitBreakers} {plan : List PlannedToolCall}

/-- What a run of the plan executor is to keep to. Before every operation that starts a call, or
starts it again, the clock has shown that time is left. -/
structure KeepsCeilings (options : PlanExecutorOptions) (plan : List PlannedToolCall)
    (events : List AgentIface.Event) (left : Prog AgentIface PlanExecutionResult) : Prop where
  order : (tallyOf events).completed <+: plan
  budget : ∀ maxCostBrl, options.maxCostBrl = some maxCostBrl → (tallyOf events).started ≠ [] →
    options.cost (tallyOf events).started ≤ maxCostBrl
  size : ∀ maxPlanSteps, options.maxPlanSteps = some maxPlanSteps → maxPlanSteps < plan.length →
    (tallyOf events).started = []
  inTime : ∀ before request call cost timeoutMs answer after,
    events = before ++ ⟨.runTool request call cost timeoutMs, answer⟩ :: after →
    (tallyOf before).InTime options
  result : ∀ result, left = .pure result → result.cached = false → IsFaithful plan result

/-- What a start of a call preserves. -/
structure Tally.Within (tally : Tally) (options : PlanExecutorOptions)
    (plan : List PlannedToolCall) : Prop where
  isOpen : ∃ call, IsOpen tally.completed call tally.started
  started : tally.started <+: plan
  budget : ∀ maxCostBrl, options.maxCostBrl = some maxCostBrl → tally.started ≠ [] →
    options.cost tally.started ≤ maxCostBrl
  size : ∀ maxPlanSteps, options.maxPlanSteps = some maxPlanSteps → maxPlanSteps < plan.length →
    tally.started = []

theorem Tally.Within.observe {tally : Tally} {event : AgentIface.Event}
    (within : tally.Within options plan) (permitted : Permits options plan tally event.1) :
    (tally.observe event).Within options plan := by
  obtain ⟨o, answer⟩ := event
  obtain ⟨⟨last, isOpen⟩, started, budget, size⟩ := within
  cases o with
  | runTool request call cost timeoutMs =>
      obtain ⟨next, fits, affordable, _⟩ := permitted
      -- the call that was started before, if any, is the next one of the plan as well
      have again : (tally.observe ⟨.runTool request call cost timeoutMs, answer⟩).started =
          tally.completed ++ [call] := by
        rcases isOpen with same | same
        · simp [Tally.observe, same]
        · have longer : tally.started = tally.completed ++ [call] := by
            rw [same] at started ⊢
            exact List.IsPrefix.eq_of_length (List.prefix_of_prefix_length_le started next (by simp))
              (by simp)
          simp [Tally.observe, longer]
      refine ⟨⟨call, ?_⟩, again ▸ next, fun maxCostBrl limit _ => again ▸ affordable maxCostBrl limit,
        fun maxPlanSteps limit long => ?_⟩
      · rw [again, IsOpen]
        cases answer with
        | ok output => exact .inl rfl
        | error e => exact .inr rfl
      · exact absurd (fits maxPlanSteps limit) (not_le.mpr long)
  | now =>
      cases answer with
      | ok now => exact ⟨⟨last, isOpen⟩, started, budget, size⟩
      | error e => exact ⟨⟨last, isOpen⟩, started, budget, size⟩
  | _ => exact ⟨⟨last, isOpen⟩, started, budget, size⟩

/-- **Plan execution stays within its ceilings** in every run: the calls that complete are a prefix
of the plan, the cost of the calls that are started does not exceed the ceiling, no call is started
in a plan that is too long or when the time has elapsed, and the result counts one step for each
call of the plan and the sum of their costs. -/
theorem execute_keepsCeilings (options : PlanExecutorOptions) (breakers : CircuitBreakers)
    (request : AgentExecutionRequest) (noTools : hooks.CallNoTools) (events : List AgentIface.Event)
    (left : Prog AgentIface PlanExecutionResult)
    (run : (execute options hooks breakers request).Goes events left) :
    KeepsCeilings options (request.toolCalls.getD (buildPlan request)) events left := by
  have follows : (execute options hooks breakers request).Follows _ _ ({} : Tally) :=
    execute_watched noTools
  have within : (tallyOf events).Within options (request.toolCalls.getD (buildPlan request)) := by
    refine follows.invariant (Tally.Within · options (request.toolCalls.getD (buildPlan request)))
      (fun tally event within permitted => within.observe permitted) ?_ run
    refine ⟨⟨⟨"", .null⟩, .inl rfl⟩, List.nil_prefix, ?_, fun _ _ _ => rfl⟩
    exact fun _ _ given => (given rfl).elim
  have completed : (tallyOf events).completed <+: (tallyOf events).started := by
    obtain ⟨call, same | same⟩ := within.isOpen
    · rw [same]
    · rw [same]
      exact List.prefix_append _ _
  refine ⟨completed.trans within.started, within.budget, within.size, ?_, ?_⟩
  · intro before request call cost timeoutMs answer after parts
    exact (follows.keeps run parts).inTime
  · rintro result rfl live
    exact follows.watched run live

/-- All the ceilings, and a tool. -/
def ceilingsOptions : PlanExecutorOptions where
  executionTimeoutMs := some 1000
  maxCostBrl := some 1
  maxPlanSteps := some 2
  toolCostEstimator _ := some 1
  tools := [("http", ⟨some 100⟩)]

/-- A request whose plan calls the tool once. -/
def oneCallRequest : AgentExecutionRequest where
  executionId := "execution"
  agentId := "agent"
  tenantId := "tenant"
  input := []
  toolCalls := some [⟨"http", .null⟩]

/-- A run that comes to the call. -/
def oneCallEvents : List AgentIface.Event :=
  [⟨.redis (.getResult oneCallRequest), .ok none⟩, ⟨.redis (.setLock "execution"), .ok true⟩,
    ⟨.now, .ok (0 : Int)⟩, ⟨.persistLogs "execution", .ok ()⟩, ⟨.now, .ok (1 : Int)⟩,
    ⟨.now, .ok (2 : Int)⟩, ⟨.now, .ok (3 : Int)⟩, ⟨.now, .ok (4 : Int)⟩,
    ⟨.runTool oneCallRequest ⟨"http", .null⟩ 1 (some 100), .ok .null⟩]

theorem oneCall_goes : ∃ left,
    (execute ceilingsOptions (persistingHooks "execution") (fun _ => {}) oneCallRequest).Goes
      oneCallEvents left := by
  have cost : ceilingsOptions.estimateToolCost ⟨"http", .null⟩ = 1 := by
    norm_num [PlanExecutorOptions.estimateToolCost, ceilingsOptions, roundCurrency, mathRound]
  have found : ceilingsOptions.tools.lookup "http" = some ⟨some 100⟩ := rfl
  have affordable : ceilingsOptions.assertExecutionBudget 1 0 = .ok () := by
    norm_num [PlanExecutorOptions.assertExecutionBudget, ceilingsOptions]
  apply Exists.intro
  iterate 5 apply Prog.Goes.op
  simp only [found, cost, affordable, Prog.ofExcept]
  apply Prog.Goes.op
  have retries : ceilingsOptions.retryAttempts = 4 + 1 := rfl
  rw [retries]
  unfold executeWithRetry
  iterate 3 apply Prog.Goes.op
  exact .stop

/-- The hooks of the runtime, and a run that comes to the call. -/
theorem oneCall_keepsCeilings :
    ∃ left, KeepsCeilings ceilingsOptions [⟨"http", .null⟩] oneCallEvents left := by
  obtain ⟨left, run⟩ := oneCall_goes
  exact ⟨left, execute_keepsCeilings ceilingsOptions (fun _ => {}) oneCallRequest
    persistingHooks_neutral.callNoTools oneCallEvents left run⟩

end

end Agents
