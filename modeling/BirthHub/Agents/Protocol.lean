import BirthHub.Agents.Stages

/-!
# Tasks follow the stages

The programs of `serveTask`, from the plan executor up, make only the moves of `Stage.Move`.
The plan executor adds up costs in whole centavos, so that rounding its total changes
nothing and the total is what the calls that ran cost.
-/

namespace Agents

open Data Effect

/-! ## Centavos -/

/-- A whole number of centavos. -/
def IsCents (q : ℚ) : Prop := ∃ n : Int, q = n / 100

theorem IsCents.zero : IsCents 0 := ⟨0, by norm_num⟩

theorem IsCents.add {p q : ℚ} (first : IsCents p) (second : IsCents q) : IsCents (p + q) := by
  obtain ⟨m, rfl⟩ := first
  obtain ⟨n, rfl⟩ := second
  exact ⟨m + n, by push_cast; ring⟩

theorem roundCurrency_cents {q : ℚ} : IsCents (roundCurrency q) := ⟨mathRound (q * 100), rfl⟩

theorem IsCents.roundCurrency {q : ℚ} (whole : IsCents q) : roundCurrency q = q := by
  obtain ⟨n, rfl⟩ := whole
  have rounds : mathRound ((n : ℚ) / 100 * 100) = n := by
    rw [mathRound, Int.floor_eq_iff]
    constructor <;> linarith
  rw [Agents.roundCurrency, rounds]

theorem estimateToolCost_cents {options : PlanExecutorOptions} {call : PlannedToolCall} :
    IsCents (options.estimateToolCost call) := by
  unfold PlanExecutorOptions.estimateToolCost
  cases options.toolCostEstimator call with
  | none => exact .zero
  | some estimated =>
      dsimp only
      split
      · exact .zero
      · exact roundCurrency_cents

/-! ## The plan executor -/

section Executor

variable {tag : AgentTask} {options : PlanExecutorOptions} {hooks : Hooks}
  {request : AgentExecutionRequest} {ran : ℚ} {startedAt : Int}

/-- Hooks that execute nothing. -/
structure Hooks.IsNeutral (hooks : Hooks) : Prop where
  onPlanBuilt : ∀ calls, (hooks.onPlanBuilt calls).Within AgentOp.IsNeutral
  onStepCompleted : ∀ step index total, (hooks.onStepCompleted step index total).Within AgentOp.IsNeutral
  onExecutionCompleted : ∀ result, (hooks.onExecutionCompleted result).Within AgentOp.IsNeutral

theorem assertExecutionDeadline_neutral :
    (options.assertExecutionDeadline startedAt).Within AgentOp.IsNeutral := by
  unfold PlanExecutorOptions.assertExecutionDeadline
  split
  · trivial
  · refine within_await_bind trivial fun now => ?_
    split <;> trivial

theorem resolveToolTimeout_neutral {tool : Tool} :
    (options.resolveToolTimeout tool startedAt).Within AgentOp.IsNeutral := by
  unfold PlanExecutorOptions.resolveToolTimeout
  split
  · trivial
  · refine within_await_bind trivial fun now => ?_
    dsimp only
    split <;> trivial

theorem assertCircuitOpen_neutral {toolName : String} {current : CircuitBreakerState} :
    (assertCircuitOpen toolName current).Within AgentOp.IsNeutral := by
  refine Prog.Within.bind ?_ fun state => ?_
  · unfold getCircuitBreakerState
    split
    · trivial
    · exact within_await_bind trivial fun now => trivial
  · split
    · trivial
    · refine within_await_bind trivial fun now => ?_
      split <;> trivial

/-- Where an attempt at a call ends. -/
def attemptExit (running : RunningCall) (ran : ℚ) :
    Except Thrown (Except Thrown Json) → Stage → Prop
  | .ok (.ok _), s => s = .locked running.request (ran + running.estimatedCostBrl)
  | .ok (.error _), s => s = .locked running.request ran
  | .error _, _ => False

theorem attemptCall_follows {running : RunningCall} :
    (attemptCall options running).Follows (Stage.Move tag) (attemptExit running ran)
      (.locked running.request ran) := by
  refine Prog.Follows.tryCatch ?_
  refine follows_neutral_bind resolveToolTimeout_neutral (fun _ => rfl) fun timeoutMs => ?_
  exact follows_await (fun _ => .toolFails) (fun _ => rfl) fun output => ⟨_, .tool, rfl⟩

/-- Where a call ends. -/
def callExit (running : RunningCall) (ran : ℚ) : Except Thrown Json → Stage → Prop
  | .ok _, s => s = .locked running.request (ran + running.estimatedCostBrl)
  | .error _, s => s = .locked running.request ran

theorem executeWithRetry_follows {running : RunningCall} (left attempt : Nat)
    (lastError : Option Thrown) :
    (executeWithRetry options running left attempt lastError).Follows (Stage.Move tag)
      (callExit running ran) (.locked running.request ran) := by
  induction left generalizing attempt lastError with
  | zero =>
      rw [executeWithRetry]
      exact rfl
  | succ left ih =>
      rw [executeWithRetry]
      refine follows_neutral_bind assertExecutionDeadline_neutral (fun _ => rfl) fun _ => ?_
      refine follows_neutral_bind assertCircuitOpen_neutral (fun _ => rfl) fun _ => ?_
      refine Prog.Follows.bind (Prog.Follows.mono (fun x s' exit => ?_) attemptCall_follows)
      rcases x with e | output | e
      · exact exit.elim
      · dsimp only [Prog.bindPost]
        rw [show s' = _ from exit]
        split
        · exact rfl
        split
        · rename_i last
          subst last
          exact ih _ _
        · exact follows_await_neutral trivial (fun _ => rfl) fun _ => ih _ _
      · exact exit

/-- Where the loop over the calls is after some of them. -/
def callsExit (request : AgentExecutionRequest) : Except Thrown PlanProgress → Stage → Prop
  | .ok progress, s =>
      IsCents progress.estimatedCostBrlTotal ∧ s = .locked request progress.estimatedCostBrlTotal
  | .error _, s => ∃ ran, s = .locked request ran

theorem runCall_follows {total index : Nat} {call : PlannedToolCall} {progress : PlanProgress}
    (neutral : hooks.IsNeutral) (whole : IsCents progress.estimatedCostBrlTotal) :
    (runCall options hooks request startedAt total index call progress).Follows (Stage.Move tag)
      (callsExit request) (.locked request progress.estimatedCostBrlTotal) := by
  refine follows_neutral_bind assertExecutionDeadline_neutral (fun _ => ⟨_, rfl⟩) fun _ => ?_
  split
  · exact ⟨_, rfl⟩
  rename_i tool _
  dsimp only
  refine Prog.Follows.bind (follows_ofExcept (fun _ _ => ?_) fun _ => ⟨_, rfl⟩)
  refine follows_await_neutral trivial (fun _ => ⟨_, rfl⟩) fun started => ?_
  refine Prog.Follows.bind (Prog.Follows.mono (fun x s' exit => ?_)
    (executeWithRetry_follows options.retryAttempts 0 none))
  cases x with
  | error e => exact ⟨_, exit⟩
  | ok output =>
      rw [show s' = _ from exit]
      have sum := whole.add (@estimateToolCost_cents options call)
      refine follows_await_neutral trivial (fun _ => ⟨_, rfl⟩) fun finished => ?_
      refine follows_neutral_bind (neutral.onStepCompleted _ _ _) (fun _ => ⟨_, rfl⟩) fun _ => ?_
      exact ⟨roundCurrency_cents, by rw [sum.roundCurrency]⟩

theorem runCalls_follows {total : Nat} (neutral : hooks.IsNeutral) (calls : List PlannedToolCall)
    (index : Nat) (progress : PlanProgress) (whole : IsCents progress.estimatedCostBrlTotal) :
    (runCalls options hooks request startedAt total index calls progress).Follows (Stage.Move tag)
      (callsExit request) (.locked request progress.estimatedCostBrlTotal) := by
  induction calls generalizing index progress with
  | nil => exact ⟨whole, rfl⟩
  | cons call calls ih =>
      refine Prog.Follows.bind (Prog.Follows.mono (fun x s' exit => ?_)
        (runCall_follows neutral whole))
      cases x with
      | error e => exact exit
      | ok progress' => exact exit.2 ▸ ih (index + 1) progress' exit.1

/-- Where a plan is when the lock is to be released. -/
def planExit (request : AgentExecutionRequest) : Except Thrown PlanExecutionResult → Stage → Prop
  | .ok result, s => s = .stored request result
  | .error _, s => (∃ ran, s = .locked request ran) ∨ (∃ ran, s = .releasing request ran) ∨
      ∃ result, s = .stored request result

theorem executePlan_follows {breakers : CircuitBreakers} (neutral : hooks.IsNeutral) :
    (executePlan options hooks breakers request startedAt).Follows (Stage.Move tag)
      (planExit request) (.locked request 0) := by
  refine Prog.Follows.bind (follows_ofExcept (fun _ _ => ?_) fun _ => .inl ⟨_, rfl⟩)
  refine follows_neutral_bind (neutral.onPlanBuilt _) (fun _ => .inl ⟨_, rfl⟩) fun _ => ?_
  refine Prog.Follows.bind (Prog.Follows.mono (fun x s' exit => ?_)
    (runCalls_follows neutral _ 0 _ .zero))
  cases x with
  | error e => exact .inl exit
  | ok progress =>
      rw [show s' = _ from exit.2]
      refine follows_await (fun _ => .unstored ⟨rfl, rfl, rfl, rfl⟩)
        (fun _ => .inr (.inl ⟨_, rfl⟩)) fun _ => ⟨_, .store ⟨rfl, rfl, rfl, rfl⟩, ?_⟩
      exact follows_neutral_bind (neutral.onExecutionCompleted _)
        (fun _ => .inr (.inr ⟨_, rfl⟩)) fun _ => rfl

/-- Where an execution ends. -/
def executeExit (request : AgentExecutionRequest) :
    Except Thrown PlanExecutionResult → Stage → Prop
  | .ok result, s => ∃ ran, s = .owing request result ran
  | .error _, s => ∃ ran, s = .failed ran

theorem release_follows {x : Except Thrown PlanExecutionResult} {s : Stage}
    (exit : planExit request x s) :
    Prog.finallyPost (Stage.Move tag) (executeExit request)
      (await (.redis (.delLock request.executionId))) x s := by
  refine Prog.Follows.perform fun answer => ?_
  cases x with
  | ok result =>
      rw [show s = _ from exit]
      cases answer with
      | ok _ => exact ⟨_, .release, _, rfl⟩
      | error e => exact ⟨_, .unreleased, _, rfl⟩
  | error e =>
      rcases exit with ⟨ran, rfl⟩ | ⟨ran, rfl⟩ | ⟨result, rfl⟩
      · cases answer <;> exact ⟨_, .giveUp, _, rfl⟩
      · cases answer <;> exact ⟨_, .giveUpStored, _, rfl⟩
      · cases answer with
        | ok _ => exact ⟨_, .forget, _, rfl⟩
        | error e => exact ⟨_, .unreleased, _, rfl⟩

theorem execute_follows {breakers : CircuitBreakers} (neutral : hooks.IsNeutral) :
    (execute options hooks breakers request).Follows (Stage.Move tag) (executeExit request)
      .idle := by
  refine follows_await (fun _ => .unread) (fun _ => ⟨_, rfl⟩) fun cachedResult => ?_
  cases cachedResult with
  | some result => exact ⟨_, .hit, _, rfl⟩
  | none =>
      refine ⟨_, .miss, ?_⟩
      refine follows_await (fun _ => .refused (by simp)) (fun _ => ⟨_, rfl⟩) fun locked => ?_
      cases locked with
      | false => exact ⟨_, .refused fun same => Bool.false_ne_true (Except.ok.inj same), _, rfl⟩
      | true =>
          refine ⟨_, .lock, ?_⟩
          refine follows_await (fun _ => .abandon) (fun _ => ⟨_, rfl⟩) fun startedAt =>
            ⟨_, .stay trivial, ?_⟩
          exact Prog.Follows.finallyDo (Prog.Follows.mono (fun _ _ exit => release_follows exit)
            (executePlan_follows neutral))

end Executor

/-! ## Consumptions -/

section Consumptions

variable {α : Type} {tag : AgentTask} {ran : ℚ} {c : Consumption} {tx : Nat}

/-- Where the body of the transaction of a consumption ends. -/
def bodyExit (c : Consumption) (tx : Nat) (ran : ℚ) : Except Thrown α → Stage → Prop
  | .ok _, s => (∃ row, s = .recorded c tx ran row) ∨ s = .closing c tx ∧ c.executionId = none
  | .error _, s => s = .aborting c tx ran

/-- Where a consumption ends. -/
def consumptionExit (c : Consumption) (ran : ℚ) : Except Thrown α → Stage → Prop
  | .ok _, s => s = .done ∧ c.executionId = none ∨ ∃ tx, s = .charged c tx ran
  | .error _, s => s.MayThrow

theorem transaction_follows {body : Nat → Prog AgentIface α} {s : Stage}
    (begins : ∀ tx, Stage.Move tag s (.budget (.begin c)) (.ok tx) (.begun c tx ran))
    (fails : ∀ e, ∃ s', Stage.Move tag s (.budget (.begin c)) (.error e) s' ∧ s'.MayThrow)
    (follows : ∀ tx, (body tx).Follows (Stage.Move tag) (bodyExit c tx ran) (.begun c tx ran)) :
    (transaction c body).Follows (Stage.Move tag) (consumptionExit c ran) s := by
  refine Prog.Follows.performBind (fun tx => ⟨_, begins tx, ?_⟩) fails
  refine Prog.Follows.bind (Prog.Follows.tryCatch (Prog.Follows.mono (fun x s' exit => ?_)
    (follows tx)))
  cases x with
  | ok result =>
      rcases exit with ⟨row, rfl⟩ | ⟨rfl, api⟩
      · exact follows_await (fun _ => .uncommitted) (fun _ => trivial) fun _ =>
          ⟨_, .commit, .inr ⟨tx, rfl⟩⟩
      · exact follows_await (fun _ => .close) (fun _ => trivial) fun _ => ⟨_, .close, .inl ⟨rfl, api⟩⟩
  | error e =>
      rw [show s' = _ from exit]
      refine Prog.Follows.bind (Prog.Follows.tryCatch (Prog.Follows.perform fun answer => ?_))
      cases answer with
      | ok _ => exact ⟨_, .abort, trivial⟩
      | error e => exact ⟨_, .abort, trivial⟩

theorem chargeExecution_follows {input : WorkerCharge} {request : AgentExecutionRequest}
    {result : PlanExecutionResult} (cost : input.costBrl = result.estimatedCostBrlTotal)
    (execution : input.executionId = request.executionId) :
    (chargeExecution input).Follows (Stage.Move tag) (consumptionExit (.worker input) ran)
      (.owing request result ran) := by
  refine transaction_follows (fun tx => .beginCharge cost execution)
    (fun e => ⟨_, .unbegunCharge, trivial⟩) fun tx => ?_
  refine follows_await (fun _ => .unseen rfl rfl) (fun _ => rfl) fun budget => ⟨_, .read rfl rfl, ?_⟩
  refine follows_await (fun _ => .unwritten rfl trivial) (fun _ => rfl) fun updated =>
    ⟨_, .write rfl trivial, ?_⟩
  refine follows_await (fun _ => .unrecorded ⟨rfl, rfl, rfl, rfl⟩) (fun _ => rfl) fun _ =>
    ⟨_, .record ⟨rfl, rfl, rfl, rfl⟩, ?_⟩
  cases nextAlertLevel budget (roundCurrency (budget.consumedBrl + input.costBrl)) with
  | none => exact .inl ⟨_, rfl⟩
  | some level =>
      have alert : BudgetOp.IsAlertOf tx (.createBudgetEvent (some tx) (input.event level.kind)) :=
        ⟨rfl, by cases level <;> exact nofun⟩
      exact follows_await (fun _ => .unalerted alert) (fun _ => rfl) fun _ =>
        ⟨_, .alert alert, .inl ⟨_, rfl⟩⟩

theorem consumeBudget_follows {input : ApiCharge} :
    (consumeBudget input).Follows (Stage.Move (.consume input)) (consumptionExit (.api input) 0)
      .idle := by
  refine transaction_follows (fun tx => .beginConsume)
    (fun e => ⟨_, .unbegunConsume, trivial⟩) fun tx => ?_
  refine follows_await (fun _ => .unseen rfl rfl) (fun _ => rfl) fun record => ⟨_, .read rfl rfl, ?_⟩
  split
  · have alert : BudgetOp.IsAlertOf tx (.createBudgetEvent (some tx) (input.event .DRY_RUN)) :=
      ⟨rfl, nofun⟩
    exact follows_await (fun _ => .block alert) (fun _ => rfl) fun _ => ⟨_, .dry alert, .inr ⟨rfl, rfl⟩⟩
  dsimp only
  split
  · have update : BudgetOp.IsAlertOf tx (.updateBudget (some tx) record.id {
        lastAlertLevel := some (some .BLOCK_100) }) := ⟨rfl, rfl⟩
    have event : BudgetOp.IsAlertOf tx (.createBudgetEvent (some tx) { input.event .BLOCK_100 with
        costBrl := input.costBRL }) := ⟨rfl, nofun⟩
    refine follows_await (fun _ => .block update) (fun _ => rfl) fun _ => ⟨_, .block update, ?_⟩
    exact follows_await (fun _ => .blocked event) (fun _ => rfl) fun _ => ⟨_, .blocked event, rfl⟩
  rename_i within
  have accepts : Consumption.Accepts record (.api input) := not_lt.mp within
  refine follows_await (fun _ => .unwritten rfl accepts) (fun _ => rfl) fun updated =>
    ⟨_, .write rfl accepts, ?_⟩
  refine follows_await (fun _ => .unrecorded ⟨rfl, rfl, rfl, rfl⟩) (fun _ => rfl) fun _ =>
    ⟨_, .record ⟨rfl, rfl, rfl, rfl⟩, ?_⟩
  split
  · have update (level : AlertLevel) : BudgetOp.IsAlertOf tx (.updateBudget (some tx) updated.id {
        lastAlertLevel := some (some level) }) := ⟨rfl, rfl⟩
    have event (level : AlertLevel) : BudgetOp.IsAlertOf tx
        (.createBudgetEvent (some tx) (input.event level.kind)) :=
      ⟨rfl, by cases level <;> exact nofun⟩
    refine follows_await (fun _ => .unalerted (update _)) (fun _ => rfl) fun _ =>
      ⟨_, .alert (update _), ?_⟩
    exact follows_await (fun _ => .unalerted (event _)) (fun _ => rfl) fun _ =>
      ⟨_, .alert (event _), .inl ⟨_, rfl⟩⟩
  · exact .inl ⟨_, rfl⟩

end Consumptions

/-! ## Runs and tasks -/

section Tasks

variable {α : Type} {tag : AgentTask} {deployment : Deployment}

/-- Where a run ends. -/
def runExit : Except Thrown α → Stage → Prop
  | .ok _, s => s = .idle ∨ ∃ c tx ran, s = .charged c tx ran
  | .error _, s => s.MayThrow

theorem persistingHooks_neutral {executionId : String} : (persistingHooks executionId).IsNeutral where
  onPlanBuilt _ := Prog.Within.perform trivial
  onStepCompleted _ _ _ := Prog.Within.perform trivial
  onExecutionCompleted _ := trivial

theorem executeManifestAgentRuntime_follows {config : WorkerConfig} {catalog : List CatalogManifest}
    {input : RuntimeExecutionInput} :
    (executeManifestAgentRuntime config catalog input).Follows (Stage.Move tag) runExit .idle := by
  refine follows_neutral_bind (neutral_of_plain prepare_plain) (fun _ => trivial) fun run => ?_
  refine follows_neutral_bind (neutral_of_plain ensureBudgetHeadroom_plain) (fun _ => trivial)
    fun _ => ?_
  refine follows_await_neutral trivial (fun _ => trivial) fun _ => ?_
  refine Prog.Follows.bind (Prog.Follows.mono (fun x s exit => ?_)
    (execute_follows persistingHooks_neutral))
  cases x with
  | error e =>
      obtain ⟨ran, rfl⟩ := exit
      exact trivial
  | ok execution =>
      obtain ⟨ran, rfl⟩ := exit
      refine Prog.Follows.bind (Prog.Follows.mono (fun x s exit => ?_)
        (@chargeExecution_follows _ _ (input.charge run execution.estimatedCostBrlTotal) _ _ rfl
          rfl))
      cases x with
      | error e => exact exit
      | ok budget =>
          obtain ⟨_, api⟩ | ⟨tx, rfl⟩ := exit
          · cases api
          · exact Prog.Follows.mono (fun x s exit => by
              cases x with
              | ok result => exact .inr ⟨_, tx, ran, exit⟩
              | error e => exact exit ▸ trivial)
              (follows_neutral (neutral_of_plain publish_plain))

/-- What is done about a failed run executes nothing. -/
theorem recover_follows {p : Prog AgentIface α} {h : Thrown → Prog AgentIface α}
    (follows : p.Follows (Stage.Move tag) runExit .idle)
    (recovers : ∀ e s, s.MayThrow → (h e).Follows (Stage.Move tag) runExit s) :
    (p.tryCatch h).Follows (Stage.Move tag) runExit .idle := by
  refine Prog.Follows.tryCatch (Prog.Follows.mono (fun x s exit => ?_) follows)
  cases x with
  | ok a => exact exit
  | error e => exact recovers e s exit

/-- After a run that returned, something may be done that executes nothing. -/
theorem runExit_bind {β : Type} {p : Prog AgentIface α} {f : α → Prog AgentIface β}
    (follows : p.Follows (Stage.Move tag) runExit .idle)
    (rest : ∀ a, (f a).Within AgentOp.IsNeutral) :
    (p >>= f).Follows (Stage.Move tag) runExit .idle := by
  refine Prog.Follows.bind (Prog.Follows.mono (fun x s exit => ?_) follows)
  cases x with
  | error e => exact exit
  | ok a =>
      refine Prog.Follows.mono (fun y s' same => ?_) (follows_neutral (rest a))
      rw [show s' = s from same]
      cases y with
      | ok b => exact exit
      | error e =>
          rcases exit with rfl | ⟨c, tx, ran, rfl⟩
          · exact trivial
          · exact trivial

theorem runWorkflowAgent_follows {call : WorkflowAgentCall} :
    (runWorkflowAgent deployment call).Follows (Stage.Move tag) runExit .idle := by
  refine Prog.Follows.bind (follows_ofExcept (fun tenantId _ => ?_) fun _ => trivial)
  refine follows_await_neutral trivial (fun _ => trivial) fun organization => ?_
  refine follows_await_neutral trivial (fun _ => trivial) fun now => ?_
  refine follows_await_neutral trivial (fun _ => trivial) fun _ => ?_
  refine recover_follows ?_ fun e s throws => ?_
  · exact runExit_bind executeManifestAgentRuntime_follows fun result =>
      within_await_bind trivial fun _ => trivial
  · exact follows_await_neutral trivial (fun _ => throws) fun _ => throws

theorem fanOut_neutral {payload : ExecutionPayload} {status : ExecutionStatus} :
    (payload.fanOut status).Within AgentOp.IsNeutral := by
  unfold ExecutionPayload.fanOut
  split
  · trivial
  · exact Prog.Within.perform trivial

theorem resolveBillingLock_neutral {config : WorkerConfig} {tenantReference : String} :
    (resolveBillingLock config tenantReference).Within AgentOp.IsNeutral := by
  refine within_await_bind trivial fun cached => ?_
  cases cached with
  | some status => trivial
  | none =>
      refine within_await_bind trivial fun subscription => ?_
      refine within_await_bind trivial fun now => ?_
      exact within_await_bind trivial fun _ => trivial

theorem readJob_neutral {job : Job} : (readJob deployment job).Within AgentOp.IsNeutral := by
  cases job with
  | task jobId data =>
      refine Prog.Within.bind Prog.Within.ofExcept fun payload => ?_
      refine within_await_bind trivial fun organization => ?_
      refine Prog.Within.bind ?_ fun tenantSecret => ?_
      · cases organization with
        | none => trivial
        | some organization => exact Prog.Within.perform trivial
      refine within_await_bind trivial fun now => ?_
      exact Prog.Within.bind Prog.Within.ofExcept fun tenantId => trivial
  | agent data =>
      exact Prog.Within.ite trivial (within_await_bind trivial fun organization => trivial)

/-- Programs that execute nothing end where they began. -/
theorem runExit_of_neutral {p : Prog AgentIface α} (within : p.Within AgentOp.IsNeutral) :
    p.Follows (Stage.Move tag) runExit .idle := by
  refine Prog.Follows.mono (fun x s same => ?_) (follows_neutral within)
  rw [show s = .idle from same]
  cases x with
  | ok a => exact .inl rfl
  | error e => exact trivial

theorem run_follows {payload : ExecutionPayload} :
    (payload.run deployment).Follows (Stage.Move tag) runExit .idle := by
  refine follows_neutral_bind resolveBillingLock_neutral (fun _ => trivial) fun billing => ?_
  split
  · refine runExit_of_neutral (within_await_bind trivial fun _ => ?_)
    exact Prog.Within.bind fanOut_neutral fun _ => trivial
  split
  · exact runExit_of_neutral (within_await_bind trivial fun _ => trivial)
  split
  · exact runExit_of_neutral (within_await_bind trivial fun _ => trivial)
  · refine runExit_bind executeManifestAgentRuntime_follows fun result => ?_
    refine within_await_bind trivial fun _ => ?_
    exact Prog.Within.bind fanOut_neutral fun _ => trivial

theorem processJob_follows {job : Job} :
    (processJob deployment job).Follows (Stage.Move tag) runExit .idle := by
  refine follows_neutral_bind readJob_neutral (fun _ => trivial) fun payload => ?_
  refine follows_await_neutral trivial (fun _ => trivial) fun _ => ?_
  refine recover_follows run_follows fun e s throws => ?_
  refine follows_await_neutral trivial (fun _ => throws) fun _ => ?_
  exact follows_neutral_bind fanOut_neutral (fun _ => throws) fun _ => throws

theorem noHooks_neutral : ({} : Hooks).IsNeutral where
  onPlanBuilt _ := trivial
  onStepCompleted _ _ _ := trivial
  onExecutionCompleted _ := trivial

theorem serveTask_follows (tag : AgentTask) :
    (serveTask deployment tag).Follows (Stage.Move tag) (Ends tag) .idle := by
  cases tag with
  | execute request breakers =>
      refine Prog.Follows.bind (Prog.Follows.mono (fun x s exit => ?_)
        (execute_follows noHooks_neutral))
      cases x with
      | ok result =>
          obtain ⟨ran, rfl⟩ := exit
          exact ⟨result, ran, rfl, rfl⟩
      | error e =>
          obtain ⟨ran, rfl⟩ := exit
          exact trivial
  | step config context =>
      refine Prog.Follows.bind (Prog.Follows.mono (fun x s exit => ?_) runWorkflowAgent_follows)
      cases x <;> exact exit
  | job job =>
      refine Prog.Follows.bind (Prog.Follows.mono (fun x s exit => ?_) processJob_follows)
      cases x <;> exact exit
  | consume input =>
      refine Prog.Follows.bind (Prog.Follows.mono (fun x s exit => ?_) consumeBudget_follows)
      cases x with
      | ok record =>
          rcases exit with ⟨rfl, _⟩ | ⟨tx, rfl⟩
          · exact .inl rfl
          · exact .inr ⟨_, tx, 0, rfl⟩
      | error e => exact exit

/-- The stages of the tasks of the system. -/
def taskStages (deployment : Deployment) : Discipline AgentIface AgentTask AgentResponse :=
  movesDiscipline (agentSystem deployment) (fun _ => .idle) Stage.Move Ends

theorem taskStages_starts (tag : AgentTask) :
    ((agentSystem deployment).program tag).Follows ((taskStages deployment).step tag)
      ((taskStages deployment).ends tag) ((taskStages deployment).start tag) :=
  (serveTask_follows tag).marked

end Tasks

end Agents
