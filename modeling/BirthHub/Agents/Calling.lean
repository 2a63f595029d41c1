import BirthHub.Agents.Protocol

/-!
# The tool calls of an execution

An execution looks for its result once, and then calls the tools of the plan of its request:
each call is attempted as often as the plan executor says, and the first call whose attempts
all fail is the last. `serveTask_calling` says so of every task.
-/

namespace Agents

open Data Effect

/-- The tools that are planned for a request. -/
def AgentExecutionRequest.tools (request : AgentExecutionRequest) : List String :=
  (request.toolCalls.getD (buildPlan request)).map PlannedToolCall.tool

/-- An operation that neither looks for a result nor calls a tool. -/
def AgentOp.IsQuiet : AgentOp → Prop
  | .redis (.getResult _) | .runTool .. => False
  | _ => True

/-- How far an execution is with its plan. -/
inductive Calling
  | idle
  /-- The calls that failed since the last that succeeded are counted. -/
  | planned (request : AgentExecutionRequest) (failed : Nat)
  | settled

/-- How often the plan executor of a task attempts a call. -/
def AgentTask.attempts (deployment : Deployment) : AgentTask → Nat
  | .execute .. => deployment.options.retryAttempts
  | _ => deployment.config.AGENT_TOOL_RETRY_ATTEMPTS

namespace Calling

inductive Move (attempts : Nat) : Calling → (o : AgentOp) → AgentIface.Answer o → Calling → Prop
  | stay {s : Calling} {o : AgentOp} {answer : AgentIface.Answer o} (quiet : o.IsQuiet) :
      Move attempts s o answer s
  | miss {request : AgentExecutionRequest} :
      Move attempts .idle (.redis (.getResult request)) (.ok none) (.planned request 0)
  | settle {request : AgentExecutionRequest} {answer : AgentIface.Answer (.redis (.getResult request))}
      (settled : answer ≠ .ok none) :
      Move attempts .idle (.redis (.getResult request)) answer .settled
  | succeed {request : AgentExecutionRequest} {failed : Nat} {call : PlannedToolCall} {cost : ℚ}
      {timeoutMs : Option Int} {output : Json} (planned : call.tool ∈ request.tools)
      (left : failed < attempts) :
      Move attempts (.planned request failed) (.runTool request call cost timeoutMs) (.ok output)
        (.planned request 0)
  | fail {request : AgentExecutionRequest} {failed : Nat} {call : PlannedToolCall} {cost : ℚ}
      {timeoutMs : Option Int} {e : Thrown} (planned : call.tool ∈ request.tools)
      (left : failed < attempts) :
      Move attempts (.planned request failed) (.runTool request call cost timeoutMs) (.error e)
        (.planned request (failed + 1))

end Calling

section Follows

variable {α β : Type} {attempts : Nat} {s : Calling} {Q : Except Thrown α → Calling → Prop}

theorem quiet_of_neutral {o : AgentOp} (neutral : o.IsNeutral) : o.IsQuiet := by
  cases o with
  | redis => exact neutral.elim
  | runTool => exact neutral.elim
  | _ => trivial

theorem follows_quiet {p : Prog AgentIface α} (within : p.Within AgentOp.IsQuiet) :
    p.Follows (Calling.Move attempts) (fun _ s' => s' = s) s := by
  induction p with
  | pure a => exact rfl
  | throw e => exact rfl
  | op o k ih => exact fun r => ⟨s, .stay within.1, ih r (within.2 r)⟩

/-- A part that calls no tool, and then the rest at the same stage. -/
theorem follows_quiet_bind {p : Prog AgentIface α} {f : α → Prog AgentIface β}
    {Q : Except Thrown β → Calling → Prop} (within : p.Within AgentOp.IsQuiet)
    (throws : ∀ e, Q (.error e) s) (rest : ∀ a, (f a).Follows (Calling.Move attempts) Q s) :
    (p >>= f).Follows (Calling.Move attempts) Q s := by
  refine Prog.Follows.bind (Prog.Follows.mono (fun x s' exit => ?_) (follows_quiet within))
  cases x with
  | ok a => exact exit ▸ rest a
  | error e => exact exit ▸ throws e

theorem follows_neutral_quiet_bind {p : Prog AgentIface α} {f : α → Prog AgentIface β}
    {Q : Except Thrown β → Calling → Prop} (within : p.Within AgentOp.IsNeutral)
    (throws : ∀ e, Q (.error e) s) (rest : ∀ a, (f a).Follows (Calling.Move attempts) Q s) :
    (p >>= f).Follows (Calling.Move attempts) Q s :=
  follows_quiet_bind (within.mono fun _ => quiet_of_neutral) throws rest

theorem follows_await_quiet {o : AgentOp} {f : o.Result → Prog AgentIface α} (quiet : o.IsQuiet)
    (throws : ∀ e, Q (.error e) s) (rest : ∀ r, (f r).Follows (Calling.Move attempts) Q s) :
    (await o >>= f).Follows (Calling.Move attempts) Q s :=
  follows_quiet_bind (Prog.Within.perform quiet) throws rest

/-! ### The plan executor -/

section Executor

variable {options : PlanExecutorOptions} {hooks : Hooks} {request : AgentExecutionRequest}
  {startedAt : Int} {running : RunningCall} {failed : Nat}

/-- Where an attempt at a call ends: one that fails need not have called the tool. -/
def attemptCalling (request : AgentExecutionRequest) (failed : Nat) :
    Except Thrown (Except Thrown Json) → Calling → Prop
  | .ok (.ok _), s => s = .planned request 0
  | .ok (.error _), s => s = .planned request failed ∨ s = .planned request (failed + 1)
  | .error _, _ => False

theorem attemptCall_calling (planned : running.call.tool ∈ running.request.tools)
    (left : failed < attempts) :
    (attemptCall options running).Follows (Calling.Move attempts)
      (attemptCalling running.request failed) (.planned running.request failed) := by
  refine Prog.Follows.tryCatch ?_
  refine follows_neutral_quiet_bind resolveToolTimeout_neutral (fun _ => .inl rfl) fun timeoutMs => ?_
  refine Prog.Follows.performBind (fun output => ⟨_, .succeed planned left, rfl⟩) fun e => ?_
  exact ⟨_, .fail planned left, .inr rfl⟩

/-- Where a part of the plan ends. -/
def planCalling (request : AgentExecutionRequest) : Except Thrown α → Calling → Prop
  | .ok _, s => s = .planned request 0
  | .error _, s => ∃ failed, s = .planned request failed

/-- No more calls fail than there are attempts. -/
theorem executeWithRetry_calling (planned : running.call.tool ∈ running.request.tools)
    (left attempt : Nat) (lastError : Option Thrown) (enough : failed + left ≤ attempts) :
    (executeWithRetry options running left attempt lastError).Follows (Calling.Move attempts)
      (planCalling running.request) (.planned running.request failed) := by
  induction left generalizing failed attempt lastError with
  | zero =>
      rw [executeWithRetry]
      exact ⟨failed, rfl⟩
  | succ left ih =>
      rw [executeWithRetry]
      refine follows_neutral_quiet_bind assertExecutionDeadline_neutral (fun _ => ⟨_, rfl⟩) fun _ => ?_
      refine follows_neutral_quiet_bind assertCircuitOpen_neutral (fun _ => ⟨_, rfl⟩) fun _ => ?_
      refine Prog.Follows.bind (Prog.Follows.mono (fun x s' exit => ?_)
        (attemptCall_calling planned (by omega)))
      rcases x with e | output | e
      · exact exit.elim
      · obtain ⟨failed', within, rfl⟩ : ∃ failed', failed' + left ≤ attempts ∧
            s' = .planned running.request failed' := by
          rcases exit with rfl | rfl
          · exact ⟨failed, by omega, rfl⟩
          · exact ⟨failed + 1, by omega, rfl⟩
        dsimp only [Prog.bindPost]
        split
        · exact ⟨_, rfl⟩
        split
        · rename_i last
          subst last
          exact ih _ _ within
        · exact follows_await_quiet trivial (fun _ => ⟨_, rfl⟩) fun _ => ih _ _ within
      · exact exit

theorem runCall_calling {total index : Nat} {call : PlannedToolCall} {progress : PlanProgress}
    (neutral : hooks.IsNeutral) (planned : call.tool ∈ request.tools) :
    (runCall options hooks request startedAt total index call progress).Follows
      (Calling.Move options.retryAttempts) (planCalling request) (.planned request 0) := by
  refine follows_neutral_quiet_bind assertExecutionDeadline_neutral (fun _ => ⟨_, rfl⟩) fun _ => ?_
  split
  · exact ⟨_, rfl⟩
  dsimp only
  refine follows_quiet_bind Prog.Within.ofExcept (fun _ => ⟨_, rfl⟩) fun _ => ?_
  refine follows_await_quiet trivial (fun _ => ⟨_, rfl⟩) fun started => ?_
  refine Prog.Follows.bind (Prog.Follows.mono (fun x s' exit => ?_)
    (@executeWithRetry_calling options.retryAttempts options _ 0 planned options.retryAttempts 0 none
      (by omega)))
  cases x with
  | error e => exact exit
  | ok output =>
      rw [show s' = _ from exit]
      refine follows_await_quiet trivial (fun _ => ⟨_, rfl⟩) fun finished => ?_
      exact follows_neutral_quiet_bind (neutral.onStepCompleted _ _ _) (fun _ => ⟨_, rfl⟩)
        fun _ => rfl

theorem runCalls_calling {total : Nat} (neutral : hooks.IsNeutral) (calls : List PlannedToolCall)
    (index : Nat) (progress : PlanProgress) (planned : ∀ call ∈ calls, call.tool ∈ request.tools) :
    (runCalls options hooks request startedAt total index calls progress).Follows
      (Calling.Move options.retryAttempts) (planCalling request) (.planned request 0) := by
  induction calls generalizing index progress with
  | nil => exact rfl
  | cons call calls ih =>
      refine Prog.Follows.bind (Prog.Follows.mono (fun x s' exit => ?_)
        (runCall_calling neutral (planned call List.mem_cons_self)))
      cases x with
      | error e => exact exit
      | ok progress' =>
          rw [show s' = _ from exit]
          exact ih (index + 1) progress' fun later inside =>
            planned later (List.mem_cons_of_mem call inside)

theorem executePlan_calling {breakers : CircuitBreakers} (neutral : hooks.IsNeutral) :
    (executePlan options hooks breakers request startedAt).Follows
      (Calling.Move options.retryAttempts) (planCalling request) (.planned request 0) := by
  refine follows_quiet_bind Prog.Within.ofExcept (fun _ => ⟨_, rfl⟩) fun _ => ?_
  refine follows_neutral_quiet_bind (neutral.onPlanBuilt _) (fun _ => ⟨_, rfl⟩) fun _ => ?_
  refine Prog.Follows.bind (Prog.Follows.mono (fun x s' exit => ?_)
    (runCalls_calling neutral _ 0 _ fun call inside => List.mem_map_of_mem inside))
  cases x with
  | error e => exact exit
  | ok progress =>
      rw [show s' = _ from exit]
      refine follows_await_quiet trivial (fun _ => ⟨_, rfl⟩) fun _ => ?_
      exact follows_neutral_quiet_bind (neutral.onExecutionCompleted _) (fun _ => ⟨_, rfl⟩)
        fun _ => rfl

/-- An execution that has returned its result or given up does not call tools any more. -/
theorem execute_calling {breakers : CircuitBreakers} (neutral : hooks.IsNeutral) :
    (execute options hooks breakers request).Follows (Calling.Move options.retryAttempts)
      (fun _ _ => True) .idle := by
  refine Prog.Follows.performBind (fun cachedResult => ?_)
    fun e => ⟨_, .settle (by simp), trivial⟩
  cases cachedResult with
  | some result => exact ⟨_, .settle (fun same => nomatch Except.ok.inj same), trivial⟩
  | none =>
      refine ⟨_, .miss, ?_⟩
      refine follows_await_quiet trivial (fun _ => trivial) fun locked => ?_
      cases locked with
      | false => exact trivial
      | true =>
          refine follows_await_quiet trivial (fun _ => trivial) fun startedAt => ?_
          refine Prog.Follows.finallyDo (Prog.Follows.mono (fun x s exit => ?_)
            (executePlan_calling neutral))
          exact Prog.Follows.mono (fun y s' _ => by cases y <;> trivial)
            (follows_quiet (Prog.Within.perform trivial))

end Executor

/-! ### Tasks -/

/-- Wherever a part ends, no tool is called after it. -/
theorem follows_then_quiet {p : Prog AgentIface α} {f : α → Prog AgentIface β}
    (follows : p.Follows (Calling.Move attempts) (fun _ _ => True) s)
    (rest : ∀ a, (f a).Within AgentOp.IsQuiet) :
    (p >>= f).Follows (Calling.Move attempts) (fun _ _ => True) s := by
  refine Prog.Follows.bind (Prog.Follows.mono (fun x s' _ => ?_) follows)
  cases x with
  | ok a => exact (follows_quiet (rest a)).mono fun _ _ _ => trivial
  | error e => trivial

theorem follows_catch_quiet {p : Prog AgentIface α} {h : Thrown → Prog AgentIface α}
    (follows : p.Follows (Calling.Move attempts) (fun _ _ => True) s)
    (recovers : ∀ e, (h e).Within AgentOp.IsQuiet) :
    (p.tryCatch h).Follows (Calling.Move attempts) (fun _ _ => True) s := by
  refine Prog.Follows.tryCatch (Prog.Follows.mono (fun x s' _ => ?_) follows)
  cases x with
  | ok a => trivial
  | error e => exact (follows_quiet (recovers e)).mono fun _ _ _ => trivial

theorem transaction_quiet {c : Consumption} {body : Nat → Prog AgentIface α}
    (within : ∀ tx, (body tx).Within AgentOp.IsQuiet) :
    (transaction c body).Within AgentOp.IsQuiet := by
  refine within_await_bind trivial fun tx => ?_
  refine Prog.Within.bind (within_tryCatch (within tx) fun e => ?_) fun result => ?_
  · exact Prog.Within.bind (within_tryCatch (Prog.Within.perform trivial) fun _ => trivial)
      fun _ => trivial
  · exact within_await_bind trivial fun _ => trivial

theorem chargeExecution_quiet {input : WorkerCharge} :
    (chargeExecution input).Within AgentOp.IsQuiet := by
  refine transaction_quiet fun tx => ?_
  refine within_await_bind trivial fun budget => ?_
  refine within_await_bind trivial fun updatedBudget => ?_
  refine within_await_bind trivial fun _ => ?_
  cases nextAlertLevel budget (roundCurrency (budget.consumedBrl + input.costBrl)) with
  | none => trivial
  | some level => exact within_await_bind trivial fun _ => trivial

theorem consumeBudget_quiet {input : ApiCharge} : (consumeBudget input).Within AgentOp.IsQuiet := by
  refine transaction_quiet fun tx => ?_
  refine within_await_bind trivial fun record => ?_
  split
  · exact within_await_bind trivial fun _ => trivial
  dsimp only
  split
  · refine within_await_bind trivial fun _ => ?_
    exact within_await_bind trivial fun _ => trivial
  refine within_await_bind trivial fun updated => ?_
  refine within_await_bind trivial fun _ => ?_
  split
  · refine within_await_bind trivial fun _ => ?_
    exact within_await_bind trivial fun _ => trivial
  · trivial

theorem executeManifestAgentRuntime_calling {config : WorkerConfig} {catalog : List CatalogManifest}
    {input : RuntimeExecutionInput} :
    (executeManifestAgentRuntime config catalog input).Follows
      (Calling.Move config.AGENT_TOOL_RETRY_ATTEMPTS) (fun _ _ => True) .idle := by
  refine follows_neutral_quiet_bind (neutral_of_plain prepare_plain) (fun _ => trivial) fun run => ?_
  refine follows_neutral_quiet_bind (neutral_of_plain ensureBudgetHeadroom_plain)
    (fun _ => trivial) fun _ => ?_
  refine follows_await_quiet trivial (fun _ => trivial) fun _ => ?_
  refine follows_then_quiet (@execute_calling (runtimeOptions config run.resolved.manifest) _ _ _
    persistingHooks_neutral) fun execution => ?_
  refine Prog.Within.bind chargeExecution_quiet fun budget => ?_
  exact (neutral_of_plain publish_plain).mono fun _ => quiet_of_neutral

section Tasks

variable {deployment : Deployment}

theorem runWorkflowAgent_calling {call : WorkflowAgentCall} :
    (runWorkflowAgent deployment call).Follows
      (Calling.Move deployment.config.AGENT_TOOL_RETRY_ATTEMPTS) (fun _ _ => True) .idle := by
  refine follows_quiet_bind Prog.Within.ofExcept (fun _ => trivial) fun tenantId => ?_
  refine follows_await_quiet trivial (fun _ => trivial) fun organization => ?_
  refine follows_await_quiet trivial (fun _ => trivial) fun now => ?_
  refine follows_await_quiet trivial (fun _ => trivial) fun _ => ?_
  refine follows_catch_quiet ?_ fun e => within_await_bind trivial fun _ => trivial
  exact follows_then_quiet executeManifestAgentRuntime_calling fun result =>
    within_await_bind trivial fun _ => trivial

theorem fanOut_quiet {payload : ExecutionPayload} {status : ExecutionStatus} :
    (payload.fanOut status).Within AgentOp.IsQuiet :=
  fanOut_neutral.mono fun _ => quiet_of_neutral

theorem run_calling {payload : ExecutionPayload} :
    (payload.run deployment).Follows
      (Calling.Move deployment.config.AGENT_TOOL_RETRY_ATTEMPTS) (fun _ _ => True) .idle := by
  have ends {status : ExecutionStatus} {result : JobResult} :
      (do payload.fanOut status; pure result : Prog AgentIface JobResult).Within AgentOp.IsQuiet :=
    Prog.Within.bind fanOut_quiet fun _ => trivial
  refine follows_neutral_quiet_bind resolveBillingLock_neutral (fun _ => trivial) fun billing => ?_
  split
  · exact follows_await_quiet trivial (fun _ => trivial) fun _ =>
      (follows_quiet ends).mono fun _ _ _ => trivial
  split
  · exact follows_await_quiet trivial (fun _ => trivial) fun _ => trivial
  split
  · exact follows_await_quiet trivial (fun _ => trivial) fun _ => trivial
  · exact follows_then_quiet executeManifestAgentRuntime_calling fun result =>
      within_await_bind trivial fun _ => ends

theorem processJob_calling {job : Job} :
    (processJob deployment job).Follows
      (Calling.Move deployment.config.AGENT_TOOL_RETRY_ATTEMPTS) (fun _ _ => True) .idle := by
  refine follows_neutral_quiet_bind readJob_neutral (fun _ => trivial) fun payload => ?_
  refine follows_await_quiet trivial (fun _ => trivial) fun _ => ?_
  refine follows_catch_quiet run_calling fun e => ?_
  exact within_await_bind trivial fun _ => Prog.Within.bind fanOut_quiet fun _ => trivial

/-- A task calls tools of one plan only, each as often as the plan executor attempts it. -/
theorem serveTask_calling (tag : AgentTask) :
    (serveTask deployment tag).Follows (Calling.Move (tag.attempts deployment))
      (fun _ _ => True) .idle := by
  cases tag with
  | execute request breakers =>
      exact follows_then_quiet (execute_calling noHooks_neutral) fun _ => trivial
  | step config context => exact follows_then_quiet runWorkflowAgent_calling fun _ => trivial
  | job job => exact follows_then_quiet processJob_calling fun _ => trivial
  | consume input =>
      have within : (serveTask deployment (.consume input)).Within AgentOp.IsQuiet :=
        Prog.Within.bind consumeBudget_quiet fun _ => trivial
      exact (follows_quiet within).mono fun _ _ _ => trivial

end Tasks

end Follows

end Agents
