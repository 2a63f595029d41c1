import BirthHub.Agents.Neutral
import BirthHub.Effect.Moves

/-!
# The stages of a task

A task that executes an agent looks for a result, takes the lock, runs tools, stores the
result, releases the lock, and then consumes the budget in a transaction; a consumption by
the API is only the last part. `Move` says what a task may do at each of these stages, and
`serveTask_follows` that every task does nothing else.
-/

namespace Agents

open Data Effect

/-- The new total that a consumption computes from the row it has read. -/
def Consumption.next (row : AgentBudget) : Consumption → ℚ
  | .worker input => roundCurrency (row.consumedBrl + input.costBrl)
  | .api input => toFixed4 (row.consumedBrl + input.costBRL)

/-- The API consumes only up to the limit that it has read. -/
def Consumption.Accepts (row : AgentBudget) : Consumption → Prop
  | .worker _ => True
  | .api input => toFixed4 (row.consumedBrl + input.costBRL) ≤ row.limitBrl

/-- The event of a consumption. -/
def Consumption.Records (c : Consumption) (event : AgentBudgetEvent) : Prop :=
  event.kind = .CONSUME ∧ event.budget = c.budget ∧ event.costBrl = c.cost ∧
    event.executionId = c.executionId

/-- A result that the plan executor has produced for a request, by calls that cost `ran`. -/
structure Produced (request : AgentExecutionRequest) (ran : ℚ) (result : PlanExecutionResult) :
    Prop where
  executionId : result.executionId = request.executionId
  tenantId : result.tenantId = request.tenantId
  agentId : result.agentId = request.agentId
  total : result.estimatedCostBrlTotal = ran

/-- A statement of the transaction that leaves what is consumed alone. -/
def BudgetOp.IsAlertOf (tx : Nat) : BudgetOp → Prop
  | .updateBudget (some tx') _ data => tx' = tx ∧ data.IsAlert
  | .createBudgetEvent (some tx') event => tx' = tx ∧ event.kind ≠ .CONSUME
  | _ => False

/-- How far a task is; `ran` is the cost of the calls that it has run. -/
inductive Stage
  /-- Nothing is executed, or nothing yet. -/
  | idle
  /-- No result is retained. -/
  | missed (request : AgentExecutionRequest)
  | locked (request : AgentExecutionRequest) (ran : ℚ)
  /-- The result may be stored, but the task fails. -/
  | releasing (request : AgentExecutionRequest) (ran : ℚ)
  | stored (request : AgentExecutionRequest) (result : PlanExecutionResult)
  /-- The request is executed, and its result is not charged. -/
  | owing (request : AgentExecutionRequest) (result : PlanExecutionResult) (ran : ℚ)
  /-- The task fails without a charge. -/
  | failed (ran : ℚ)
  | begun (c : Consumption) (tx : Nat) (ran : ℚ)
  | read (c : Consumption) (tx : Nat) (ran : ℚ) (row : AgentBudget)
  | written (c : Consumption) (tx : Nat) (ran : ℚ) (row : AgentBudget)
  | recorded (c : Consumption) (tx : Nat) (ran : ℚ) (row : AgentBudget)
  /-- The consumption was a dry run. -/
  | closing (c : Consumption) (tx : Nat)
  | aborting (c : Consumption) (tx : Nat) (ran : ℚ)
  /-- The answer to the commit is an error. -/
  | settling (c : Consumption) (tx : Nat) (ran : ℚ)
  | charged (c : Consumption) (tx : Nat) (ran : ℚ)
  /-- The consumption is over and has charged nothing. -/
  | done

namespace Stage

/-- A task at this stage may end by an error. -/
def MayThrow : Stage → Prop
  | .idle | .failed _ | .settling .. | .charged .. | .done => True
  | _ => False

/-- What a task does at a stage. -/
inductive Move : AgentTask → Stage → (o : AgentOp) → AgentIface.Answer o → Stage → Prop
  | stay {tag : AgentTask} {s : Stage} {o : AgentOp} {answer : AgentIface.Answer o}
      (neutral : o.IsNeutral) : Move tag s o answer s
  | miss {tag : AgentTask} {request : AgentExecutionRequest} :
      Move tag .idle (.redis (.getResult request)) (.ok none) (.missed request)
  | hit {tag : AgentTask} {request : AgentExecutionRequest} {result : PlanExecutionResult} :
      Move tag .idle (.redis (.getResult request)) (.ok (some result))
        (.owing request { result with cached := true } 0)
  | unread {tag : AgentTask} {request : AgentExecutionRequest} {e : Thrown} :
      Move tag .idle (.redis (.getResult request)) (.error e) (.failed 0)
  | lock {tag : AgentTask} {request : AgentExecutionRequest} :
      Move tag (.missed request) (.redis (.setLock request.executionId)) (.ok true)
        (.locked request 0)
  | refused {tag : AgentTask} {request : AgentExecutionRequest}
      {answer : AgentIface.Answer (.redis (.setLock request.executionId))}
      (refused : answer ≠ .ok true) :
      Move tag (.missed request) (.redis (.setLock request.executionId)) answer (.failed 0)
  /-- An error before the `try`. -/
  | abandon {tag : AgentTask} {request : AgentExecutionRequest} {ran : ℚ} {e : Thrown} :
      Move tag (.locked request ran) .now (.error e) (.failed ran)
  | tool {tag : AgentTask} {request : AgentExecutionRequest} {ran cost : ℚ}
      {call : PlannedToolCall} {timeoutMs : Option Int} {output : Json} :
      Move tag (.locked request ran) (.runTool request call cost timeoutMs) (.ok output)
        (.locked request (ran + cost))
  | toolFails {tag : AgentTask} {request : AgentExecutionRequest} {ran cost : ℚ}
      {call : PlannedToolCall} {timeoutMs : Option Int} {e : Thrown} :
      Move tag (.locked request ran) (.runTool request call cost timeoutMs) (.error e)
        (.locked request ran)
  | store {tag : AgentTask} {request : AgentExecutionRequest} {ran : ℚ}
      {result : PlanExecutionResult} (produced : Produced request ran result) :
      Move tag (.locked request ran) (.redis (.setResult request result)) (.ok ())
        (.stored request result)
  | unstored {tag : AgentTask} {request : AgentExecutionRequest} {ran : ℚ}
      {result : PlanExecutionResult} {e : Thrown} (produced : Produced request ran result) :
      Move tag (.locked request ran) (.redis (.setResult request result)) (.error e)
        (.releasing request ran)
  | release {tag : AgentTask} {request : AgentExecutionRequest} {result : PlanExecutionResult} :
      Move tag (.stored request result) (.redis (.delLock request.executionId)) (.ok ())
        (.owing request result result.estimatedCostBrlTotal)
  | unreleased {tag : AgentTask} {request : AgentExecutionRequest} {result : PlanExecutionResult}
      {e : Thrown} :
      Move tag (.stored request result) (.redis (.delLock request.executionId)) (.error e)
        (.failed result.estimatedCostBrlTotal)
  /-- The result is stored, and the plan has failed after that. -/
  | forget {tag : AgentTask} {request : AgentExecutionRequest} {result : PlanExecutionResult} :
      Move tag (.stored request result) (.redis (.delLock request.executionId)) (.ok ())
        (.failed result.estimatedCostBrlTotal)
  /-- The plan has failed. -/
  | giveUp {tag : AgentTask} {request : AgentExecutionRequest} {ran : ℚ}
      {answer : AgentIface.Answer (.redis (.delLock request.executionId))} :
      Move tag (.locked request ran) (.redis (.delLock request.executionId)) answer (.failed ran)
  | giveUpStored {tag : AgentTask} {request : AgentExecutionRequest} {ran : ℚ}
      {answer : AgentIface.Answer (.redis (.delLock request.executionId))} :
      Move tag (.releasing request ran) (.redis (.delLock request.executionId)) answer (.failed ran)
  | beginCharge {tag : AgentTask} {request : AgentExecutionRequest} {result : PlanExecutionResult}
      {ran : ℚ} {input : WorkerCharge} {tx : Nat}
      (cost : input.costBrl = result.estimatedCostBrlTotal)
      (execution : input.executionId = request.executionId) :
      Move tag (.owing request result ran) (.budget (.begin (.worker input))) (.ok tx)
        (.begun (.worker input) tx ran)
  | unbegunCharge {tag : AgentTask} {request : AgentExecutionRequest} {result : PlanExecutionResult}
      {ran : ℚ} {c : Consumption} {e : Thrown} :
      Move tag (.owing request result ran) (.budget (.begin c)) (.error e) (.failed ran)
  | beginConsume {input : ApiCharge} {tx : Nat} :
      Move (.consume input) .idle (.budget (.begin (.api input))) (.ok tx)
        (.begun (.api input) tx 0)
  | unbegunConsume {tag : AgentTask} {c : Consumption} {e : Thrown} :
      Move tag .idle (.budget (.begin c)) (.error e) .done
  | read {tag : AgentTask} {c : Consumption} {tx : Nat} {ran : ℚ} {create row : AgentBudget}
      (key : create.id = c.budget) (unconsumed : create.consumedBrl = 0) :
      Move tag (.begun c tx ran) (.budget (.upsertBudget (some tx) create)) (.ok row)
        (.read c tx ran row)
  | unseen {tag : AgentTask} {c : Consumption} {tx : Nat} {ran : ℚ} {create : AgentBudget}
      {e : Thrown} (key : create.id = c.budget) (unconsumed : create.consumedBrl = 0) :
      Move tag (.begun c tx ran) (.budget (.upsertBudget (some tx) create)) (.error e)
        (.aborting c tx ran)
  | write {tag : AgentTask} {c : Consumption} {tx : Nat} {ran : ℚ} {row updated : AgentBudget}
      {data : BudgetUpdate} (total : data.consumedBrl = some (c.next row)) (accepts : c.Accepts row) :
      Move tag (.read c tx ran row) (.budget (.updateBudget (some tx) row.id data)) (.ok updated)
        (.written c tx ran row)
  | unwritten {tag : AgentTask} {c : Consumption} {tx : Nat} {ran : ℚ} {row : AgentBudget}
      {data : BudgetUpdate} {e : Thrown} (total : data.consumedBrl = some (c.next row))
      (accepts : c.Accepts row) :
      Move tag (.read c tx ran row) (.budget (.updateBudget (some tx) row.id data)) (.error e)
        (.aborting c tx ran)
  | record {tag : AgentTask} {c : Consumption} {tx : Nat} {ran : ℚ} {row : AgentBudget}
      {event : AgentBudgetEvent} (records : c.Records event) :
      Move tag (.written c tx ran row) (.budget (.createBudgetEvent (some tx) event)) (.ok ())
        (.recorded c tx ran row)
  | unrecorded {tag : AgentTask} {c : Consumption} {tx : Nat} {ran : ℚ} {row : AgentBudget}
      {event : AgentBudgetEvent} {e : Thrown} (records : c.Records event) :
      Move tag (.written c tx ran row) (.budget (.createBudgetEvent (some tx) event)) (.error e)
        (.aborting c tx ran)
  | alert {tag : AgentTask} {c : Consumption} {tx : Nat} {ran : ℚ} {row : AgentBudget}
      {o : BudgetOp} {answer : AgentIface.Answer (.budget o)} (alert : o.IsAlertOf tx) :
      Move tag (.recorded c tx ran row) (.budget o) answer (.recorded c tx ran row)
  | unalerted {tag : AgentTask} {c : Consumption} {tx : Nat} {ran : ℚ} {row : AgentBudget}
      {o : BudgetOp} {answer : AgentIface.Answer (.budget o)} (alert : o.IsAlertOf tx) :
      Move tag (.recorded c tx ran row) (.budget o) answer (.aborting c tx ran)
  /-- The consumption is not accepted. -/
  | block {tag : AgentTask} {c : Consumption} {tx : Nat} {ran : ℚ} {row : AgentBudget}
      {o : BudgetOp} {answer : AgentIface.Answer (.budget o)} (alert : o.IsAlertOf tx) :
      Move tag (.read c tx ran row) (.budget o) answer (.aborting c tx ran)
  | blocked {tag : AgentTask} {c : Consumption} {tx : Nat} {ran : ℚ}
      {o : BudgetOp} {answer : AgentIface.Answer (.budget o)} (alert : o.IsAlertOf tx) :
      Move tag (.aborting c tx ran) (.budget o) answer (.aborting c tx ran)
  | dry {input : ApiCharge} {tx : Nat} {row : AgentBudget} {o : BudgetOp}
      {answer : AgentIface.Answer (.budget o)} (alert : o.IsAlertOf tx) :
      Move (.consume input) (.read (.api input) tx 0 row) (.budget o) answer
        (.closing (.api input) tx)
  | close {tag : AgentTask} {c : Consumption} {tx : Nat}
      {answer : AgentIface.Answer (.budget (.commit tx))} :
      Move tag (.closing c tx) (.budget (.commit tx)) answer .done
  | abort {tag : AgentTask} {c : Consumption} {tx : Nat} {ran : ℚ}
      {answer : AgentIface.Answer (.budget (.rollback tx))} :
      Move tag (.aborting c tx ran) (.budget (.rollback tx)) answer (.failed ran)
  | commit {tag : AgentTask} {c : Consumption} {tx : Nat} {ran : ℚ} {row : AgentBudget} :
      Move tag (.recorded c tx ran row) (.budget (.commit tx)) (.ok ()) (.charged c tx ran)
  | uncommitted {tag : AgentTask} {c : Consumption} {tx : Nat} {ran : ℚ} {row : AgentBudget}
      {e : Thrown} :
      Move tag (.recorded c tx ran row) (.budget (.commit tx)) (.error e) (.settling c tx ran)

end Stage

/-- Where a task ends. -/
def Ends (tag : AgentTask) : Except Thrown AgentResponse → Stage → Prop
  | .ok response, s =>
      match tag with
      | .execute request _ =>
          ∃ result ran, response = .executed result ∧ s = .owing request result ran
      | .step .. | .job _ => s = .idle ∨ ∃ c tx ran, s = .charged c tx ran
      | .consume _ => s = .done ∨ ∃ c tx ran, s = .charged c tx ran
  | .error _, s => s.MayThrow

/-! ## Programs that execute nothing -/

section Follows

variable {α β : Type} {tag : AgentTask} {s : Stage} {Q : Except Thrown α → Stage → Prop}

theorem follows_neutral {p : Prog AgentIface α} (within : p.Within AgentOp.IsNeutral) :
    p.Follows (Stage.Move tag) (fun _ s' => s' = s) s := by
  induction p with
  | pure a => exact rfl
  | throw e => exact rfl
  | op o k ih => exact fun r => ⟨s, .stay within.1, ih r (within.2 r)⟩

/-- A part that executes nothing, and then the rest at the same stage. -/
theorem follows_neutral_bind {p : Prog AgentIface α} {f : α → Prog AgentIface β}
    {Q : Except Thrown β → Stage → Prop} (within : p.Within AgentOp.IsNeutral)
    (throws : ∀ e, Q (.error e) s) (rest : ∀ a, (f a).Follows (Stage.Move tag) Q s) :
    (p >>= f).Follows (Stage.Move tag) Q s := by
  refine Prog.Follows.bind (Prog.Follows.mono (fun x s' exit => ?_) (follows_neutral within))
  cases x with
  | ok a => exact exit ▸ rest a
  | error e => exact exit ▸ throws e

theorem follows_await_neutral {o : AgentOp} {f : o.Result → Prog AgentIface α}
    (neutral : o.IsNeutral) (throws : ∀ e, Q (.error e) s)
    (rest : ∀ r, (f r).Follows (Stage.Move tag) Q s) :
    (await o >>= f).Follows (Stage.Move tag) Q s :=
  follows_neutral_bind (Prog.Within.perform neutral) throws rest

/-- An operation that is answered or fails. -/
theorem follows_await {o : AgentOp} {f : o.Result → Prog AgentIface α} {failing : Stage}
    (failed : ∀ e, Stage.Move tag s o (.error e) failing) (throws : ∀ e, Q (.error e) failing)
    (answered : ∀ r, ∃ s', Stage.Move tag s o (.ok r) s' ∧
      (f r).Follows (Stage.Move tag) Q s') :
    (await o >>= f).Follows (Stage.Move tag) Q s :=
  Prog.Follows.performBind answered fun e => ⟨failing, failed e, throws e⟩

theorem follows_ofExcept {x : Except Thrown α} (returns : ∀ a, x = .ok a → Q (.ok a) s)
    (throws : ∀ e, Q (.error e) s) :
    (Prog.ofExcept x : Prog AgentIface α).Follows (Stage.Move tag) Q s := by
  cases x with
  | ok a => exact returns a rfl
  | error e => exact throws e

theorem neutral_of_plain {tenantId : String} {p : Prog AgentIface α}
    (within : p.Within (AgentOp.IsPlain tenantId)) : p.Within AgentOp.IsNeutral := by
  induction p with
  | pure a => trivial
  | throw e => trivial
  | op o k ih => exact ⟨within.1.1, fun r => ih r (within.2 r)⟩

end Follows

end Agents
