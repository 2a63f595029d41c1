import BirthHub.Effect.System
import BirthHub.Workflow.Runner

/-!
# The worker, its database and its queue

`Store` is the part of the database and of the `workflow-execution` queue that the
runner uses, `Store.handle` answers its operations, and `engine` is the system in which
the jobs of that queue run: BullMQ delivers waiting jobs to any number of concurrent
workers, retries a job whose processor threw up to `attempts` deliveries, and may
deliver a job again that is still running.

Every database statement is atomic, and every operation but a clock read may fail
without effect.
-/

namespace Workflow

open Data Effect

/-! ## The store -/

inductive JobState
  | waiting
  | active
  | completed
  | failed
deriving DecidableEq, Repr

structure Job where
  id : String
  payload : WorkflowExecutionJobPayload
  delay : Option Number
  attemptsMade : Nat
  state : JobState

/-- The job is queued, delayed or being processed. -/
def JobState.isOpen : JobState → Bool
  | .waiting | .active => true
  | .completed | .failed => false

/-- Result rows are oldest first; a job is known by its place in `jobs`. -/
structure Store where
  executions : List WorkflowExecution
  workflows : List Definition
  stepResults : List StepResult
  quotas : List QuotaUsage
  jobs : List Job

/-- `attempts` of the default job options of the queue. -/
def JOB_ATTEMPTS : Nat := 5

/-- What the outside decides about one operation. -/
structure Choice where
  /-- The operation fails without effect. -/
  fault : Option Thrown := none
  /-- What the clock shows. -/
  time : Int := 0
  /-- What executing the step does. -/
  result : Except Thrown (Option Json) := .ok none
  /-- BullMQ still holds the finished jobs, so that it ignores their ids. -/
  retained : Bool := true
  /-- The id of a new execution. -/
  newId : String := ""

namespace Store

variable (store : Store)

def execution (id : String) : Option WorkflowExecution :=
  store.executions.find? (·.id = id)

def workflow (id tenantId : String) : Option Definition :=
  store.workflows.find? fun w => w.id = id ∧ w.tenantId = tenantId

/-- The key of the step a result belongs to. -/
def stepKey (stepId : String) : String :=
  (((store.workflows.flatMap (·.steps)).find? (·.id = stepId)).map (·.key)).getD ""

/-- `@@unique([executionId, stepId, attempt])` already holds a row. -/
def hasResult (executionId stepId : String) (attempt : Nat) : Bool :=
  store.stepResults.any fun r =>
    r.executionId = executionId ∧ r.stepId = stepId ∧ r.attempt = attempt

def updateExecution (id : String) (data : ExecutionUpdate) : Store :=
  { store with
    executions := store.executions.map fun row => if row.id = id then data.apply row else row }

def cacheCandidates (workflowId stepId : String) (finishedFrom : Int) : List StepResult :=
  let matching := store.stepResults.filter fun r =>
    r.workflowId = workflowId ∧ r.stepId = stepId ∧ r.status = .SUCCESS ∧
      (r.finishedAt.map fun at' => decide (at' ≥ finishedFrom)).getD false
  (matching.insertionSort fun a b => b.finishedAt.getD 0 ≤ a.finishedAt.getD 0).take 10

/-- The record of `AI_PROMPTS` that resets last. -/
def quota (tenantId : String) : Option QuotaUsage :=
  ((store.quotas.filter fun q => q.tenantId = tenantId ∧ q.resourceType = .AI_PROMPTS)
    |>.insertionSort fun a b => b.resetAt ≤ a.resetAt).head?

/-- BullMQ ignores a job whose id it still holds. -/
def holdsJob (jobId : String) (retained : Bool) : Bool :=
  store.jobs.any fun job => job.id = jobId ∧ (job.state.isOpen || retained)

def addJob (payload : WorkflowExecutionJobPayload) (options : JobOptions) (retained : Bool) :
    Store :=
  if store.holdsJob options.jobId retained then store
  else { store with
    jobs := store.jobs ++ [{
      id := options.jobId
      payload
      delay := options.delay
      attemptsMade := 0
      state := .waiting }] }

/-- The result of an operation that does not fail by `fault`. -/
def perform (choice : Choice) : (o : RunnerOp) → RunnerIface.Answer o × Store
  | .now => (.ok choice.time, store)
  | .findExecution id => (.ok (store.execution id), store)
  | .findPublishedWorkflow id tenantId =>
      (.ok ((store.workflow id tenantId).filter (·.status = .PUBLISHED)), store)
  | .findWorkflow id tenantId => (.ok (store.workflow id tenantId), store)
  | .createExecution payload =>
      let row : WorkflowExecution := {
        id := choice.newId
        tenantId := payload.tenantId
        organizationId := payload.organizationId
        workflowId := payload.workflowId
        triggerType := payload.triggerType
        triggerPayload := payload.triggerPayload
        startedAt := choice.time }
      (.ok row, { store with executions := store.executions ++ [row] })
  | .updateExecution id data =>
      match store.execution id with
      | some _ => (.ok (), store.updateExecution id data)
      | none => (.error { message := some "No record was found for an update.",
                          code := some "P2025" }, store)
  | .findStepResults executionId =>
      (.ok ((store.stepResults.filter (·.executionId = executionId)).map fun r =>
        (store.stepKey r.stepId, r)), store)
  | .findCacheCandidates workflowId stepId finishedFrom =>
      (.ok (store.cacheCandidates workflowId stepId finishedFrom), store)
  | .createStepResult data =>
      if store.hasResult data.executionId data.stepId data.attempt then
        (.error (uniqueViolation "(executionId,stepId,attempt)"), store)
      else (.ok (), { store with stepResults := store.stepResults ++ [data] })
  | .findQuota tenantId => (.ok (store.quota tenantId), store)
  | .incrementQuota id =>
      (.ok (), { store with
        quotas := store.quotas.map fun q =>
          if q.id = id then { q with count := q.count + 1 } else q })
  | .executeStep _ _ => (choice.result, store)
  | .addJob payload options => (.ok (), store.addJob payload options choice.retained)

def handle (o : RunnerOp) (choice : Choice) : RunnerIface.Answer o × Store :=
  match o, choice.fault with
  | .now, _ => store.perform choice .now
  | _, some e => (.error e, store)
  | o, none => store.perform choice o

end Store

/-! ## The queue and the outside -/

/-- A delivery of a job to a worker: the place of the job, and its data. -/
structure Delivery where
  job : Nat
  payload : WorkflowExecutionJobPayload

/-- What happens between the operations of the jobs. -/
inductive Outside
  /-- BullMQ hands a waiting job to a worker. -/
  | deliver (job : Nat)
  /-- BullMQ learns that the processor of a thread has ended. -/
  | settle (thread : Nat)
  /-- BullMQ takes a job that is being processed for stalled, and queues it again. -/
  | stall (job : Nat)
  /-- The execution is cancelled from outside. -/
  | cancel (executionId : String)
  /-- Somebody else uses or resets the quotas. -/
  | setQuotas (quotas : List QuotaUsage)

/-- The job after its processor returned or threw. -/
def Job.settle (job : Job) : Outcome → Job
  | .running => job
  | .returned => { job with state := .completed }
  | .threw =>
      { job with
        attemptsMade := job.attemptsMade + 1
        state := if job.attemptsMade + 1 < JOB_ATTEMPTS then .waiting else .failed }

def Store.setJob (store : Store) (n : Nat) (f : Job → Job) : Store :=
  { store with jobs := store.jobs.modify n f }

def outside (event : Outside) (store : Store) (threads : List (Thread Delivery Outcome)) :
    Option (Change Delivery Store) :=
  match event with
  | .deliver n =>
      match store.jobs[n]? with
      | some job =>
          if job.state = .waiting then
            some {
              store := store.setJob n fun job => { job with state := .active }
              spawn := [⟨n, job.payload⟩] }
          else none
      | none => none
  | .settle i =>
      match threads[i]? with
      | some ⟨delivery, outcome, settled⟩ =>
          if outcome = .running ∨ settled then none
          else some {
            store := store.setJob delivery.job fun job => job.settle outcome
            spawn := []
            settle := some i }
      | none => none
  | .stall n =>
      match store.jobs[n]? with
      | some job =>
          if job.state = .active then
            some { store := store.setJob n fun job => { job with state := .waiting }, spawn := [] }
          else none
      | none => none
  | .cancel executionId =>
      some {
        store := store.updateExecution executionId { status := some .CANCELLED }
        spawn := [] }
  | .setQuotas quotas => some { store := { store with quotas }, spawn := [] }

/-- A world of the engine: store, deliveries and trace. -/
abbrev Engine : Type := World RunnerIface Delivery Store (Prog RunnerIface Unit)

/-- The world before any delivery. -/
def idle (store : Store) : Engine := ⟨store, [], []⟩

def engine (rt : Runtime) : System RunnerIface Delivery Store Unit where
  Choice := Choice
  handle o choice store := some (store.handle o choice)
  program delivery := processExecutionJob rt delivery.payload
  Env := Outside
  env := outside

/-! ## Starting an execution -/

/-- The store in which execution `x` of a workflow has just been started: the execution
is running at depth 0, nothing is stored for it, and the queue holds the job of its first
step. -/
structure Started (store : Store) (workflow : Definition) (first : WorkflowStep) (x : String) :
    Prop where
  stored : store.workflow workflow.id workflow.tenantId = some workflow
  trigger : triggerStep workflow = some first
  execution : ∃ row, store.execution x = some row ∧ row.status = .RUNNING ∧ row.depth = 0
  results : ∀ row ∈ store.stepResults, row.executionId ≠ x
  jobs : ∃ job, store.jobs = [job] ∧ job.state = .waiting ∧ job.attemptsMade = 0 ∧
    job.payload.attempt = 1 ∧ job.payload.executionId = x ∧ job.payload.stepKey = first.key ∧
    job.payload.workflowId = workflow.id ∧ job.payload.tenantId = workflow.tenantId

/-- The smallest store in which an execution of the workflow has just been started. -/
def startStore (workflow : Definition) (first : WorkflowStep) (x : String) : Store where
  executions := [{
    id := x
    tenantId := workflow.tenantId
    organizationId := workflow.organizationId
    workflowId := workflow.id
    triggerType := .MANUAL
    triggerPayload := .object []
    startedAt := 0 }]
  workflows := [workflow]
  stepResults := []
  quotas := []
  jobs := [{
    id := s!"{x}:{first.key}:1"
    payload := {
      attempt := 1
      executionId := x
      organizationId := workflow.organizationId
      stepKey := first.key
      tenantId := workflow.tenantId
      triggerPayload := .object []
      triggerType := .MANUAL
      workflowId := workflow.id }
    delay := none
    attemptsMade := 0
    state := .waiting }]

/-- A runtime for concrete runs: no hash is compared and every step parses. -/
def plainRuntime : Runtime where
  sha256 _ := ""
  parseStep json := .ok json

theorem startStore_started {workflow : Definition} {first : WorkflowStep} {x : String}
    (trigger : triggerStep workflow = some first) :
    Started (startStore workflow first x) workflow first x where
  stored := by simp [startStore, Store.workflow]
  trigger := trigger
  execution := ⟨_, by simp [startStore, Store.execution]; rfl, rfl, rfl⟩
  results := by simp [startStore]
  jobs := ⟨_, rfl, rfl, rfl, rfl, rfl, rfl, rfl, rfl⟩

def lineCanvas : Canvas where
  steps := [
    { key := "start", name := "Start", type := .TRIGGER_EVENT,
      config := .object [("topic", .string "order.created")], isTrigger := some true },
    { key := "end", name := "End", type := .TRANSFORMER, config := .object [] }]
  transitions := [{ source := "start", target := "end" }]

/-- A trigger and one leaf. -/
def lineWorkflow : Definition := publishedWorkflow lineCanvas 50 (by decide)

def lineTrigger : WorkflowStep := (triggerStep lineWorkflow).get (by decide)

def lineStart : Engine := idle (startStore lineWorkflow lineTrigger "x")

theorem lineStart_started : Started lineStart.store lineWorkflow lineTrigger "x" :=
  startStore_started (by simp [lineTrigger])

def forkCanvas : Canvas where
  steps := [
    { key := "start", name := "Start", type := .TRIGGER_EVENT,
      config := .object [("topic", .string "order.created")], isTrigger := some true },
    { key := "left", name := "Left", type := .TRANSFORMER, config := .object [] },
    { key := "right", name := "Right", type := .TRANSFORMER, config := .object [] }]
  transitions := [
    { source := "start", target := "left" },
    { source := "start", target := "right" }]

/-- A trigger with two parallel leaves. -/
def forkWorkflow : Definition := publishedWorkflow forkCanvas 50 (by decide)

def forkTrigger : WorkflowStep := (triggerStep forkWorkflow).get (by decide)

def forkStart : Engine := idle (startStore forkWorkflow forkTrigger "x")

theorem forkStart_started : Started forkStart.store forkWorkflow forkTrigger "x" :=
  startStore_started (by simp [forkTrigger])

/-! ### The acts of concrete runs -/

def deliver (n : Nat) : List (Act Choice Outside) := [.env (.deliver n)]

/-- The next operations of delivery `i`, all at one time. -/
def operate (i operations : Nat) (time : Int) : List (Act Choice Outside) :=
  List.replicate operations (.run i { time })

def settle (i : Nat) : List (Act Choice Outside) := [.env (.settle i)]

/-! ## What the operations do to the store -/

section Effects

variable {store store' : Store} {choice : Choice} {o : RunnerOp}

theorem Store.handle_of_fault {e : Thrown} (fault : choice.fault = some e) (timed : o ≠ .now) :
    store.handle o choice = (.error e, store) := by
  cases o <;> simp_all [handle]

theorem Store.handle_of_none (fault : choice.fault = none) :
    store.handle o choice = store.perform choice o := by
  cases o <;> simp [handle, fault]

theorem Store.handle_error {e : Thrown} (answered : store.handle o choice = (.error e, store')) :
    store' = store := by
  by_cases timed : o = .now
  · subst timed
    simp [handle, perform] at answered
  cases fault : choice.fault with
  | some e' =>
      rw [handle_of_fault fault timed] at answered
      exact (Prod.mk.inj answered).2.symm
  | none =>
      rw [handle_of_none fault] at answered
      cases o <;> simp only [perform] at answered <;> (try split at answered) <;>
        first
        | exact (Prod.mk.inj answered).2.symm
        | cases (Prod.mk.inj answered).1

/-- Without faults an operation of an execution job fails by the step it executes, by the
unique constraint, or by a missing execution. -/
theorem Store.handle_error_cases {e : Thrown} (fault : choice.fault = none)
    (answered : store.handle o choice = (.error e, store')) :
    (∃ step context, o = .executeStep step context) ∨
    (∃ data, o = .createStepResult data ∧
      store.hasResult data.executionId data.stepId data.attempt = true) ∨
    ∃ id data, o = .updateExecution id data ∧ store.execution id = none := by
  rw [handle_of_none fault] at answered
  cases o with
  | executeStep step context => exact .inl ⟨step, context, rfl⟩
  | createStepResult data =>
      refine .inr (.inl ⟨data, rfl, ?_⟩)
      simp only [perform] at answered
      split at answered
      · assumption
      · cases (Prod.mk.inj answered).1
  | updateExecution id data =>
      refine .inr (.inr ⟨id, data, rfl, ?_⟩)
      simp only [perform] at answered
      split at answered
      · cases (Prod.mk.inj answered).1
      · assumption
  | _ => cases (Prod.mk.inj answered).1

/-- The effect of an operation that succeeds is that of performing it. -/
theorem Store.handle_ok {r : o.Result} (answered : store.handle o choice = (.ok r, store')) :
    store.perform choice o = (.ok r, store') := by
  by_cases timed : o = .now
  · subst timed
    exact answered
  cases fault : choice.fault with
  | some e =>
      rw [handle_of_fault fault timed] at answered
      cases (Prod.mk.inj answered).1
  | none => rwa [handle_of_none fault] at answered

theorem Store.handle_updateExecution {id : String} {data : ExecutionUpdate} {r : Unit}
    (answered : store.handle (.updateExecution id data) choice = (.ok r, store')) :
    store' = store.updateExecution id data := by
  have performed := handle_ok (o := .updateExecution id data) answered
  simp only [perform] at performed
  split at performed
  · exact (Prod.mk.inj performed).2.symm
  · cases (Prod.mk.inj performed).1

theorem Store.handle_createStepResult {data : StepResult} {r : Unit}
    (answered : store.handle (.createStepResult data) choice = (.ok r, store')) :
    store.hasResult data.executionId data.stepId data.attempt = false ∧
      store' = { store with stepResults := store.stepResults ++ [data] } := by
  have performed := handle_ok (o := .createStepResult data) answered
  simp only [perform] at performed
  split at performed
  · cases (Prod.mk.inj performed).1
  · rename_i fresh
    exact ⟨by simpa using fresh, (Prod.mk.inj performed).2.symm⟩

theorem Store.handle_addJob {payload : WorkflowExecutionJobPayload} {options : JobOptions}
    {r : Unit} (answered : store.handle (.addJob payload options) choice = (.ok r, store')) :
    store' = store.addJob payload options choice.retained :=
  (Prod.mk.inj (handle_ok (o := .addJob payload options) answered)).2.symm

theorem Store.handle_executeStep {step : Json} {context : RuntimeContext} {r : Option Json}
    (answered : store.handle (.executeStep step context) choice = (.ok r, store')) :
    choice.fault = none ∧ choice.result = .ok r ∧ store' = store := by
  cases fault : choice.fault with
  | some e =>
      rw [handle_of_fault fault (by simp)] at answered
      cases (Prod.mk.inj answered).1
  | none =>
      rw [handle_of_none fault] at answered
      exact ⟨rfl, (Prod.mk.inj answered).1, (Prod.mk.inj answered).2.symm⟩

theorem Store.handle_incrementQuota {id : String} {r : Unit}
    (answered : store.handle (.incrementQuota id) choice = (.ok r, store')) :
    ∃ quotas, store' = { store with quotas } :=
  ⟨_, (Prod.mk.inj (handle_ok (o := .incrementQuota id) answered)).2.symm⟩

/-- The operations that only read. -/
def RunnerOp.isRead : RunnerOp → Bool
  | .findExecution _ | .findPublishedWorkflow .. | .findWorkflow .. | .findStepResults _
  | .findCacheCandidates .. | .findQuota _ | .now => true
  | _ => false

theorem Store.handle_read {answer : RunnerIface.Answer o} (read : o.isRead)
    (answered : store.handle o choice = (answer, store')) : store' = store := by
  cases answer with
  | error e => exact handle_error answered
  | ok r =>
      have performed := handle_ok answered
      cases o <;> first
        | exact (Prod.mk.inj performed).2.symm
        | cases read

theorem Store.handle_findExecution {id : String} {r : Option WorkflowExecution}
    (answered : store.handle (.findExecution id) choice = (.ok r, store')) :
    r = store.execution id := by
  have performed := Prod.mk.inj (handle_ok (o := .findExecution id) answered)
  exact (Except.ok.inj performed.1).symm

theorem Store.handle_findWorkflow {id tenantId : String} {r : Option Definition}
    (answered : store.handle (.findWorkflow id tenantId) choice = (.ok r, store')) :
    r = store.workflow id tenantId := by
  have performed := Prod.mk.inj (handle_ok (o := .findWorkflow id tenantId) answered)
  exact (Except.ok.inj performed.1).symm

/-- The row of an execution after an update of the same or of another execution. -/
theorem Store.execution_updateExecution {id id' : String} {data : ExecutionUpdate} :
    (store.updateExecution id' data).execution id =
      if id = id' then (store.execution id).map data.apply else store.execution id := by
  simp only [execution, updateExecution, List.find?_map]
  have keeps : ∀ row : WorkflowExecution,
      (if row.id = id' then data.apply row else row).id = row.id := by
    intro row
    split <;> rfl
  have same : ((fun row : WorkflowExecution => decide (row.id = id)) ∘
      fun row => if row.id = id' then data.apply row else row) =
      fun row => decide (row.id = id) := by
    funext row
    simp [Function.comp, keeps]
  rw [same]
  cases found : store.executions.find? (fun row => decide (row.id = id)) with
  | none => simp
  | some row =>
      have rowId : row.id = id := by simpa using List.find?_some found
      by_cases target : id = id' <;> simp [rowId, target]

/-- Everything an operation of an execution job can do to the store; `processTriggerJob`
alone creates executions. -/
theorem Store.handle_cases {answer : RunnerIface.Answer o}
    (uncreated : ∀ payload, o ≠ .createExecution payload)
    (answered : store.handle o choice = (answer, store')) :
    store' = store ∨
    (∃ quotas, store' = { store with quotas }) ∨
    (∃ id data, o = .updateExecution id data ∧ store' = store.updateExecution id data) ∨
    (∃ data, o = .createStepResult data ∧ (∃ r, answer = .ok r) ∧
      store.hasResult data.executionId data.stepId data.attempt = false ∧
      store' = { store with stepResults := store.stepResults ++ [data] }) ∨
    ∃ payload options, o = .addJob payload options ∧ (∃ r, answer = .ok r) ∧
      store' = store.addJob payload options choice.retained := by
  cases answer with
  | error e => exact .inl (handle_error answered)
  | ok r =>
      cases o with
      | createExecution payload => exact (uncreated payload rfl).elim
      | updateExecution id data =>
          exact .inr (.inr (.inl ⟨id, data, rfl, handle_updateExecution answered⟩))
      | createStepResult data =>
          exact .inr (.inr (.inr (.inl
            ⟨data, rfl, ⟨r, rfl⟩, handle_createStepResult answered⟩)))
      | incrementQuota id => exact .inr (.inl (handle_incrementQuota answered))
      | executeStep step context => exact .inl (handle_executeStep answered).2.2
      | addJob payload options =>
          exact .inr (.inr (.inr (.inr
            ⟨payload, options, rfl, ⟨r, rfl⟩, handle_addJob answered⟩)))
      | _ => exact .inl (handle_read rfl answered)

theorem Store.handle_jobs {answer : RunnerIface.Answer o}
    (uncreated : ∀ payload, o ≠ .createExecution payload)
    (unadded : ∀ payload options, o ≠ .addJob payload options)
    (answered : store.handle o choice = (answer, store')) : store'.jobs = store.jobs := by
  rcases handle_cases uncreated answered with
    rfl | ⟨quotas, rfl⟩ | ⟨id, data, _, rfl⟩ | ⟨data, _, _, _, rfl⟩ |
      ⟨payload, options, same, _, _⟩
  · rfl
  · rfl
  · rfl
  · rfl
  · exact (unadded payload options same).elim

theorem Store.handle_results {answer : RunnerIface.Answer o}
    (uncreated : ∀ payload, o ≠ .createExecution payload)
    (answered : store.handle o choice = (answer, store')) :
    ∀ row ∈ store.stepResults, row ∈ store'.stepResults := by
  rcases handle_cases uncreated answered with
    rfl | ⟨quotas, rfl⟩ | ⟨id, data, _, rfl⟩ | ⟨data, _, _, _, rfl⟩ |
      ⟨payload, options, _, _, rfl⟩
  · exact fun row there => there
  · exact fun row there => there
  · exact fun row there => there
  · exact fun row there => List.mem_append_left _ there
  · unfold addJob
    split <;> exact fun row there => there

/-- The row of an execution changes by an update of that row only. -/
theorem Store.handle_execution {answer : RunnerIface.Answer o} (id : String)
    (uncreated : ∀ payload, o ≠ .createExecution payload)
    (answered : store.handle o choice = (answer, store')) :
    store'.execution id = store.execution id ∨
    ∃ data, o = .updateExecution id data ∧
      store'.execution id = (store.execution id).map data.apply := by
  rcases handle_cases uncreated answered with
    rfl | ⟨quotas, rfl⟩ | ⟨id', data, rfl, rfl⟩ | ⟨data, _, _, _, rfl⟩ |
      ⟨payload, options, _, _, rfl⟩
  · exact .inl rfl
  · exact .inl rfl
  · rw [execution_updateExecution]
    by_cases same : id = id'
    · subst same
      exact .inr ⟨data, rfl, if_pos rfl⟩
    · exact .inl (if_neg same)
  · exact .inl rfl
  · unfold addJob
    split <;> exact .inl rfl

theorem Store.addJob_cases {payload : WorkflowExecutionJobPayload} {options : JobOptions}
    {retained : Bool} :
    store.addJob payload options retained = store ∨
    store.addJob payload options retained = { store with
      jobs := store.jobs ++ [⟨options.jobId, payload, options.delay, 0, .waiting⟩] } := by
  unfold addJob
  split
  · exact .inl rfl
  · exact .inr rfl

end Effects

end Workflow
