import BirthHub.Data.Entries
import BirthHub.Effect.Moves
import BirthHub.Workflow.Attempts

/-!
# Data flow between steps

The runner stores the output of a step and hands it to every later step of the execution
in `steps[key].output`. An output whose serialization is longer than `OUTPUT_MAX_BYTES` is
stored as `null`, and so is `undefined`; every other output arrives as it was returned.
`Flow` is how far a delivery has come with what it reads and what it returns.
-/

namespace Workflow

open Data Effect

/-! ## The property -/

/-- `context.steps[key].output`. -/
def RuntimeContext.output (context : RuntimeContext) (key : String) : Option Json :=
  (context.steps.member key).bind (·.member "output")

/-- What `normalizeOutput` keeps of an output. -/
def storedOutput (output : Option Json) : Json :=
  if (output.getD .null).stringify.utf8ByteSize ≤ OUTPUT_MAX_BYTES then output.getD .null
  else .null

/-- Delivery `i` has returned an output of the step and stored its result, delivery `j` has read
the results of the execution afterwards and is about to execute its own step. -/
structure Passes (x : String) (source : WorkflowStep) (w : Engine) (i j : Nat)
    (output : Option Json) (context : RuntimeContext) : Prop where
  returned : Executed w.trace i output
  stored : ∃ row rows, row.executionId = x ∧ row.stepId = source.id ∧ row.status ≠ .FAILED ∧
    List.Sublist [⟨j, .findStepResults x, .ok rows⟩, ⟨i, .createStepResult row, .ok ()⟩] w.trace
  executes : ∃ t step, w.threads[j]? = some t ∧ t.body.pending = some (.executeStep step context)

/-- In every run a later step finds `value output` where an earlier one has returned `output`. -/
def Hands (rt : Runtime) (w₀ : Engine) (workflow : Definition) (x : String)
    (value : Option Json → Json) : Prop :=
  ∀ (w : Engine) (source : WorkflowStep) (i j : Nat) (output : Option Json)
    (context : RuntimeContext), (engine rt).Run (fun _ _ => True) w₀ w →
    source ∈ workflow.steps → Passes x source w i j output context →
    context.output source.key = some (value output)

/-! ## What a delivery reads and returns -/

theorem outputResult_output {rt : Runtime} {p : WorkflowExecutionJobPayload}
    {step : WorkflowStep} {hash : String} {now : Int} {output : Option Json} :
    (outputResult rt p step hash now output).output = storedOutput output := by
  unfold outputResult normalizeOutput storedOutput
  dsimp only
  split <;> rfl

inductive Flow
  /-- The results of the execution are not read. -/
  | early
  | reading (rows : List (String × StepResult))
  | obtained (output : Option Json)
  | ended

/-- The operation of a job reads no results, executes no step and stores no result but a
failure. -/
def RunnerOp.isPlain : RunnerOp → Bool
  | .findStepResults _ | .executeStep .. | .createExecution _ => false
  | .createStepResult row => row.status == .FAILED
  | _ => true

abbrev Plain (o : RunnerOp) : Prop := o.isPlain

inductive Flow.Move (p : WorkflowExecutionJobPayload) :
    Flow → (o : RunnerOp) → RunnerIface.Answer o → Flow → Prop
  | plain {f : Flow} {o : RunnerOp} {answer : RunnerIface.Answer o} (plain : o.isPlain) :
      Move p f o answer f
  | read {rows : List (String × StepResult)} :
      Move p .early (.findStepResults p.executionId) (.ok rows) (.reading rows)
  | unread {e : Thrown} : Move p .early (.findStepResults p.executionId) (.error e) .ended
  | cached {rows : List (String × StepResult)} {output : Option Json} {o : RunnerOp}
      {answer : RunnerIface.Answer o} (plain : o.isPlain) :
      Move p (.reading rows) o answer (.obtained output)
  | executed {rows : List (String × StepResult)} {step : Json} {context : RuntimeContext}
      {output : Option Json} (same : context.steps = stepsContext rows) :
      Move p (.reading rows) (.executeStep step context) (.ok output) (.obtained output)
  | threw {rows : List (String × StepResult)} {step : Json} {context : RuntimeContext}
      {e : Thrown} (same : context.steps = stepsContext rows) :
      Move p (.reading rows) (.executeStep step context) (.error e) .ended
  | stored {output : Option Json} {row : StepResult}
      {answer : RunnerIface.Answer (.createStepResult row)}
      (value : row.output = storedOutput output) :
      Move p (.obtained output) (.createStepResult row) answer .ended

section Follows

variable {rt : Runtime} {p : WorkflowExecutionJobPayload} {α : Type} {f : Flow}
  {Q : Except Thrown α → Flow → Prop}

theorem follows_plain {program : Prog RunnerIface α} (plain : program.Within Plain)
    (exit : ∀ result, Q result f) : program.Follows (Flow.Move p) Q f := by
  induction program with
  | pure a => exact exit (.ok a)
  | throw e => exact exit (.error e)
  | op o k ih => exact fun answer => ⟨f, .plain plain.1, ih answer (plain.2 answer)⟩

theorem follows_plain_bind {o : RunnerOp} {rest : o.Result → Prog RunnerIface α}
    (plain : o.isPlain) (next : ∀ r, (rest r).Follows (Flow.Move p) Q f)
    (fault : ∀ e, Q (.error e) f) : (await o >>= rest).Follows (Flow.Move p) Q f :=
  Prog.Follows.performBind (I := RunnerIface) (fun r => ⟨f, .plain plain, next r⟩)
    fun e => ⟨f, .plain plain, fault e⟩

theorem within_bind {A : RunnerOp → Prop} {o : RunnerOp} {rest : o.Result → Prog RunnerIface α}
    (first : A o) (next : ∀ r, (rest r).Within A) : (await o >>= rest).Within A :=
  Prog.Within.bind (Prog.Within.perform (I := RunnerIface) first) next

theorem failExecution_plain {executionId message : String} :
    (failExecution executionId message).Within Plain :=
  within_bind rfl fun _ => Prog.Within.perform (I := RunnerIface) rfl

theorem enqueueSuccessors_plain {workflow : Definition} {delay : Option Number}
    (transitions : List WorkflowTransition) :
    (enqueueSuccessors p workflow delay transitions).Within Plain := by
  induction transitions with
  | nil => trivial
  | cons transition transitions ih =>
      simp only [enqueueSuccessors]
      split
      · exact ih
      · exact within_bind rfl fun _ => within_bind rfl fun _ => ih

theorem advanceExecution_plain {c : JobContext} {output : Option Json} :
    (advanceExecution p c output).Within Plain := by
  refine within_bind rfl fun _ => ?_
  split
  · exact within_bind rfl fun _ => within_bind rfl fun _ =>
      Prog.Within.perform (I := RunnerIface) rfl
  · exact enqueueSuccessors_plain _

theorem finishFailed_plain {c : JobContext} {e : Thrown} :
    (finishFailed p c e).Within Plain :=
  within_bind rfl fun _ => within_bind rfl fun _ => Prog.Within.perform (I := RunnerIface) rfl

theorem recoverStep_plain {c : JobContext} {hash : String} {now : Int} {e : Thrown} :
    (recoverStep p c hash now e).Within Plain := by
  refine within_bind rfl fun _ => ?_
  by_cases attempt : p.attempt < MAX_ATTEMPTS
  · simp only [attempt]
    exact Prog.Within.perform (I := RunnerIface) rfl
  · by_cases onError : c.step.onError = .CONTINUE
    · cases fallbacks : nextTransitions c.workflow c.step (some .null) true with
      | nil =>
          simp only [attempt, onError, if_true]
          exact finishFailed_plain
      | cons transition transitions =>
          simp only [attempt, onError, if_true]
          exact enqueueSuccessors_plain _
    · simp only [attempt, onError, if_false]
      exact finishFailed_plain

theorem consumeSharedAgentBudget_plain {tenantId : String} :
    (consumeSharedAgentBudget tenantId).Within Plain := by
  refine within_bind rfl fun record => ?_
  cases record with
  | none => trivial
  | some q =>
      by_cases reached : q.count ≥ q.limit
      · simp only [reached]
        trivial
      · simp only [reached]
        exact Prog.Within.perform (I := RunnerIface) rfl

/-- Where a delivery is after looking for a cached output. -/
theorem findCachedOutput_flows {step : WorkflowStep} {hash : String}
    {rows : List (String × StepResult)} :
    (findCachedOutput p step hash).Follows (Flow.Move p) (fun
      | .ok (some output), f => f = .obtained (some output)
      | .ok none, f => f = .reading rows
      | .error _, _ => True) (.reading rows) := by
  simp only [findCachedOutput]
  split
  · refine follows_plain_bind rfl (fun now => ?_) fun _ => trivial
    refine Prog.Follows.performBind (I := RunnerIface) (fun candidates => ?_)
      fun e => ⟨_, .plain rfl, trivial⟩
    cases candidates.find? (isCacheHit hash) with
    | none => exact ⟨_, .plain rfl, rfl⟩
    | some row => exact ⟨_, .cached rfl, rfl⟩
  · rfl

/-- The exit of obtaining an output. -/
def Obtains : Except Thrown (Option Json) → Flow → Prop
  | .ok output, f => f = .obtained output
  | .error _, _ => True

theorem obtainOutput_flows {step : WorkflowStep} {parsedStep : Json} {hash : String}
    {rows : List (String × StepResult)} :
    (obtainOutput p step parsedStep (stepsContext rows) hash).Follows (Flow.Move p) Obtains
      (.reading rows) := by
  refine Prog.Follows.bind (Prog.Follows.mono (fun result f exit => ?_) findCachedOutput_flows)
  match result, exit with
  | .error e, _ => trivial
  | .ok (some output), exit => exact exit
  | .ok none, exit =>
      obtain rfl : f = .reading rows := exit
      have executes : ∀ context : RuntimeContext, context.steps = stepsContext rows →
          (await (.executeStep parsedStep context)).Follows (Flow.Move p) Obtains
            (.reading rows) := by
        refine fun context same => Prog.Follows.perform (I := RunnerIface) fun answer => ?_
        cases answer with
        | ok output => exact ⟨_, .executed same, rfl⟩
        | error e => exact ⟨_, .threw same, trivial⟩
      by_cases agent : step.type = .AGENT_EXECUTE
      · simp only [Prog.bindPost, agent]
        refine Prog.Follows.bind (follows_plain consumeSharedAgentBudget_plain fun result => ?_)
        cases result with
        | ok _ => exact executes _ rfl
        | error e => trivial
      · simp only [Prog.bindPost, agent]
        exact executes _ rfl

theorem attemptStep_flows {c : JobContext} {parsedStep : Json} {hash : String} {now : Int}
    {rows : List (String × StepResult)} :
    (attemptStep rt p c parsedStep (stepsContext rows) hash now).Follows (Flow.Move p)
      (fun _ _ => True) (.reading rows) := by
  refine Prog.Follows.bind (Prog.Follows.mono (fun result f exit => ?_) obtainOutput_flows)
  cases result with
  | error e => trivial
  | ok output =>
      obtain rfl : f = .obtained output := exit
      exact Prog.Follows.performBind (I := RunnerIface)
        (fun _ => ⟨_, .stored outputResult_output, follows_plain advanceExecution_plain
          fun _ => trivial⟩)
        fun _ => ⟨_, .stored outputResult_output, trivial⟩

theorem processExecutionJob_flows :
    (processExecutionJob rt p).Follows (Flow.Move p) (fun _ _ => True) .early := by
  refine follows_plain_bind rfl (fun execution => ?_) fun _ => trivial
  split
  · trivial
  · split
    · trivial
    · refine follows_plain_bind rfl (fun workflow => ?_) fun _ => trivial
      split
      · exact follows_plain failExecution_plain fun _ => trivial
      · split
        · exact follows_plain failExecution_plain fun _ => trivial
        · split
          · exact follows_plain failExecution_plain fun _ => trivial
          · refine Prog.Follows.performBind (I := RunnerIface) (fun rows => ⟨_, .read, ?_⟩)
              fun e => ⟨_, .unread, trivial⟩
            refine Prog.Follows.bind (follows_plain Prog.Within.ofExcept fun parsed => ?_)
            cases parsed with
            | error e => trivial
            | ok parsedStep =>
                refine follows_plain_bind rfl (fun now => ?_) fun _ => trivial
                refine Prog.Follows.tryCatch
                  (Prog.Follows.mono (fun result f exit => ?_) attemptStep_flows)
                cases result with
                | ok _ => trivial
                | error e => exact follows_plain recoverStep_plain fun _ => trivial

end Follows

/-- How the jobs of the engine read and return data. -/
def flows (rt : Runtime) : Discipline RunnerIface Delivery Unit :=
  movesDiscipline (engine rt) (fun _ => .early) (fun delivery => Flow.Move delivery.payload)
    fun _ _ _ => True

theorem engine_flows (rt : Runtime) (delivery : Delivery) :
    ((engine rt).program delivery).Follows ((flows rt).step delivery)
      ((flows rt).ends delivery) ((flows rt).start delivery) :=
  @Prog.Follows.marked RunnerIface Delivery Unit Flow (fun delivery => Flow.Move delivery.payload)
    (fun _ _ _ => True) delivery _ _ processExecutionJob_flows

/-! ## What has been read and returned -/

def HasRead (trace : List (Event RunnerIface)) (j : Nat) (x : String)
    (rows : List (String × StepResult)) : Prop :=
  (⟨j, .findStepResults x, .ok rows⟩ : Event RunnerIface) ∈ trace

/-- What delivery `i` has read, executed and stored. -/
def FlowHistory (trace : List (Event RunnerIface)) (i : Nat) (p : WorkflowExecutionJobPayload) :
    Flow → Prop
  | .early => (∀ x rows, ¬ HasRead trace i x rows) ∧ (∀ output, ¬ Executed trace i output) ∧
      ∀ row, ¬ Recorded trace i row
  | .reading rows => (∀ x rows', HasRead trace i x rows' → x = p.executionId ∧ rows' = rows) ∧
      (∀ output, ¬ Executed trace i output) ∧ ∀ row, ¬ Recorded trace i row
  | .obtained output => (∀ output', Executed trace i output' → output' = output) ∧
      ∀ row, ¬ Recorded trace i row
  | .ended => ∀ output row, Executed trace i output → Recorded trace i row →
      row.output = storedOutput output

section Traces

variable {trace trace' : List (Event RunnerIface)} {i : Nat} {p : WorkflowExecutionJobPayload}
  {f f' : Flow} {o : RunnerOp} {answer : RunnerIface.Answer o} {event : Event RunnerIface}
  {x : String} {rows : List (String × StepResult)}

theorem hasRead_cons : HasRead (event :: trace) i x rows ↔
    event = ⟨i, .findStepResults x, .ok rows⟩ ∨ HasRead trace i x rows := by
  rw [HasRead, List.mem_cons, eq_comm]
  rfl

theorem hasRead_cons_of_ne (other : ∀ x, o ≠ .findStepResults x) :
    HasRead (⟨i, o, answer⟩ :: trace) i x rows ↔ HasRead trace i x rows := by
  rw [hasRead_cons]
  refine or_iff_right ?_
  rintro same
  cases same
  exact other x rfl

theorem FlowHistory.congr (history : FlowHistory trace i p f)
    (read : ∀ x rows, HasRead trace' i x rows ↔ HasRead trace i x rows)
    (executed : ∀ output, Executed trace' i output ↔ Executed trace i output)
    (recorded : ∀ row, Recorded trace' i row ↔ Recorded trace i row) :
    FlowHistory trace' i p f := by
  cases f <;> simp only [FlowHistory, read, executed, recorded] at history ⊢ <;> exact history

theorem FlowHistory.other (history : FlowHistory trace i p f) (foreign : event.actor ≠ i) :
    FlowHistory (event :: trace) i p f := by
  refine history.congr (fun x rows => ?_) (fun output => ?_) (fun row => ?_)
  · rw [hasRead_cons]
    refine or_iff_right ?_
    rintro rfl
    exact foreign rfl
  · rw [executed_cons]
    refine or_iff_right ?_
    rintro ⟨step, context, rfl⟩
    exact foreign rfl
  · rw [recorded_cons]
    refine or_iff_right ?_
    rintro ⟨rfl, _⟩
    exact foreign rfl

theorem FlowHistory.fresh (unseen : ∀ event ∈ trace, event.actor ≠ i) :
    FlowHistory trace i p .early :=
  ⟨fun _ _ there => unseen _ there rfl, fun _ ⟨_, _, there⟩ => unseen _ there rfl,
    fun _ ⟨there, _⟩ => unseen _ there rfl⟩

/-- A plain operation is part of no history. -/
theorem FlowHistory.plain (plain : Plain o) (history : FlowHistory trace i p f) :
    FlowHistory (⟨i, o, answer⟩ :: trace) i p f := by
  refine history.congr (fun x rows => hasRead_cons_of_ne ?_)
    (fun output => executed_cons_of_ne ?_) (fun row => ?_)
  · rintro x rfl
    cases plain
  · rintro step context rfl
    cases plain
  · rw [recorded_cons]
    refine or_iff_right ?_
    rintro ⟨same, succeeded⟩
    cases same
    exact succeeded (by simpa [Plain, RunnerOp.isPlain] using plain)

theorem FlowHistory.move (history : FlowHistory trace i p f) (move : Flow.Move p f o answer f') :
    FlowHistory (⟨i, o, answer⟩ :: trace) i p f' := by
  cases move with
  | plain plain => exact history.plain plain
  | read =>
      refine ⟨fun x rows' read => ?_, fun output executed => ?_, fun row recorded => ?_⟩
      · rcases hasRead_cons.mp read with same | before
        · cases same
          exact ⟨rfl, rfl⟩
        · exact (history.1 x rows' before).elim
      · rw [executed_cons_of_ne (by simp)] at executed
        exact history.2.1 output executed
      · rw [recorded_cons_of_ne (by simp)] at recorded
        exact history.2.2 row recorded
  | unread =>
      intro output row executed
      rw [executed_cons_of_ne (by simp)] at executed
      exact (history.2.1 output executed).elim
  | cached plain =>
      have kept : FlowHistory (⟨i, o, answer⟩ :: trace) i p (.reading _) := history.plain plain
      exact ⟨fun output' executed => (kept.2.1 output' executed).elim, kept.2.2⟩
  | executed =>
      refine ⟨fun output' executed => ?_, fun row recorded => ?_⟩
      · rcases executed_cons.mp executed with ⟨step, context, same⟩ | before
        · cases same
          rfl
        · exact (history.2.1 output' before).elim
      · rw [recorded_cons_of_ne (by simp)] at recorded
        exact history.2.2 row recorded
  | threw =>
      intro output row executed recorded
      rw [recorded_cons_of_ne (by simp)] at recorded
      exact (history.2.2 row recorded).elim
  | stored value =>
      intro output row executed recorded
      rw [executed_cons_of_ne (by simp)] at executed
      rcases recorded_cons.mp recorded with ⟨same, _⟩ | before
      · cases same
        rw [history.1 output executed]
        exact value
      · exact (history.2 row before).elim

end Traces

/-! ## The invariant -/

theorem Store.stepKey_congr {store store' : Store} (workflows : store'.workflows = store.workflows) :
    store'.stepKey = store.stepKey := by
  funext stepId
  rw [Store.stepKey, Store.stepKey, workflows]

/-- The rows of an execution as a job reads them. -/
def readRows (store : Store) (x : String) (rows : List StepResult) : List (String × StepResult) :=
  (rows.filter (·.executionId = x)).map fun r => (store.stepKey r.stepId, r)

theorem Store.handle_findStepResults {store store' : Store} {choice : Choice} {x : String}
    {rows : List (String × StepResult)}
    (answered : store.handle (.findStepResults x) choice = (.ok rows, store')) :
    rows = readRows store x store.stepResults := by
  have performed := Prod.mk.inj (handle_ok (o := .findStepResults x) answered)
  exact (Except.ok.inj performed.1).symm

/-- The rows of a store are those before and what an operation of a job appends. -/
theorem Store.handle_appends {store store' : Store} {choice : Choice} {o : RunnerOp}
    {answer : RunnerIface.Answer o} (uncreated : ∀ payload, o ≠ .createExecution payload)
    (answered : store.handle o choice = (answer, store')) :
    (∃ added, store'.stepResults = store.stepResults ++ added) ∧
      store'.workflows = store.workflows := by
  rcases handle_cases uncreated answered with
    rfl | ⟨quotas, rfl⟩ | ⟨id, data, _, rfl⟩ | ⟨row, _, _, _, rfl⟩ | ⟨payload, options, _, _, rfl⟩
  · exact ⟨⟨[], by simp⟩, rfl⟩
  · exact ⟨⟨[], by simp⟩, rfl⟩
  · exact ⟨⟨[], by simp [updateExecution]⟩, rfl⟩
  · exact ⟨⟨[row], rfl⟩, rfl⟩
  · unfold addJob
    split <;> exact ⟨⟨[], by simp⟩, rfl⟩

/-- A delivery at its flow. -/
abbrev Flows : Type := World RunnerIface Delivery Store (Marked Flow)

/-- What jobs have read is a first part of the rows stored, with all that were there. -/
structure FlowInv (definitions : List Definition) (b : Flows) : Prop where
  workflows : b.store.workflows = definitions
  actors : ∀ event ∈ b.trace, event.actor < b.threads.length
  rows : ∀ {i : Nat} {row : StepResult} {r : Unit},
    (⟨i, .createStepResult row, .ok r⟩ : Event RunnerIface) ∈ b.trace → row ∈ b.store.stepResults
  snapshot : ∀ {j : Nat} {x : String} {rows : List (String × StepResult)},
    HasRead b.trace j x rows → ∃ earlier later, b.store.stepResults = earlier ++ later ∧
      rows = readRows b.store x earlier
  seen : ∀ {i j : Nat} {x : String} {rows : List (String × StepResult)} {row : StepResult},
    List.Sublist [⟨j, .findStepResults x, .ok rows⟩, ⟨i, .createStepResult row, .ok ()⟩] b.trace →
      row.executionId = x → row ∈ rows.map Prod.snd
  history : ∀ {i : Nat} {u : Thread Delivery (Marked Flow)}, b.threads[i]? = some u →
    FlowHistory b.trace i u.tag.payload u.body.stage

section Invariant

variable {rt : Runtime} {b : Flows} {i : Nat} {u : Thread Delivery (Marked Flow)} {o : RunnerOp}
  {choice : Choice} {answer : RunnerIface.Answer o} {store : Store} {s' : Marked Flow}
  {definitions : List Definition}

theorem Flow.Move.uncreated {p : WorkflowExecutionJobPayload} {f f' : Flow}
    (move : Flow.Move p f o answer f') : ∀ payload, o ≠ .createExecution payload := by
  rintro payload rfl
  cases move with
  | plain plain => cases plain
  | cached plain => cases plain

theorem FlowInv.run (inv : FlowInv definitions b) (there : b.threads[i]? = some u)
    (answered : b.store.handle o choice = (answer, store))
    (move : Flow.Move u.tag.payload u.body.stage o answer s'.stage) :
    FlowInv definitions (b.advance i s' store ⟨i, o, answer⟩) := by
  obtain ⟨⟨added, appended⟩, workflows⟩ := Store.handle_appends move.uncreated answered
  have keys := Store.stepKey_congr workflows
  constructor
  case workflows => exact workflows.trans inv.workflows
  case actors =>
    intro event inside
    rw [World.advance_length]
    rcases List.mem_cons.mp inside with rfl | before
    · exact (List.getElem?_eq_some_iff.mp there).1
    · exact inv.actors event before
  case rows =>
    intro j row r inside
    rw [World.advance_store]
    rcases List.mem_cons.mp inside with same | before
    · cases same
      obtain ⟨_, rfl⟩ := Store.handle_createStepResult answered
      exact List.mem_append_right _ (List.mem_singleton.mpr rfl)
    · rw [appended]
      exact List.mem_append_left _ (inv.rows before)
  case snapshot =>
    intro j x rows read
    rw [World.advance_store]
    rcases hasRead_cons.mp read with same | before
    · cases same
      have unchanged : store = b.store :=
        Store.handle_read (o := .findStepResults x) rfl answered
      refine ⟨b.store.stepResults, [], by rw [unchanged, List.append_nil], ?_⟩
      rw [unchanged]
      exact Store.handle_findStepResults answered
    · obtain ⟨earlier, later, split, same⟩ := inv.snapshot before
      refine ⟨earlier, later ++ added, by rw [appended, split, List.append_assoc], ?_⟩
      rw [same, readRows, readRows, keys]
  case seen =>
    intro k j x rows row ordered own
    rw [World.advance_trace] at ordered
    cases ordered with
    | cons _ before => exact inv.seen before own
    | cons_cons _ before =>
        have inside := inv.rows (List.singleton_sublist.mp before)
        rw [Store.handle_findStepResults answered, readRows, List.map_map]
        refine List.mem_map.mpr ⟨row, ?_, rfl⟩
        simpa [own] using inside
  case history =>
    intro j v after
    rcases World.advance_cases there after with ⟨rfl, rfl⟩ | ⟨other, before⟩
    · exact (inv.history there).move move
    · exact (inv.history before).other (Ne.symm other)

theorem FlowInv.env {event : Outside} {c : Change Delivery Store} {start : Delivery → Marked Flow}
    (inv : FlowInv definitions b) (early : ∀ delivery, (start delivery).stage = .early)
    (changed : outside event b.store (b.threads.map (Thread.map Marked.outcome)) = some c) :
    FlowInv definitions (b.change start c) := by
  obtain ⟨workflows, results⟩ := outside_frame changed
  have keys := Store.stepKey_congr workflows
  constructor
  case workflows => exact workflows.trans inv.workflows
  case actors =>
    intro event inside
    rw [World.change_length]
    exact Nat.lt_of_lt_of_le (inv.actors event inside) (Nat.le_add_right _ _)
  case rows =>
    intro j row r inside
    rw [World.change_store, results]
    exact inv.rows inside
  case snapshot =>
    intro j x rows read
    obtain ⟨earlier, later, split, same⟩ := inv.snapshot read
    refine ⟨earlier, later, results.trans split, ?_⟩
    rw [World.change_store, same, readRows, readRows, keys]
  case seen => exact inv.seen
  case history =>
    intro j v after
    rcases World.change_cases after with ⟨t, before, rfl⟩ | ⟨tag, beyond, _, rfl⟩
    · have held := inv.history before
      exact held
    · show FlowHistory _ _ _ (start tag).stage
      rw [early]
      refine FlowHistory.fresh fun event inside same => ?_
      have bound := inv.actors event inside
      omega

theorem FlowInv.of_run {w₀ w : Engine} (traceless : w₀.trace = []) (threadless : w₀.threads = [])
    (reached : (engine rt).Run (fun _ _ => True) w₀ w) :
    ∃ b, (flows rt).Refines w b ∧ FlowInv w₀.store.workflows b := by
  have first : (flows rt).Refines w₀ ⟨w₀.store, [], []⟩ :=
    ⟨rfl, traceless.symm, by rw [threadless]; rfl, by simp [threadless]⟩
  refine System.Run.invariant (engine_flows rt)
    (fun inv _ _ _ _ there answered step => inv.run there (Option.some.inj answered) step.2)
    (fun inv _ _ changed => inv.env (fun _ => rfl) changed) first ?_ reached
  exact {
    workflows := rfl
    actors := by simp
    rows := fun inside => nomatch inside
    snapshot := fun read => nomatch read
    seen := fun ordered => nomatch ordered
    history := fun there => nomatch there }

end Invariant

/-! ## Every run -/

section Runs

variable {rt : Runtime} {workflow : Definition} {x : String} {w : Engine} {store : Store}
  {rows : List (String × StepResult)}

/-- A delivery that is about to execute a step does so in the context of the rows it has read. -/
theorem context_of_pending {b : Flows} {j : Nat} {t : Thread Delivery (Prog RunnerIface Unit)}
    {step : Json} {context : RuntimeContext} (refines : (flows rt).Refines w b)
    (found : w.threads[j]? = some t) (pending : t.body.pending = some (.executeStep step context)) :
    ∃ v rows, b.threads[j]? = some v ∧ v.body.stage = .reading rows ∧
      context.steps = stepsContext rows := by
  obtain ⟨v, there, _, _, follows⟩ := refines.stage_of_thread found
  refine ⟨v, ?_⟩
  cases body : t.body with
  | pure r =>
      rw [body] at pending
      cases pending
  | throw e =>
      rw [body] at pending
      cases pending
  | op o k =>
      rw [body] at pending follows
      cases Option.some.inj pending
      obtain ⟨s', ⟨_, move⟩, _⟩ := follows (.error (error ""))
      generalize stage : v.body.stage = f at move
      generalize s'.stage = f' at move
      cases move with
      | plain plain => cases plain
      | cached plain => cases plain
      | threw same => exact ⟨_, there, rfl, same⟩

/-- The key of a stored step, whose id is the one of no other step. -/
theorem Store.stepKey_of_mem {step : WorkflowStep}
    (primary : ((store.workflows.flatMap (·.steps)).map (·.id)).Nodup)
    (stored : workflow ∈ store.workflows) (known : step ∈ workflow.steps) :
    store.stepKey step.id = step.key := by
  have inside : step ∈ store.workflows.flatMap (·.steps) :=
    List.mem_flatMap.mpr ⟨workflow, stored, known⟩
  have some : ((store.workflows.flatMap (·.steps)).find? (·.id = step.id)).isSome := by
    rw [List.find?_isSome]
    exact ⟨step, inside, by simp⟩
  obtain ⟨found, hit⟩ := Option.isSome_iff_exists.mp some
  have one : found = step := List.inj_on_of_nodup_map primary (List.mem_of_find?_eq_some hit) inside
    (by simpa using List.find?_some hit)
  rw [Store.stepKey, hit, one]
  rfl

/-- The entry of a step is that of its last row. -/
theorem stepsContext_entry {key : String} {result : StepResult}
    {before after : List (String × StepResult)} (last : ∀ e ∈ after, e.1 ≠ key) :
    ((stepsContext (before ++ (key, result) :: after)).member key).bind (·.member "output") =
      some result.output := by
  rw [stepsContext, List.map_append, List.map_cons, Json.member_fromEntries]
  · rfl
  · intro e inside
    obtain ⟨e', inside', rfl⟩ := List.mem_map.mp inside
    exact last e' inside'

/-- What the context of a later step has for the step of an earlier one. -/
theorem Passes.output {source : WorkflowStep} {i j : Nat} {output : Option Json}
    {context : RuntimeContext} (keys : (workflow.steps.map (·.key)).Nodup)
    (primary : ((store.workflows.flatMap (·.steps)).map (·.id)).Nodup)
    (begun : Begun store workflow x) (reached : (engine rt).Run (fun _ _ => True) (idle store) w)
    (known : source ∈ workflow.steps) (passes : Passes x source w i j output context) :
    context.output source.key = some (storedOutput output) := by
  have first : (stages rt).Refines (idle store) ⟨store, [], []⟩ := ⟨rfl, rfl, rfl, by simp [idle]⟩
  obtain ⟨a, refines, attempts⟩ : ∃ a, (stages rt).Refines w a ∧ AttemptInv workflow x a :=
    System.Run.invariant (engine_follows rt)
      (fun inv _ _ _ _ there answered step => inv.run there (Option.some.inj answered) step)
      (fun inv _ _ changed => inv.env changed) first (.of_begun begun) reached
  obtain ⟨b, flowing, inv⟩ := FlowInv.of_run rfl rfl reached
  obtain ⟨t, step, found, pending⟩ := passes.executes
  obtain ⟨row, rows, own, stepId, succeeded, ordered⟩ := passes.stored
  obtain ⟨v, rows', there, stage, context'⟩ := context_of_pending flowing found pending
  rw [← flowing.trace] at ordered
  have read : HasRead b.trace j x rows := ordered.subset List.mem_cons_self
  have stored : Recorded b.trace i row := ⟨ordered.subset (by simp), succeeded⟩
  -- The rows read are those of the context, and the result is among them.
  have reading := inv.history there
  rw [stage] at reading
  obtain ⟨_, rfl⟩ := reading.1 x rows read
  obtain ⟨earlier, later, split, same⟩ := inv.snapshot read
  have seen := inv.seen ordered own
  rw [same, readRows, List.map_map, List.mem_map] at seen
  obtain ⟨row', inside, equal⟩ := seen
  obtain rfl : row' = row := equal
  -- The delivery that returned the output has stored it.
  have value : row'.output = storedOutput output := by
    have returned := passes.returned
    rw [← flowing.trace] at returned
    obtain ⟨u, source'⟩ : ∃ u, b.threads[i]? = some u :=
      ⟨_, List.getElem?_eq_getElem (inv.actors _ stored.1)⟩
    have history := inv.history source'
    generalize u.body.stage = f at history
    cases f with
    | early => exact (history.2.2 _ stored).elim
    | reading _ => exact (history.2.2 _ stored).elim
    | obtained _ => exact (history.2 _ stored).elim
    | ended => exact history output row' returned stored
  -- No later row is of the same step.
  have key : ∀ step ∈ workflow.steps, b.store.stepKey step.id = step.key := fun step known =>
    Store.stepKey_of_mem (inv.workflows ▸ primary)
      (inv.workflows ▸ List.mem_of_find?_eq_some begun.stored) known
  obtain ⟨before, after, parts⟩ := List.append_of_mem inside
  have last : ∀ e ∈ after.map (fun r => (b.store.stepKey r.stepId, r)), e.1 ≠ source.key := by
    intro e there' sameKey
    obtain ⟨r, later', rfl⟩ := List.mem_map.mp there'
    have ours : r ∈ earlier ∧ r.executionId = x := by
      have within : r ∈ earlier.filter (·.executionId = x) := by
        rw [parts]
        exact List.mem_append_right _ (List.mem_cons_of_mem _ later')
      simpa using within
    have final := attempts.final
    rw [refines.store, ← flowing.store, split] at final
    have inOrder : List.Sublist [row', r] (earlier ++ later) := by
      have filtered : List.Sublist [row', r] (earlier.filter (·.executionId = x)) := by
        rw [parts]
        exact List.Sublist.trans
          (List.Sublist.cons_cons _ (List.singleton_sublist.mpr later'))
          (List.sublist_append_right _ _)
      exact (filtered.trans List.filter_sublist).trans (List.sublist_append_left _ _)
    have pair := final.sublist inOrder
    rw [List.pairwise_cons] at pair
    have failed := pair.1 r (by simp) own ours.2
    obtain ⟨step', known', id⟩ := attempts.steps r (by
      rw [refines.store, ← flowing.store, split]
      exact List.mem_append_left _ ours.1) ours.2
    simp only [id, key step' known'] at sameKey
    have one : step' = source := List.inj_on_of_nodup_map keys known' known sameKey
    exact succeeded (failed (by rw [stepId, id, one]))
  rw [RuntimeContext.output, context', same, readRows, parts, List.map_append, List.map_cons,
    stepId, key source known, stepsContext_entry last, value]

/-- A later step finds an output as it was returned, or `null` if it was too large. -/
theorem hands_storedOutput (keys : (workflow.steps.map (·.key)).Nodup)
    (primary : ((store.workflows.flatMap (·.steps)).map (·.id)).Nodup)
    (begun : Begun store workflow x) : Hands rt (idle store) workflow x storedOutput :=
  fun _ _ _ _ _ _ reached known passes => passes.output keys primary begun reached known

end Runs

/-! ### A small and a large output -/

/-- An event of the first kind follows one of the second kind; the newest event is first. -/
def follows (first second : Event RunnerIface → Bool) : List (Event RunnerIface) → Bool
  | [] => false
  | event :: older => (first event && older.any second) || follows first second older

theorem follows_spec {first second : Event RunnerIface → Bool} {trace : List (Event RunnerIface)}
    (holds : follows first second trace = true) :
    ∃ e e', first e = true ∧ second e' = true ∧ List.Sublist [e, e'] trace := by
  induction trace with
  | nil => cases holds
  | cons event older ih =>
      simp only [follows, Bool.or_eq_true, Bool.and_eq_true] at holds
      rcases holds with ⟨now, earlier⟩ | later
      · obtain ⟨e', inside, holds'⟩ := List.any_eq_true.mp earlier
        exact ⟨event, e', now, holds', List.Sublist.cons_cons _ (List.singleton_sublist.mpr inside)⟩
      · obtain ⟨e, e', now, before, ordered⟩ := ih later
        exact ⟨e, e', now, before, ordered.cons _⟩

/-- The trigger of the line returns `output`, and the leaf is about to be executed. -/
def linePass (output : Json) : List (Act Choice Outside) :=
  deliver 0 ++ List.replicate 9 (.run 0 { time := 7, result := .ok (some output) }) ++ settle 0 ++
    deliver 1 ++ operate 1 4 8

def readsLine : Event RunnerIface → Bool
  | ⟨j, .findStepResults id, .ok _⟩ => decide (j = 1) && decide (id = "x")
  | _ => false

def storesTrigger : Event RunnerIface → Bool
  | ⟨i, .createStepResult row, .ok _⟩ => decide (i = 0) && decide (row.executionId = "x") &&
      decide (row.stepId = lineTrigger.id) && decide (row.status ≠ .FAILED)
  | _ => false

/-- The trigger has returned an output and stored its result before the leaf has read it. -/
def hasPassed (w : Engine) : Bool :=
  (w.trace.any fun
    | ⟨i, .executeStep _ _, .ok _⟩ => decide (i = 0)
    | _ => false) &&
  follows readsLine storesTrigger w.trace &&
  ((w.threads[1]?).bind (·.body.pending)).any fun
    | .executeStep _ _ => true
    | _ => false

/-- Delivery `0` only ever returns what its acts say. -/
theorem executed_of_acts {rt : Runtime} {store : Store} {w : Engine} {output : Json}
    {other : Option Json}
    (reached : (engine rt).Run (fun _ act => ∀ choice, act = .run 0 choice →
      choice.result = .ok (some output)) (idle store) w)
    (executed : Executed w.trace 0 other) : other = some output := by
  induction reached with
  | refl =>
      obtain ⟨_, _, inside⟩ := executed
      cases inside
  | @step w w' act _ allowed taken ih =>
      cases act with
      | env event =>
          obtain ⟨c, _, rfl⟩ := System.step_env taken
          exact ih executed
      | run i choice =>
          obtain ⟨t, o, k, answer, store', _, _, answered, rfl⟩ := System.step_run taken
          obtain ⟨step, context, inside⟩ := executed
          rcases List.mem_cons.mp inside with same | before
          · cases same
            have result := (Store.handle_executeStep (Option.some.inj answered)).2.1
            rw [allowed choice rfl] at result
            exact (Except.ok.inj result).symm
          · exact ih ⟨step, context, before⟩

theorem passes_of_hasPassed {output : Json}
    (evaluated : ((engine plainRuntime).execute (fun _ _ => true) lineStart
      (linePass output)).any hasPassed = true) :
    ∃ w context, (engine plainRuntime).Run (fun _ _ => True) lineStart w ∧
      Passes "x" lineTrigger w 0 1 (some output) context := by
  obtain ⟨w, executed, checked⟩ := (Option.any_eq_true _ _).mp evaluated
  have within : ∀ act ∈ linePass output, ∀ choice, act = .run 0 choice →
      choice.result = .ok (some output) := by
    intro act inside choice same
    subst same
    simp only [linePass, deliver, settle, operate, List.mem_append, List.mem_singleton,
      List.mem_replicate, reduceCtorEq, Act.run.injEq, false_or, or_false, and_false,
      zero_ne_one, false_and, ne_eq] at inside
    rw [inside.2.2]
  have returns := System.Run.of_execute_acts within executed
  have reached : (engine plainRuntime).Run (fun _ _ => True) lineStart w :=
    System.Run.of_execute (fun _ _ _ => trivial) executed
  simp only [hasPassed, Bool.and_eq_true] at checked
  obtain ⟨⟨returned, ordered⟩, pending⟩ := checked
  obtain ⟨o, awaited, isExecute⟩ := (Option.any_eq_true _ _).mp pending
  obtain ⟨t, found, body⟩ := Option.bind_eq_some_iff.mp awaited
  cases o with
  | executeStep step context =>
      refine ⟨w, context, reached, ?_, ?_, t, step, found, body⟩
      · obtain ⟨event, inside, passes⟩ := List.any_eq_true.mp returned
        split at passes
        · rename_i step' context' other
          rw [decide_eq_true_eq] at passes
          subst passes
          have one := executed_of_acts returns ⟨step', context', inside⟩
          exact ⟨step', context', one ▸ inside⟩
        · cases passes
      · obtain ⟨e, e', reads, stores, sublist⟩ := follows_spec ordered
        unfold readsLine at reads
        split at reads
        · unfold storesTrigger at stores
          split at stores
          · simp only [Bool.and_eq_true, decide_eq_true_eq] at reads stores
            obtain ⟨rfl, rfl⟩ := reads
            obtain ⟨⟨⟨rfl, own⟩, stepId⟩, succeeded⟩ := stores
            exact ⟨_, _, own, stepId, succeeded, sublist⟩
          · cases stores
        · cases reads
  | _ => cases isExecute

theorem lineTrigger_mem : lineTrigger ∈ lineWorkflow.steps :=
  List.mem_of_find?_eq_some (Option.some_get _).symm

theorem line_keys : (lineWorkflow.steps.map (·.key)).Nodup := by decide

theorem line_primary :
    ((lineStart.store.workflows.flatMap (·.steps)).map (·.id)).Nodup := by decide

/-- A small output of the trigger arrives at the leaf. -/
theorem line_hands : ∃ w context, (engine plainRuntime).Run (fun _ _ => True) lineStart w ∧
    Passes "x" lineTrigger w 0 1 (some (.string "order")) context ∧
    context.output lineTrigger.key = some (.string "order") := by
  have evaluated : ((engine plainRuntime).execute (fun _ _ => true) lineStart
      (linePass (.string "order"))).any hasPassed = true := by decide
  obtain ⟨w, context, reached, passes⟩ := passes_of_hasPassed evaluated
  have hands := hands_storedOutput line_keys line_primary (Started.begun lineStart_started) w
    lineTrigger 0 1 _ context reached lineTrigger_mem passes
  have small : storedOutput (some (.string "order")) = .string "order" := by
    rw [storedOutput, if_pos (by decide)]
    rfl
  exact ⟨w, context, reached, passes, hands.trans (congrArg some small)⟩

/-- A string of 204800 letters, two bytes too long with its quotation marks. -/
def longText : Json := .string (String.ofList (List.replicate OUTPUT_MAX_BYTES 'a'))

theorem utf8ByteSize_replicate (n : Nat) :
    (String.ofList (List.replicate n 'a')).utf8ByteSize = n := by
  induction n with
  | zero => rfl
  | succ n ih =>
      have one : Char.utf8Size 'a' = 1 := by decide
      rw [List.replicate_succ, String.ofList_cons, String.utf8ByteSize_append, ih,
        String.utf8ByteSize_singleton]
      omega

theorem storedOutput_longText : storedOutput (some longText) = .null := by
  have escaped : (List.replicate OUTPUT_MAX_BYTES 'a').flatMap Json.escape =
      List.replicate OUTPUT_MAX_BYTES 'a' := by
    generalize OUTPUT_MAX_BYTES = n
    induction n with
    | zero => rfl
    | succ n ih =>
        rw [List.replicate_succ, List.flatMap_cons, ih]
        rfl
  have size : longText.stringify.utf8ByteSize = OUTPUT_MAX_BYTES + 2 := by
    have marks : "\"".utf8ByteSize = 1 := by decide
    rw [longText, Json.stringify, Json.quote, String.toList_ofList, escaped,
      String.utf8ByteSize_append, String.utf8ByteSize_append, utf8ByteSize_replicate, marks]
    omega
  rw [storedOutput, Option.getD_some, size, if_neg (by omega)]

/-- A long output does not arrive: the leaf finds `null`. -/
theorem line_not_lossless : Validated lineWorkflow ∧
    Started lineStart.store lineWorkflow lineTrigger "x" ∧
    ¬ Hands plainRuntime lineStart lineWorkflow "x" (·.getD .null) := by
  refine ⟨publishedWorkflow_validated _, lineStart_started, fun lossless => ?_⟩
  have evaluated : ((engine plainRuntime).execute (fun _ _ => true) lineStart
      (linePass longText)).any hasPassed = true := by decide
  obtain ⟨w, context, reached, passes⟩ := passes_of_hasPassed evaluated
  have kept := lossless w lineTrigger 0 1 _ context reached lineTrigger_mem passes
  have hands := passes.output line_keys line_primary (Started.begun lineStart_started) reached
    lineTrigger_mem
  rw [kept, storedOutput_longText, Option.some.injEq] at hands
  cases hands

end Workflow
