import BirthHub.Workflow.Deliveries
import BirthHub.Workflow.Start

/-!
# Where a failure leads

A step may ask in its configuration to continue on error. `persistCanvas` writes the
configuration, but not the column `onError` that the runner reads, so that a step which
fails on its last attempt always fails the execution. `Aftermath` is what a delivery has
done for the routing of a failure by the stage it is at.
-/

namespace Workflow

open Data Effect

/-! ## What a delivery does with a failure -/

/-- The event adds a job, or writes or tries to write that the execution has failed. -/
def isRouting : Event RunnerIface → Bool
  | ⟨_, .addJob .., .ok _⟩ => true
  | ⟨_, .updateExecution _ data, _⟩ => data.status == some .FAILED
  | _ => false

/-- The event stores the row of a failure. -/
def isFailedRow : Event RunnerIface → Bool
  | ⟨_, .createStepResult row, .ok _⟩ => row.status == .FAILED
  | _ => false

section

variable (trace : List (Event RunnerIface)) (i : Nat)

/-- Delivery `i` has added a job of the step with this key. -/
def RoutesTo (key : String) : Prop :=
  ∃ payload options, (⟨i, .addJob payload options, .ok ()⟩ : Event RunnerIface) ∈ trace ∧
    payload.stepKey = key

/-- Delivery `i` has written that the execution has failed. -/
def FailsExecution (executionId : String) : Prop :=
  ∃ data, (⟨i, .updateExecution executionId data, .ok ()⟩ : Event RunnerIface) ∈ trace ∧
    data.status = some .FAILED

/-- The database has refused delivery `i` that write. -/
def Refused : Prop :=
  ∃ id data e, (⟨i, .updateExecution id data, .error e⟩ : Event RunnerIface) ∈ trace ∧
    data.status = some .FAILED

def Unrouted : Prop := ∀ event ∈ trace, event.actor = i → isRouting event = false

def Unfailed : Prop := ∀ event ∈ trace, event.actor = i → isFailedRow event = false

/-- Delivery `i` has failed the execution, and done nothing else about the failure. -/
def EndsFailed (executionId : String) : Prop :=
  FailsExecution trace i executionId ∧
    ∀ event ∈ trace, event.actor = i → isRouting event → ∃ id data,
      event = ⟨i, .updateExecution id data, .ok ()⟩

/-- Delivery `i` was refused that, and has done nothing else about the failure. -/
def EndsRefused : Prop :=
  Refused trace i ∧ ∀ event ∈ trace, event.actor = i → isRouting event → ∃ id data e,
    event = ⟨i, .updateExecution id data, .error e⟩

/-- What delivery `i` of a step that stops on error has done by its stage. -/
def Aftermath (store : Store) (p : WorkflowExecutionJobPayload) : Stage → Prop
  | .guard | .guarded _ | .preparing _ | .prepared _ | .trying _ | .produced .. =>
      Unfailed trace i ∧ Unrouted trace i
  | .failing => Unfailed trace i
  | .recorded c _ | .completing c | .enqueuing c _ =>
      Unfailed trace i ∧ store.hasResult p.executionId c.step.id p.attempt = true
  | .catching c => Unfailed trace i ∧
      (Unrouted trace i ∨ store.hasResult p.executionId c.step.id p.attempt = true)
  | .retrying _ => p.attempt < MAX_ATTEMPTS
  | .falling .. => False
  | .finishing _ => Unrouted trace i
  | .returned => Unfailed trace i ∨ p.attempt < MAX_ATTEMPTS ∨ EndsFailed trace i p.executionId
  | .threw => Unfailed trace i ∨ p.attempt < MAX_ATTEMPTS ∨ EndsRefused trace i

end

section Steps

variable {rt : Runtime} {p : WorkflowExecutionJobPayload} {trace : List (Event RunnerIface)}
  {i : Nat} {s s' : Stage} {o : RunnerOp} {answer : RunnerIface.Answer o}
  {event : Event RunnerIface} {store store' : Store} {choice : Choice}

theorem Unrouted.cons (unrouted : Unrouted trace i)
    (new : event.actor = i → isRouting event = false) : Unrouted (event :: trace) i := by
  intro other inside own
  rcases List.mem_cons.mp inside with rfl | before
  · exact new own
  · exact unrouted other before own

theorem Unfailed.cons (unfailed : Unfailed trace i)
    (new : event.actor = i → isFailedRow event = false) : Unfailed (event :: trace) i := by
  intro other inside own
  rcases List.mem_cons.mp inside with rfl | before
  · exact new own
  · exact unfailed other before own

theorem Unrouted.endsFailed {executionId : String} {data : ExecutionUpdate} {r : Unit}
    (unrouted : Unrouted trace i) (failed : data.status = some .FAILED) :
    EndsFailed (⟨i, .updateExecution executionId data, .ok r⟩ :: trace) i executionId := by
  refine ⟨⟨data, List.mem_cons_self, failed⟩, fun event inside own routing => ?_⟩
  rcases List.mem_cons.mp inside with rfl | before
  · exact ⟨executionId, data, rfl⟩
  · rw [unrouted event before own] at routing
    cases routing

theorem Unrouted.endsRefused {executionId : String} {data : ExecutionUpdate} {e : Thrown}
    (unrouted : Unrouted trace i) (failed : data.status = some .FAILED) :
    EndsRefused (⟨i, .updateExecution executionId data, .error e⟩ :: trace) i := by
  refine ⟨⟨executionId, data, e, List.mem_cons_self, failed⟩, fun event inside own routing => ?_⟩
  rcases List.mem_cons.mp inside with rfl | before
  · exact ⟨executionId, data, e, rfl⟩
  · rw [unrouted event before own] at routing
    cases routing

theorem Store.hasResult_mono {executionId stepId : String} {attempt : Nat}
    (results : ∀ row ∈ store.stepResults, row ∈ store'.stepResults)
    (has : store.hasResult executionId stepId attempt = true) :
    store'.hasResult executionId stepId attempt = true := by
  obtain ⟨row, there, own⟩ := List.any_eq_true.mp has
  exact List.any_eq_true.mpr ⟨row, results row there, own⟩

/-- An event of another delivery changes nothing. -/
theorem Aftermath.other (aftermath : Aftermath trace i store p s) (foreign : event.actor ≠ i)
    (results : ∀ row ∈ store.stepResults, row ∈ store'.stepResults) :
    Aftermath (event :: trace) i store' p s := by
  have unrouted : Unrouted trace i → Unrouted (event :: trace) i :=
    fun before => before.cons fun own => (foreign own).elim
  have unfailed : Unfailed trace i → Unfailed (event :: trace) i :=
    fun before => before.cons fun own => (foreign own).elim
  have older : ∀ {Q : Event RunnerIface → Prop},
      (∀ event ∈ trace, event.actor = i → isRouting event → Q event) →
      ∀ event' ∈ event :: trace, event'.actor = i → isRouting event' → Q event' := by
    intro Q before event' inside own
    rcases List.mem_cons.mp inside with rfl | old
    · exact (foreign own).elim
    · exact before event' old own
  cases s <;> simp only [Aftermath] at aftermath ⊢
  case retrying => exact aftermath
  case finishing => exact unrouted aftermath
  case failing => exact unfailed aftermath
  case catching c =>
    exact ⟨unfailed aftermath.1, aftermath.2.imp unrouted (Store.hasResult_mono results)⟩
  case recorded | completing | enqueuing =>
    exact ⟨unfailed aftermath.1, Store.hasResult_mono results aftermath.2⟩
  case returned =>
    refine aftermath.imp unfailed (Or.imp_right ?_)
    rintro ⟨⟨data, inside, failed⟩, only⟩
    exact ⟨⟨data, List.mem_cons_of_mem _ inside, failed⟩, older only⟩
  case threw =>
    refine aftermath.imp unfailed (Or.imp_right ?_)
    rintro ⟨⟨id, data, e, inside, failed⟩, only⟩
    exact ⟨⟨id, data, e, List.mem_cons_of_mem _ inside, failed⟩, older only⟩
  all_goals exact ⟨unfailed aftermath.1, unrouted aftermath.2⟩

/-- An operation that fails leads into the `catch`, or out of the job. -/
theorem Aftermath.fault {e : Thrown} (aftermath : Aftermath trace i store p s)
    (awaits : s.Awaits p o) (answered : store.handle o choice = (.error e, store')) :
    Aftermath (⟨i, o, .error e⟩ :: trace) i store p s.onFault := by
  have unrow : isFailedRow ⟨i, o, .error e⟩ = false := by cases o <;> rfl
  have unfailed : Unfailed trace i → Unfailed (⟨i, o, .error e⟩ :: trace) i :=
    fun before => before.cons fun _ => unrow
  -- Before the `catch` only the final write routes anything when it fails.
  have unrouted : isRouting ⟨i, o, .error e⟩ = false → Unrouted trace i →
      Unrouted (⟨i, o, .error e⟩ :: trace) i := fun quiet before => before.cons fun _ => quiet
  cases s with
  | guard | guarded | preparing | prepared => exact .inl (unfailed aftermath.1)
  | failing => exact .inl (unfailed aftermath)
  | trying c =>
      refine ⟨unfailed aftermath.1, .inl (unrouted ?_ aftermath.2)⟩
      rcases awaits with ⟨_, rfl | ⟨t, rfl⟩⟩ | rfl | ⟨id, rfl⟩ | ⟨step, context, rfl⟩ <;> rfl
  | produced c output =>
      refine ⟨unfailed aftermath.1, .inl (unrouted ?_ aftermath.2)⟩
      obtain ⟨row, rfl, _⟩ := awaits
      rfl
  | recorded c output => exact ⟨unfailed aftermath.1, .inr aftermath.2⟩
  | completing c => exact ⟨unfailed aftermath.1, .inr aftermath.2⟩
  | enqueuing c remaining => exact ⟨unfailed aftermath.1, .inr aftermath.2⟩
  | catching c => exact .inl (unfailed aftermath.1)
  | retrying c => exact .inr (.inl aftermath)
  | falling c remaining => exact aftermath.elim
  | finishing c =>
      rcases awaits with rfl | ⟨t, d, m, rfl⟩
      · simp [Store.handle, Store.perform] at answered
      · exact .inr (.inr (aftermath.endsRefused rfl))
  | returned => exact awaits.elim
  | threw => exact awaits.elim

theorem Aftermath.ok {r : o.Result} (stops : ∀ c, s.context = some c → c.step.onError = .STOP)
    (aftermath : Aftermath trace i store p s) (step : s.Step rt p o (.ok r) s')
    (answered : store.handle o choice = (.ok r, store')) :
    Aftermath (⟨i, o, .ok r⟩ :: trace) i store' p s' := by
  have awaits := step.awaits
  have results := Store.handle_results step.uncreated answered
  have unfailed : isFailedRow ⟨i, o, .ok r⟩ = false → Unfailed trace i →
      Unfailed (⟨i, o, .ok r⟩ :: trace) i := fun new before => before.cons fun _ => new
  have unrouted : isRouting ⟨i, o, .ok r⟩ = false → Unrouted trace i →
      Unrouted (⟨i, o, .ok r⟩ :: trace) i := fun new before => before.cons fun _ => new
  -- A delivery that has stored its output cannot store a failure.
  have single : ∀ {c : JobContext} {row : StepResult}, o = .createStepResult row → IsRow p c row →
      store.hasResult p.executionId c.step.id p.attempt ≠ true := by
    rintro c row rfl isRow has
    have fresh := (Store.handle_createStepResult answered).1
    rw [isRow.executionId, isRow.stepId, isRow.attempt, has] at fresh
    cases fresh
  cases step.2 with
  | missing => exact .inl (unfailed rfl aftermath.1)
  | cancelled => exact .inl (unfailed rfl aftermath.1)
  | admitted => exact ⟨unfailed rfl aftermath.1, unrouted rfl aftermath.2⟩
  | undefined => exact unfailed rfl aftermath.1
  | exhausted => exact unfailed rfl aftermath.1
  | unknown => exact unfailed rfl aftermath.1
  | known => exact ⟨unfailed rfl aftermath.1, unrouted rfl aftermath.2⟩
  | failed => exact .inl (unfailed rfl aftermath)
  | unparsed => exact .inl (unfailed rfl aftermath.1)
  | parsed => exact ⟨unfailed rfl aftermath.1, unrouted rfl aftermath.2⟩
  | begun => exact ⟨unfailed rfl aftermath.1, unrouted rfl aftermath.2⟩
  | clock unprepared =>
      have same : store' = store := Store.handle_read rfl answered
      subst same
      cases s <;> simp only [Aftermath] at aftermath ⊢
      case retrying => exact aftermath
      case finishing => exact unrouted rfl aftermath
      case failing => exact unfailed rfl aftermath
      case catching c => exact ⟨unfailed rfl aftermath.1, aftermath.2.imp_left (unrouted rfl)⟩
      case recorded | completing | enqueuing => exact ⟨unfailed rfl aftermath.1, aftermath.2⟩
      case returned | threw => exact awaits.elim
      all_goals exact ⟨unfailed rfl aftermath.1, unrouted rfl aftermath.2⟩
  | cacheHit => exact ⟨unfailed rfl aftermath.1, unrouted rfl aftermath.2⟩
  | cacheMiss => exact ⟨unfailed rfl aftermath.1, unrouted rfl aftermath.2⟩
  | quotaReached => exact ⟨unfailed rfl aftermath.1, .inl (unrouted rfl aftermath.2)⟩
  | quotaLeft => exact ⟨unfailed rfl aftermath.1, unrouted rfl aftermath.2⟩
  | charged => exact ⟨unfailed rfl aftermath.1, unrouted rfl aftermath.2⟩
  | executed => exact ⟨unfailed rfl aftermath.1, unrouted rfl aftermath.2⟩
  | stored =>
      obtain ⟨row, same, isRow, succeeded⟩ := awaits
      cases same
      obtain ⟨_, rfl⟩ := Store.handle_createStepResult answered
      refine ⟨unfailed (by simpa [isFailedRow] using succeeded) aftermath.1, ?_⟩
      simp [Store.hasResult, isRow.executionId, isRow.stepId, isRow.attempt]
  | leaf none =>
      exact ⟨unfailed rfl aftermath.1, Store.hasResult_mono results aftermath.2⟩
  | routed some =>
      rcases Stage.afterEnqueue_cases _ _ with ⟨_, same⟩ | ⟨_, same⟩ <;> rw [same]
      · exact .inl (unfailed rfl aftermath.1)
      · exact ⟨unfailed rfl aftermath.1, Store.hasResult_mono results aftermath.2⟩
  | completed => exact .inl (unfailed rfl aftermath.1)
  | enqueued =>
      rcases Stage.afterEnqueue_cases _ _ with ⟨_, same⟩ | ⟨_, same⟩ <;> rw [same]
      · exact .inl (unfailed rfl aftermath.1)
      · exact ⟨unfailed rfl aftermath.1, Store.hasResult_mono results aftermath.2⟩
  | retry attempt => exact attempt
  | fallback attempt onError =>
      rw [stops _ rfl] at onError
      cases onError
  | finish attempt =>
      obtain ⟨row, same, isRow, _⟩ := awaits
      exact unrouted (by cases same; rfl) (aftermath.2.resolve_right (single same isRow))
  | retried => exact .inr (.inl aftermath)
  | fell => exact aftermath.elim
  | finished =>
      rcases awaits with same | ⟨t, d, m, same⟩ <;> cases same
      exact .inr (.inr (aftermath.endsFailed rfl))

end Steps

/-! ## Every run -/

section Runs

variable {rt : Runtime} {workflow : Definition} {a : Stages} {i : Nat}
  {u : Thread Delivery Stage} {o : RunnerOp} {choice : Choice}
  {answer : RunnerIface.Answer o} {store : Store} {s' : Stage}

/-- The delivery is of a job of the workflow. -/
def Delivery.IsOf (workflow : Definition) (delivery : Delivery) : Prop :=
  delivery.payload.workflowId = workflow.id ∧ delivery.payload.tenantId = workflow.tenantId

/-- The workflow's deliveries know it and its steps, and have done what their stage says. -/
structure Informed (workflow : Definition) (a : Stages) : Prop where
  stored : a.store.workflow workflow.id workflow.tenantId = some workflow
  actors : ∀ event ∈ a.trace, event.actor < a.threads.length
  contexts : ∀ {i : Nat} {u : Thread Delivery Stage} {c : JobContext}, a.threads[i]? = some u →
    u.tag.IsOf workflow → u.body.context = some c →
    c.workflow = workflow ∧ workflow.steps.find? (·.key = u.tag.payload.stepKey) = some c.step
  aftermath : ∀ {i : Nat} {u : Thread Delivery Stage}, a.threads[i]? = some u →
    u.tag.IsOf workflow → Aftermath a.trace i a.store u.tag.payload u.body

theorem Informed.run (persisted : PersistedSteps workflow.steps) (informed : Informed workflow a)
    (there : a.threads[i]? = some u) (answered : a.store.handle o choice = (answer, store))
    (step : u.body.Step rt u.tag.payload o answer s') :
    Informed workflow (a.advance i s' store ⟨i, o, answer⟩) := by
  have workflows := (Store.handle_frame step answered).1
  have results := Store.handle_results step.uncreated answered
  constructor
  case stored =>
    rw [World.advance_store, Store.workflow, workflows]
    exact informed.stored
  case actors =>
    intro event inside
    rw [World.advance_length]
    rcases List.mem_cons.mp inside with rfl | before
    · exact (List.getElem?_eq_some_iff.mp there).1
    · exact informed.actors event before
  case contexts =>
    intro j v c there' isOf context
    rcases World.advance_cases there there' with ⟨rfl, rfl⟩ | ⟨_, before⟩
    · rcases step.context answered context with old | ⟨_, found, find⟩
      · have held := informed.contexts there isOf old
        exact held
      · rw [isOf.1, isOf.2, informed.stored] at found
        cases found
        exact ⟨rfl, find⟩
    · exact informed.contexts before isOf context
  case aftermath =>
    intro j v there' isOf
    rcases World.advance_cases there there' with ⟨rfl, rfl⟩ | ⟨other, before⟩
    · have stops : ∀ c, u.body.context = some c → c.step.onError = .STOP := fun c context =>
        persisted.onError _ (List.mem_of_find?_eq_some (informed.contexts there isOf context).2)
      cases answer with
      | ok r => exact (informed.aftermath there isOf).ok stops step answered
      | error e =>
          rw [show s' = u.body.onFault from step.2, World.advance_store,
            Store.handle_error answered]
          exact (informed.aftermath there isOf).fault step.awaits answered
    · exact (informed.aftermath before isOf).other (Ne.symm other) results

theorem outside_frame {event : Outside} {store : Store}
    {threads : List (Thread Delivery Outcome)} {c : Change Delivery Store}
    (changed : outside event store threads = some c) :
    c.store.workflows = store.workflows ∧ c.store.stepResults = store.stepResults := by
  cases event <;> simp only [outside] at changed <;> (try split at changed) <;>
    (try split at changed) <;> cases changed <;> exact ⟨rfl, rfl⟩

theorem Informed.env {event : Outside} {c : Change Delivery Store} (informed : Informed workflow a)
    (changed : outside event a.store (a.threads.map (Thread.map Stage.progress)) = some c) :
    Informed workflow (a.change (fun _ => .guard) c) := by
  obtain ⟨workflows, results⟩ := outside_frame changed
  constructor
  case stored =>
    rw [World.change_store, Store.workflow, workflows]
    exact informed.stored
  case actors =>
    intro event inside
    rw [World.change_length]
    exact Nat.lt_of_lt_of_le (informed.actors event inside) (Nat.le_add_right _ _)
  case contexts =>
    intro j v ctx there isOf context
    rcases World.change_cases there with ⟨t, before, rfl⟩ | ⟨tag, _, _, rfl⟩
    · have held := informed.contexts before isOf context
      exact held
    · cases context
  case aftermath =>
    intro j v there isOf
    rcases World.change_cases there with ⟨t, before, rfl⟩ | ⟨tag, beyond, _, rfl⟩
    · have held := informed.aftermath before isOf
      -- Nothing but the result rows is read of the store.
      have same : ∀ {p : WorkflowExecutionJobPayload} {s : Stage},
          Aftermath a.trace j a.store p s → Aftermath a.trace j c.store p s := by
        intro p s before
        have has : ∀ id stepId n, c.store.hasResult id stepId n = a.store.hasResult id stepId n :=
          fun _ _ _ => by rw [Store.hasResult, Store.hasResult, results]
        cases s <;> simp only [Aftermath, has] at before ⊢ <;> exact before
      exact same held
    · have unseen : ∀ event ∈ a.trace, event.actor ≠ j := by
        intro event inside same
        have bound := informed.actors event inside
        omega
      exact ⟨fun event inside own => (unseen event inside own).elim,
        fun event inside own => (unseen event inside own).elim⟩

theorem Informed.of_run {w : Engine} {store : Store} (persisted : PersistedSteps workflow.steps)
    (stored : store.workflow workflow.id workflow.tenantId = some workflow)
    (reached : (engine rt).Run (fun _ _ => True) (idle store) w) :
    ∃ a, (stages rt).Refines w a ∧ Informed workflow a := by
  have first : (stages rt).Refines (idle store) ⟨store, [], []⟩ := ⟨rfl, rfl, rfl, by simp [idle]⟩
  refine System.Run.invariant (engine_follows rt)
    (fun inv _ _ _ _ there answered step => inv.run persisted there (Option.some.inj answered) step)
    (fun inv _ _ changed => inv.env changed) first ?_ reached
  exact {
    stored
    actors := by simp
    contexts := fun found => nomatch found
    aftermath := fun found => nomatch found }

end Runs

/-! ## Routing as submitted -/

/-- The configuration of the step asks to go on when it fails. -/
def asksToContinue (step : CanvasStep) : Bool :=
  match step.config.member "onError" with
  | some (.string choice) => choice == "continue"
  | _ => false

/-- The keys of the steps that the canvas routes a failure of a step to. -/
def failureTargets (canvas : Canvas) (key : String) : List String :=
  (canvas.transitions.filter fun transition => transition.source = key ∧
    (transition.route = .ON_FAILURE ∨ transition.route = .FALLBACK)).map (·.target)

/-- Delivery `i` has stored the failure of its step, in its last attempt. -/
structure FailedLast {β : Type} (w : World RunnerIface Delivery Store β) (i : Nat)
    (delivery : Delivery) : Prop where
  last : MAX_ATTEMPTS ≤ delivery.payload.attempt
  failed : ∃ row, (⟨i, .createStepResult row, .ok ()⟩ : Event RunnerIface) ∈ w.trace ∧
    row.status = .FAILED

/-- Delivery `i` routes the failure as the canvas says: to the failure targets of a step that
asks to continue and has some, and else to the failure of the execution. -/
def RoutesAsSubmitted (trace : List (Event RunnerIface)) (i : Nat) (executionId : String)
    (canvas : Canvas) (step : CanvasStep) : Prop :=
  if asksToContinue step ∧ failureTargets canvas step.key ≠ [] then
    (∀ key, RoutesTo trace i key ↔ key ∈ failureTargets canvas step.key) ∧
      ¬ FailsExecution trace i executionId
  else FailsExecution trace i executionId ∧ ∀ key, ¬ RoutesTo trace i key

section Ends

variable {trace : List (Event RunnerIface)} {i : Nat} {x : String}

theorem EndsFailed.not_routes (ends : EndsFailed trace i x) (key : String) :
    ¬ RoutesTo trace i key := by
  rintro ⟨payload, options, inside, _⟩
  obtain ⟨id, data, same⟩ := ends.2 _ inside rfl rfl
  cases same

theorem EndsFailed.not_refused (ends : EndsFailed trace i x) : ¬ Refused trace i := by
  rintro ⟨id, data, e, inside, failed⟩
  obtain ⟨id', data', same⟩ := ends.2 _ inside rfl (by simp [isRouting, failed])
  cases same

theorem EndsRefused.not_routes (ends : EndsRefused trace i) (key : String) :
    ¬ RoutesTo trace i key := by
  rintro ⟨payload, options, inside, _⟩
  obtain ⟨id, data, e, same⟩ := ends.2 _ inside rfl rfl
  cases same

theorem EndsRefused.not_fails (ends : EndsRefused trace i) : ¬ FailsExecution trace i x := by
  rintro ⟨data, inside, failed⟩
  obtain ⟨id, data', e, same⟩ := ends.2 _ inside rfl (by simp [isRouting, failed])
  cases same

end Ends

/-- A delivery that has stored the failure of its last attempt and has ended has failed the
execution or was refused to. -/
theorem ends_of_failedLast {rt : Runtime} {workflow : Definition} {store : Store} {w : Engine}
    {i : Nat} {t : Thread Delivery (Prog RunnerIface Unit)}
    (persisted : PersistedSteps workflow.steps)
    (stored : store.workflow workflow.id workflow.tenantId = some workflow)
    (reached : (engine rt).Run (fun _ _ => True) (idle store) w) (found : w.threads[i]? = some t)
    (isOf : t.tag.IsOf workflow) (failed : FailedLast w i t.tag)
    (ended : t.body.outcome ≠ .running) :
    EndsFailed w.trace i t.tag.payload.executionId ∨ EndsRefused w.trace i := by
  obtain ⟨a, refines, informed⟩ := Informed.of_run persisted stored reached
  obtain ⟨u, there, tag, _, follows⟩ := refines.stage_of_thread found
  have aftermath := informed.aftermath there (tag ▸ isOf)
  rw [refines.trace, tag] at aftermath
  obtain ⟨row, inside, status⟩ := failed.failed
  have failed' : ¬ Unfailed w.trace i := by
    intro unfailed
    have none := unfailed _ inside rfl
    simp [isFailedRow, status] at none
  have last : ¬ t.tag.payload.attempt < MAX_ATTEMPTS := Nat.not_lt.mpr failed.last
  cases body : t.body with
  | pure r =>
      rw [body] at follows
      rw [show u.body = .returned from follows] at aftermath
      exact .inl ((aftermath.resolve_left failed').resolve_left last)
  | throw e =>
      rw [body] at follows
      rw [show u.body = .threw from follows] at aftermath
      exact .inr ((aftermath.resolve_left failed').resolve_left last)
  | op o k => simp [body, Prog.outcome] at ended

/-- The failure of a last attempt is routed as submitted just when the step does not ask to
continue, or has nowhere to continue to, and the database takes the failure of the
execution. -/
theorem routesAsSubmitted_iff {isUrl : String → Bool} {input : Json} {canvas : Canvas}
    {cuid : Nat → String} {identity : ScopedIdentity} {id : String} {status : WorkflowStatus}
    {maxDepth : Int} {workflow : Definition} {rt : Runtime} {store : Store} {w : Engine} {i : Nat}
    {t : Thread Delivery (Prog RunnerIface Unit)} {step : CanvasStep}
    (_accepted : workflowCanvasSchema isUrl input = some canvas)
    (injective : Function.Injective cuid)
    (created : createWorkflow cuid identity id status maxDepth canvas = .ok workflow)
    (stored : store.workflow workflow.id workflow.tenantId = some workflow)
    (reached : (engine rt).Run (fun _ _ => True) (idle store) w) (found : w.threads[i]? = some t)
    (isOf : t.tag.IsOf workflow) (_known : step ∈ canvas.steps)
    (_own : t.tag.payload.stepKey = step.key) (failed : FailedLast w i t.tag)
    (ended : t.body.outcome ≠ .running) :
    RoutesAsSubmitted w.trace i t.tag.payload.executionId canvas step ↔
      ¬ (asksToContinue step ∧ failureTargets canvas step.key ≠ []) ∧ ¬ Refused w.trace i := by
  have persisted := (createWorkflow_persistedFrom injective created).steps
  unfold RoutesAsSubmitted
  rcases ends_of_failedLast persisted stored reached found isOf failed ended with ends | ends
  · -- The execution has failed, whatever the step asks for.
    split
    · rename_i continues
      exact ⟨fun routes => (routes.2 ends.1).elim, fun holds => (holds.1 continues).elim⟩
    · rename_i stops
      exact ⟨fun _ => ⟨stops, ends.not_refused⟩, fun _ => ⟨ends.1, ends.not_routes⟩⟩
  · have refused : ¬ (¬ (asksToContinue step ∧ failureTargets canvas step.key ≠ []) ∧
        ¬ Refused w.trace i) := fun holds => holds.2 ends.1
    split
    · rename_i continues
      obtain ⟨key, target⟩ := List.exists_mem_of_ne_nil _ continues.2
      exact ⟨fun routes => (ends.not_routes key ((routes.1 key).mpr target)).elim,
        fun holds => (refused holds).elim⟩
    · exact ⟨fun routes => (ends.not_fails routes.1).elim, fun holds => (refused holds).elim⟩

/-! ### A step that fails five times -/

/-- A trigger, an agent step with the given choice on error, and a step to fall back to. -/
def fallbackInput (onError : String) : Json := .object [
  ("steps", .array [
    eventTrigger "hook",
    .object [("type", .string "AGENT_EXECUTE"), ("key", .string "ask"), ("name", .string "Ask"),
      ("config", .object [("agentId", .string "agent"), ("onError", .string onError)])],
    transformerStep "rescue"]),
  ("transitions", .array [
    .object [("source", .string "hook"), ("target", .string "ask")],
    .object [("source", .string "ask"), ("target", .string "rescue"),
      ("route", .string "FALLBACK")]])]

def continuingCanvas : Canvas :=
  (workflowCanvasSchema (fun _ => true) (fallbackInput "continue")).get (by decide)

def stoppingCanvas : Canvas :=
  (workflowCanvasSchema (fun _ => true) (fallbackInput "stop")).get (by decide)

def continuingWorkflow : Definition := publishedWorkflow continuingCanvas 50 (by decide)

def stoppingWorkflow : Definition := publishedWorkflow stoppingCanvas 50 (by decide)

/-- The store in which an execution of the workflow has just been started. -/
def triggered (workflow : Definition) (started : (triggerStep workflow).isSome) : Store :=
  startStore workflow ((triggerStep workflow).get started) "x"

/-- Job `n` is delivered, and its step fails if it is executed. -/
def failingJob (n operations : Nat) : List (Act Choice Outside) :=
  .env (.deliver n) ::
    List.replicate operations (.run n { result := .error (error "agent down") })

/-- The trigger runs, and five attempts of the agent step fail. -/
def fiveFailures : List (Act Choice Outside) :=
  [deliver 0, operate 0 9 1, failingJob 1 8, failingJob 2 8, failingJob 3 8, failingJob 4 8,
    failingJob 5 10].flatten

/-- The fifth attempt of the step "ask" is over and has stored its failure, and the execution
has failed without any refusal. -/
def hasFailed (workflow : Definition) (w : Engine) : Bool :=
  ((w.threads[5]?).any fun t =>
    decide (t.tag.payload.workflowId = workflow.id) &&
    decide (t.tag.payload.tenantId = workflow.tenantId) &&
    decide (t.tag.payload.stepKey = "ask") && decide (t.tag.payload.executionId = "x") &&
    decide (MAX_ATTEMPTS ≤ t.tag.payload.attempt) && decide (t.body.outcome = .returned)) &&
  (w.trace.any fun
    | ⟨i, .createStepResult row, .ok _⟩ => decide (i = 5) && decide (row.status = .FAILED)
    | _ => false) &&
  (w.trace.any fun
    | ⟨i, .updateExecution id data, .ok _⟩ =>
        decide (i = 5) && decide (id = "x") && decide (data.status = some .FAILED)
    | _ => false) &&
  w.trace.all fun
    | ⟨i, .updateExecution _ data, .error _⟩ => !(decide (i = 5) && data.status == some .FAILED)
    | _ => true

theorem hasFailed_spec {workflow : Definition} {w : Engine} (checked : hasFailed workflow w) :
    (∃ t, w.threads[5]? = some t ∧ t.tag.IsOf workflow ∧ t.tag.payload.stepKey = "ask" ∧
      t.tag.payload.executionId = "x" ∧ FailedLast w 5 t.tag ∧ t.body.outcome = .returned) ∧
      FailsExecution w.trace 5 "x" ∧ ¬ Refused w.trace 5 := by
  simp only [hasFailed, Bool.and_eq_true] at checked
  obtain ⟨⟨⟨thread, stored⟩, fails⟩, unrefused⟩ := checked
  have failed : ∃ row, (⟨5, .createStepResult row, .ok ()⟩ : Event RunnerIface) ∈ w.trace ∧
      row.status = .FAILED := by
    obtain ⟨event, inside, passes⟩ := List.any_eq_true.mp stored
    split at passes
    · simp only [Bool.and_eq_true, decide_eq_true_eq] at passes
      obtain ⟨rfl, failed⟩ := passes
      exact ⟨_, inside, failed⟩
    · cases passes
  refine ⟨?_, ?_, ?_⟩
  · obtain ⟨t, found, holds⟩ := (Option.any_eq_true _ _).mp thread
    simp only [Bool.and_eq_true, decide_eq_true_eq] at holds
    obtain ⟨⟨⟨⟨⟨workflowId, tenantId⟩, key⟩, executionId⟩, attempt⟩, returned⟩ := holds
    exact ⟨t, found, ⟨workflowId, tenantId⟩, key, executionId, ⟨attempt, failed⟩, returned⟩
  · obtain ⟨event, inside, passes⟩ := List.any_eq_true.mp fails
    split at passes
    · simp only [Bool.and_eq_true, decide_eq_true_eq] at passes
      obtain ⟨⟨rfl, rfl⟩, failed⟩ := passes
      exact ⟨_, inside, failed⟩
    · cases passes
  · rintro ⟨id, data, e, inside, failed⟩
    have refused := List.all_eq_true.mp unrefused _ inside
    simp [failed] at refused

/-- A step that asks to continue fails the execution although it has a step to fall back
to. -/
theorem continuingWorkflow_not_routed :
    ∃ w step, workflowCanvasSchema (fun _ => true) (fallbackInput "continue") =
        some continuingCanvas ∧
      createWorkflow unaryCuid ⟨"org", "tenant"⟩ "workflow" .PUBLISHED 50 continuingCanvas =
        .ok continuingWorkflow ∧
      (engine plainRuntime).Run (fun _ _ => True)
        (idle (triggered continuingWorkflow (by decide))) w ∧
      step ∈ continuingCanvas.steps ∧ step.key = "ask" ∧ asksToContinue step ∧
      failureTargets continuingCanvas "ask" = ["rescue"] ∧
      (∃ t, w.threads[5]? = some t ∧ t.tag.payload.stepKey = "ask" ∧ FailedLast w 5 t.tag ∧
        t.body.outcome = .returned) ∧
      ¬ RoutesAsSubmitted w.trace 5 "x" continuingCanvas step := by
  have evaluated : ((engine plainRuntime).execute (fun _ _ => true)
      (idle (triggered continuingWorkflow (by decide))) fiveFailures).any
        (hasFailed continuingWorkflow) = true := by decide
  obtain ⟨w, reached, checked⟩ := System.Run.exists_of_execute (fun _ _ _ => trivial) evaluated
  obtain ⟨⟨t, found, _, key, _, failed, returned⟩, fails, _⟩ := hasFailed_spec checked
  have asks : (continuingCanvas.steps[1]?).any
      (fun step => decide (step.key = "ask") && asksToContinue step) = true := by decide
  obtain ⟨step, there, own⟩ := (Option.any_eq_true _ _).mp asks
  simp only [Bool.and_eq_true, decide_eq_true_eq] at own
  have targets : failureTargets continuingCanvas "ask" = ["rescue"] := by decide
  refine ⟨w, step, (Option.some_get _).symm, publishedWorkflow_created _, reached,
    List.mem_of_getElem? there, own.1, own.2, targets, ⟨t, found, key, failed, returned⟩, ?_⟩
  rw [RoutesAsSubmitted, if_pos ⟨own.2, by rw [own.1, targets]; simp⟩]
  exact fun routes => routes.2 fails

/-- A step that stops on error fails the execution, as submitted. -/
theorem stoppingWorkflow_routed :
    ∃ w step, (engine plainRuntime).Run (fun _ _ => True)
        (idle (triggered stoppingWorkflow (by decide))) w ∧
      step ∈ stoppingCanvas.steps ∧ RoutesAsSubmitted w.trace 5 "x" stoppingCanvas step := by
  have evaluated : ((engine plainRuntime).execute (fun _ _ => true)
      (idle (triggered stoppingWorkflow (by decide))) fiveFailures).any
        (hasFailed stoppingWorkflow) = true := by decide
  obtain ⟨w, reached, checked⟩ := System.Run.exists_of_execute (fun _ _ _ => trivial) evaluated
  obtain ⟨⟨t, found, isOf, key, executionId, failed, returned⟩, _, unrefused⟩ :=
    hasFailed_spec checked
  have stops : (stoppingCanvas.steps[1]?).any
      (fun step => decide (step.key = "ask") && !asksToContinue step) = true := by decide
  obtain ⟨step, there, own⟩ := (Option.any_eq_true _ _).mp stops
  simp only [Bool.and_eq_true, decide_eq_true_eq, Bool.not_eq_true'] at own
  have accepted : workflowCanvasSchema (fun _ => true) (fallbackInput "stop") =
      some stoppingCanvas := (Option.some_get _).symm
  have stored : (triggered stoppingWorkflow (by decide)).workflow stoppingWorkflow.id
      stoppingWorkflow.tenantId = some stoppingWorkflow := by
    simp [triggered, startStore, Store.workflow]
  have routes := (routesAsSubmitted_iff accepted unaryCuid_injective (publishedWorkflow_created _)
    stored reached found isOf (List.mem_of_getElem? there) (key.trans own.1.symm) failed
    (by simp [returned])).mpr ⟨fun continues => by simp [own.2] at continues, unrefused⟩
  rw [executionId] at routes
  exact ⟨w, step, reached, List.mem_of_getElem? there, routes⟩

end Workflow
