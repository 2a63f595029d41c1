import BirthHub.Packs.Model
import BirthHub.Effect.Moves

/-!
# Workflows and the packs they use

An uninstallation reads the agents of the pack, then the steps of active workflows, and then
deletes the agents. After it no step of an active workflow names one of them, provided that no
step named one by its catalog id when the steps were read, and that no workflow has been given
such a step since: neither is looked at.
-/

namespace Packs

open Data Effect Workflow Workflow.Lifecycle Workflow.Scheduling

/-! ## Steps that name an agent -/

/-- The config names one of the agents by its catalog id. -/
def namesCatalog (rows : List AgentRow) (config : Json) : Bool :=
  rows.any fun row => (namedAgent config).isSome ∧
    namedAgent config = extractSourceAgentId row.config

/-- The config names one of the agents, as the runtime resolves the name. -/
def names (rows : List AgentRow) (config : Json) : Bool :=
  rows.any (fun row => namedAgent config = some row.id) || namesCatalog rows config

/-- The steps of active workflows that call agents. -/
def activeSteps (store : PackStore) (tenantId : String) : List WorkflowStep :=
  (store.dependentSteps tenantId).map (·.1)

/-! ## Uninstallations in a run -/

abbrev PackWorld : Type := World PackIface PackTask PackStore (Prog PackIface PackResponse)

/-- The agents that a thread has read. -/
def agentsRead (j : Nat) (event : Event PackIface) : List AgentRow :=
  match event with
  | ⟨actor, .findAgents _, .ok rows⟩ => if actor = j then rows else []
  | _ => []

/-- The agents of the pack that an uninstallation has read. -/
def packAgents (input : UninstallInput) (trace : List (Event PackIface)) (j : Nat) :
    List AgentRow :=
  (trace.flatMap (agentsRead j)).filter (extractPackId ·.config = some input.packId)

/-- The event is that a thread has read the steps. -/
def isScan (j : Nat) (event : Event PackIface) : Bool :=
  match event with
  | ⟨actor, .findDependentSteps _, .ok _⟩ => actor = j
  | _ => false

/-- A step of the type and config calls one of the agents. -/
def callsOne (rows : List AgentRow) (type : StepType) (config : Json) : Bool :=
  type = .AGENT_EXECUTE && names rows config

/-- The operation gives an active workflow of the tenant a step that names one of the agents. -/
def introduces (store : PackStore) (rows : List AgentRow) (tenantId : String) : PackOp → Bool
  | .workflow (.insertWorkflow identity input) =>
      identity.tenantId = tenantId && input.status ≠ .ARCHIVED &&
        input.canvas.steps.any fun step => callsOne rows step.type step.config
  | .workflow (.editWorkflow identity id input) => store.lifecycle.rows.any fun row =>
      row.definition.id = id && input.status.getD row.status ≠ .ARCHIVED &&
        match input.canvas with
        | some canvas => identity.tenantId = tenantId &&
            canvas.steps.any fun step => callsOne rows step.type step.config
        | none => row.status = .ARCHIVED && row.definition.steps.any fun step =>
            step.tenantId = tenantId && callsOne rows step.type step.config
  | _ => false

/-- A thread that has read the steps and has not failed. -/
def isUninstalling (w : PackWorld) (j : Nat) : Option UninstallInput :=
  match w.threads[j]? with
  | some ⟨.uninstall input, body, _⟩ =>
      if body.outcome ≠ .threw ∧ w.trace.any (isScan j) then some input else none
  | _ => none

/-- The steps are read when no step names an agent of the pack by its catalog id, and from then
on no workflow is given a step that names one. -/
def spares (w : PackWorld) (act : Act PackChoice PackTask) : Bool :=
  match act with
  | .env _ => true
  | .run i _ =>
      match w.threads[i]? with
      | some ⟨.uninstall input, .op (.findDependentSteps _) _, _⟩ =>
          (activeSteps w.store input.tenantId).all fun step =>
            !namesCatalog (packAgents input w.trace i) step.config
      | some ⟨_, .op o _, _⟩ => (List.range w.threads.length).all fun j =>
          (isUninstalling w j).all fun input =>
            !introduces w.store (packAgents input w.trace j) input.tenantId o
      | _ => true

/-! ## What an operation does to the steps -/

/-- The steps are those of a canvas, of a tenant. -/
def StepsOf (tenantId : String) (canvas : Canvas) (steps : List WorkflowStep) : Prop :=
  ∀ step ∈ steps, step.tenantId = tenantId ∧
    ∃ given ∈ canvas.steps, given.type = step.type ∧ given.config = step.config

theorem createSteps_cases {cuid : Nat → String} {identity : ScopedIdentity} {workflowId : String}
    {canvasSteps : List CanvasStep} {created steps : List WorkflowStep}
    (ok : createSteps cuid identity workflowId canvasSteps created = .ok steps)
    {step : WorkflowStep} (there : step ∈ steps) :
    step ∈ created ∨ step.tenantId = identity.tenantId ∧
      ∃ given ∈ canvasSteps, given.type = step.type ∧ given.config = step.config := by
  induction canvasSteps generalizing created with
  | nil =>
      cases ok
      exact .inl there
  | cons first rest ih =>
      rw [createSteps] at ok
      split at ok
      · cases ok
      · rcases ih ok with before | ⟨tenant, given, listed, same⟩
        · rcases List.mem_append.mp before with before | own
          · exact .inl before
          · rw [List.mem_singleton.mp own]
            exact .inr ⟨rfl, first, List.mem_cons_self, rfl, rfl⟩
        · exact .inr ⟨tenant, given, List.mem_cons_of_mem _ listed, same⟩

theorem persistCanvas_stepsOf {cuid : Nat → String} {identity : ScopedIdentity}
    {workflowId : String} {canvas : Canvas} {steps : List WorkflowStep}
    {transitions : List WorkflowTransition}
    (ok : persistCanvas cuid identity workflowId canvas = .ok (steps, transitions)) :
    StepsOf identity.tenantId canvas steps := by
  unfold persistCanvas at ok
  cases written : createSteps cuid identity workflowId canvas.steps [] with
  | error e => simp [written, bind, Except.bind] at ok
  | ok created =>
      cases linked : createTransitions created identity workflowId canvas.transitions [] with
      | error e => simp [written, linked, bind, Except.bind] at ok
      | ok rows =>
          simp only [written, linked, bind, Except.bind, pure, Except.pure, Except.ok.injEq,
            Prod.mk.injEq] at ok
          obtain ⟨rfl, _⟩ := ok
          intro step there
          rcases createSteps_cases written there with before | own
          · cases before
          · exact own

section

variable {store store' : LifecycleStore} {o : ScheduleOp} {choice : LifecycleChoice}
  {answer : ScheduleIface.Answer o}

theorem insertWorkflow_cases {identity : ScopedIdentity} {input : WorkflowCreateInput}
    {answer : ScheduleIface.Answer (.insertWorkflow identity input)}
    (answered : store.handle (.insertWorkflow identity input) choice = some (answer, store')) :
    store'.rows = store.rows ∨ ∃ row : LifecycleRow, store'.rows = store.rows ++ [row] ∧
      row.status = input.status ∧ StepsOf identity.tenantId input.canvas row.definition.steps := by
  cases fault : choice.fault with
  | some e =>
      simp only [LifecycleStore.handle, fault] at answered
      cases answered
      exact .inl rfl
  | none =>
  simp only [LifecycleStore.handle, fault] at answered
  simp only [LifecycleStore.perform] at answered
  split at answered
  swap
  · cases answered
  split at answered
  · cases answered
    exact .inl rfl
  rename_i definition created
  cases answered
  refine .inr ⟨_, rfl, ?_⟩
  unfold Workflow.createWorkflow at created
  split at created
  · cases created
  simp only [bind, Except.bind] at created
  split at created
  · cases created
  rename_i persisted written
  cases created
  exact ⟨rfl, persistCanvas_stepsOf written⟩

theorem editWorkflow_cases {identity : ScopedIdentity} {id : String} {input : WorkflowUpdateInput}
    {answer : ScheduleIface.Answer (.editWorkflow identity id input)}
    (answered : store.handle (.editWorkflow identity id input) choice = some (answer, store')) :
    store'.rows = store.rows ∨ ∃ canvas : Option (List WorkflowStep × List WorkflowTransition),
      store'.rows = (store.setRows (·.definition.id = id) (·.edit input canvas choice.date)).rows ∧
      match input.canvas with
      | some given => ∃ rows, canvas = some rows ∧ StepsOf identity.tenantId given rows.1
      | none => canvas = none := by
  cases fault : choice.fault with
  | some e =>
      simp only [LifecycleStore.handle, fault] at answered
      cases answered
      exact .inl rfl
  | none =>
  simp only [LifecycleStore.handle, fault] at answered
  simp only [LifecycleStore.perform] at answered
  split at answered
  · cases answered
    exact .inl rfl
  cases given : input.canvas with
  | none =>
      rw [given] at answered
      cases answered
      exact .inr ⟨none, rfl, rfl⟩
  | some canvas =>
      rw [given] at answered
      cases written : persistCanvas choice.cuid identity id canvas with
      | error e =>
          simp only [Option.map_some, written] at answered
          cases answered
          exact .inl rfl
      | ok rows =>
          simp only [Option.map_some, written] at answered
          cases answered
          exact .inr ⟨some rows, rfl, rows, rfl, persistCanvas_stepsOf written⟩

/-- Where a workflow has its steps from after an operation. -/
theorem lifecycle_row_cases (answered : store.handle o choice = some (answer, store'))
    {row : LifecycleRow} (there : row ∈ store'.rows) :
    row ∈ store.rows ∨ row.status = .ARCHIVED ∨
    (∃ identity input, o = .insertWorkflow identity input ∧ row.status = input.status ∧
      StepsOf identity.tenantId input.canvas row.definition.steps) ∨
    ∃ identity id input before, o = .editWorkflow identity id input ∧ before ∈ store.rows ∧
      before.definition.id = id ∧ row.status = input.status.getD before.status ∧
      match input.canvas with
      | some canvas => StepsOf identity.tenantId canvas row.definition.steps
      | none => row.definition.steps = before.definition.steps := by
  cases o with
  | insertWorkflow identity input =>
      rcases insertWorkflow_cases answered with kept | ⟨created, rows, status, steps⟩
      · exact .inl (kept ▸ there)
      rw [rows] at there
      rcases List.mem_append.mp there with old | new
      · exact .inl old
      · rw [List.mem_singleton.mp new]
        exact .inr (.inr (.inl ⟨identity, input, rfl, status, steps⟩))
  | editWorkflow identity id input =>
      rcases editWorkflow_cases answered with kept | ⟨canvas, rows, steps⟩
      · exact .inl (kept ▸ there)
      rw [rows] at there
      obtain ⟨before, old, rfl⟩ := List.mem_map.mp there
      split
      swap
      · exact .inl old
      rename_i picked
      refine .inr (.inr (.inr ⟨identity, id, input, before, rfl, old, of_decide_eq_true picked, ?_⟩))
      have status : (before.edit input canvas choice.date).status =
          input.status.getD before.status := by
        cases given : input.status <;>
          simp [LifecycleRow.edit, LifecycleRow.setStatus, LifecycleRow.status, given,
            WorkflowUpdateInput.apply]
      have own : (before.edit input canvas choice.date).definition.steps =
          (canvas.map Prod.fst).getD before.definition.steps := by
        cases given : input.status <;>
          simp [LifecycleRow.edit, LifecycleRow.setStatus, given, WorkflowUpdateInput.apply]
      refine ⟨status, ?_⟩
      rw [own]
      cases given : input.canvas with
      | none =>
          rw [given] at steps
          rw [steps]
          rfl
      | some written =>
          rw [given] at steps
          obtain ⟨stored, rfl, steps⟩ := steps
          exact steps
  | setArchived id tenantId =>
      obtain ⟨_, kept | ⟨_, _, _, same, _⟩ | ⟨_, _, _, _, same, _⟩ | ⟨_, _, _, rows⟩⟩ :=
        LifecycleStore.handle_rows answered
      · exact .inl (kept ▸ there)
      · cases same
      · cases same
      · rw [rows] at there
        obtain ⟨before, old, rfl⟩ := List.mem_map.mp there
        split
        · exact .inr (.inl rfl)
        · exact .inl old
  | _ =>
      obtain ⟨_, kept | ⟨_, _, _, same, _⟩ | ⟨_, _, _, _, same, _⟩ | ⟨_, _, same, _⟩⟩ :=
        LifecycleStore.handle_rows answered
      · exact .inl (kept ▸ there)
      all_goals cases same

end

theorem mem_activeSteps {store : PackStore} {tenantId : String} {step : WorkflowStep} :
    step ∈ activeSteps store tenantId ↔ ∃ row ∈ store.lifecycle.rows,
      row.status ≠ .ARCHIVED ∧ step ∈ row.definition.steps ∧ step.tenantId = tenantId ∧
        step.type = .AGENT_EXECUTE := by
  have active (row : LifecycleRow) : (row.status = .PUBLISHED ∨ row.status = .DRAFT) ↔
      row.status ≠ .ARCHIVED := by
    cases row.status <;> simp
  simp only [activeSteps, PackStore.dependentSteps, active, List.mem_map, List.mem_flatMap]
  constructor
  · rintro ⟨entry, ⟨row, there, listed⟩, rfl⟩
    split at listed
    · rename_i live
      obtain ⟨step, own, rfl⟩ := List.mem_map.mp listed
      obtain ⟨inside, calls⟩ := List.mem_filter.mp own
      exact ⟨row, there, live, inside, of_decide_eq_true calls⟩
    · cases listed
  · rintro ⟨row, there, live, inside, calls⟩
    refine ⟨(step, store.workflowName row.definition.id), ⟨row, there, ?_⟩, rfl⟩
    rw [if_pos live]
    exact List.mem_map.mpr ⟨step, List.mem_filter.mpr ⟨inside, decide_eq_true calls⟩, rfl⟩

/-- A step of an active workflow that names an agent was there before an operation, unless the
operation has introduced one. -/
theorem activeSteps_cases {store store' : PackStore} {o : PackOp} {choice : PackChoice}
    {answer : PackIface.Answer o} {rows : List AgentRow} {tenantId : String}
    (answered : store.handle o choice = some (answer, store')) {step : WorkflowStep}
    (there : step ∈ activeSteps store' tenantId) (named : names rows step.config = true) :
    (∃ before ∈ activeSteps store tenantId, names rows before.config = true) ∨
      introduces store rows tenantId o = true := by
  obtain ⟨row, inside, live, own, tenant, calls⟩ := mem_activeSteps.mp there
  have callsStep : callsOne rows step.type step.config = true := by
    rw [callsOne, calls, named]
    rfl
  have old (before : row ∈ store.lifecycle.rows) :
      ∃ before ∈ activeSteps store tenantId, names rows before.config = true :=
    ⟨step, mem_activeSteps.mpr ⟨row, before, live, own, tenant, calls⟩, named⟩
  rcases PackStore.handle_cases answered with rfl | ⟨o', answer', rfl, answered', same⟩ |
    ⟨_, _, _, _, _, rfl⟩ | ⟨_, _, _, rfl⟩
  · exact .inl (old inside)
  · rcases lifecycle_row_cases answered' inside with before | archived |
      ⟨identity, input, rfl, status, steps⟩ |
      ⟨identity, id, input, before, rfl, was, found, status, steps⟩
    · exact .inl (old before)
    · exact (live archived).elim
    · obtain ⟨ours, given, listed, type, config⟩ := steps step own
      refine .inr ?_
      rw [introduces, Bool.and_eq_true, Bool.and_eq_true]
      refine ⟨⟨decide_eq_true (ours.symm.trans tenant), decide_eq_true (status ▸ live)⟩, ?_⟩
      exact List.any_eq_true.mpr ⟨given, listed, by rwa [type, config]⟩
    · cases canvas : input.canvas with
      | some written =>
          rw [canvas] at steps
          obtain ⟨ours, given, listed, type, config⟩ := steps step own
          refine .inr (List.any_eq_true.mpr ⟨before, was, ?_⟩)
          rw [canvas, Bool.and_eq_true, Bool.and_eq_true, Bool.and_eq_true]
          refine ⟨⟨decide_eq_true found, decide_eq_true (status ▸ live)⟩,
            decide_eq_true (ours.symm.trans tenant), ?_⟩
          exact List.any_eq_true.mpr ⟨given, listed, by rwa [type, config]⟩
      | none =>
          rw [canvas] at steps
          dsimp only at steps
          rw [steps] at own
          by_cases dormant : before.status = .ARCHIVED
          · refine .inr (List.any_eq_true.mpr ⟨before, was, ?_⟩)
            rw [canvas, Bool.and_eq_true, Bool.and_eq_true, Bool.and_eq_true]
            refine ⟨⟨decide_eq_true found, decide_eq_true (status ▸ live)⟩,
              decide_eq_true dormant, ?_⟩
            exact List.any_eq_true.mpr ⟨step, own, by rw [callsStep, tenant]; simp⟩
          · exact .inl ⟨step, mem_activeSteps.mpr ⟨before, was, dormant, own, tenant, calls⟩, named⟩
  · exact .inl (old inside)
  · exact .inl (old inside)

/-! ## The stages of an uninstallation -/

/-- How far a call is: before it has read the agents, with the agents of the pack it has read, or
with agents that no active step has named. -/
inductive Stage
  | other
  | begun
  | reading (rows : List AgentRow)
  | checked (rows : List AgentRow)
  | failed

def Stage.initial : PackTask → Stage
  | .uninstall _ => .begun
  | _ => .other

def packRows (input : UninstallInput) (rows : List AgentRow) : List AgentRow :=
  rows.filter (extractPackId ·.config = some input.packId)

inductive Stage.Move : PackTask → Stage → (o : PackOp) → PackIface.Answer o → Stage → Prop
  | call {task : PackTask} {o : PackOp} {answer : PackIface.Answer o}
      (unrelated : ∀ input, task ≠ .uninstall input) : Move task .other o answer .other
  | found {input : UninstallInput} {rows : List AgentRow} : Move (.uninstall input) .begun
      (.findAgents input.tenantId) (.ok rows) (.reading (packRows input rows))
  | foundNone {input : UninstallInput} {rows : List AgentRow} (empty : packRows input rows = []) :
      Move (.uninstall input) .begun (.findAgents input.tenantId) (.ok rows) (.checked [])
  | scanned {input : UninstallInput} {rows : List AgentRow} {steps : List (WorkflowStep × String)}
      (unnamed : ∀ entry ∈ steps, ∀ row ∈ rows, namedAgent entry.1.config ≠ some row.id) :
      Move (.uninstall input) (.reading rows) (.findDependentSteps input.tenantId) (.ok steps)
        (.checked rows)
  | inUse {input : UninstallInput} {rows : List AgentRow} {steps : List (WorkflowStep × String)} :
      Move (.uninstall input) (.reading rows) (.findDependentSteps input.tenantId) (.ok steps) .failed
  | lost {input : UninstallInput} {s : Stage} {o : PackOp} {e : Thrown} :
      Move (.uninstall input) s o (.error e) .failed
  | deleted {input : UninstallInput} {rows : List AgentRow} {ids : List String} {log : AuditLog} :
      Move (.uninstall input) (.checked rows) (.uninstall ids log) (.ok ()) (.checked rows)

/-- An uninstallation returns once its agents are checked, and fails at the start or for a
failure. -/
def Stage.Exit : PackTask → Except Thrown PackResponse → Stage → Prop
  | .uninstall _, .ok _, s => ∃ rows, s = .checked rows
  | .uninstall _, .error _, s => s = .begun ∨ s = .failed
  | _, _, _ => True

def packStages (cipher : Cipher) : Discipline PackIface PackTask PackResponse :=
  movesDiscipline (packs cipher) Stage.initial Stage.Move Stage.Exit

abbrev StagedPacks : Type := World PackIface PackTask PackStore (Marked Stage)

/-- What an uninstallation has read is what its stage says, and no active step names an agent it
has checked. -/
def Stage.Holds (a : StagedPacks) (j : Nat) (input : UninstallInput) : Stage → Prop
  | .begun => packAgents input a.trace j = []
  | .reading rows => packAgents input a.trace j = rows
  | .checked rows => packAgents input a.trace j = rows ∧ (rows ≠ [] → a.trace.any (isScan j) = true) ∧
      ∀ step ∈ activeSteps a.store input.tenantId, names rows step.config = false
  | _ => True

structure Spared (a : StagedPacks) : Prop where
  actors : ∀ event ∈ a.trace, event.actor < a.threads.length
  holds : ∀ {j : Nat} {u : Thread PackTask (Marked Stage)} {input : UninstallInput},
    a.threads[j]? = some u → u.tag = .uninstall input → u.body.stage.Holds a j input

theorem packAgents_cons {input : UninstallInput} {event : Event PackIface}
    {trace : List (Event PackIface)} {j : Nat} : packAgents input (event :: trace) j =
      packRows input (agentsRead j event) ++ packAgents input trace j := by
  rw [packAgents, List.flatMap_cons, List.filter_append]
  rfl

theorem agentsRead_other {event : Event PackIface} {j : Nat} (other : event.actor ≠ j) :
    agentsRead j event = [] := by
  unfold agentsRead
  split
  · exact if_neg other
  · rfl

theorem agentsRead_own {j : Nat} {tenantId : String} {rows : List AgentRow} :
    agentsRead j ⟨j, .findAgents tenantId, .ok rows⟩ = rows := if_pos rfl

section

variable {cipher : Cipher} {w : PackWorld} {a : StagedPacks} {i : Nat} {choice : PackChoice}
  {o : PackOp} {k : PackIface.Answer o → Prog PackIface PackResponse}
  {t : Thread PackTask (Prog PackIface PackResponse)}

/-- No operation introduces a step that names an agent of an uninstallation under way. -/
theorem spares_introduces (spared : spares w (.run i choice) = true) (found : w.threads[i]? = some t)
    (pending : t.body = .op o k) {j : Nat} {input : UninstallInput}
    (under : isUninstalling w j = some input) :
    introduces w.store (packAgents input w.trace j) input.tenantId o = false := by
  obtain ⟨tag, body, settled⟩ := t
  cases pending
  have bound : j < w.threads.length := by
    by_contra beyond
    rw [isUninstalling, List.getElem?_eq_none (by omega)] at under
    cases under
  simp only [spares, found] at spared
  split at spared
  · rename_i own
    cases own
    rfl
  · rename_i own
    cases own
    have one := List.all_eq_true.mp spared j (List.mem_range.mpr bound)
    rw [under] at one
    simpa using one
  · rename_i _ none'
    exact (none' _ _ _ _ rfl).elim

/-- When the steps are read, none names an agent by its catalog id. -/
theorem spares_scan {input : UninstallInput} {tenantId : String}
    {k : PackIface.Answer (.findDependentSteps tenantId) → Prog PackIface PackResponse}
    (spared : spares w (.run i choice) = true) (found : w.threads[i]? = some t)
    (pending : t.body = .op (.findDependentSteps tenantId) k) (uninstalls : t.tag = .uninstall input)
    {step : WorkflowStep} (there : step ∈ activeSteps w.store input.tenantId) :
    namesCatalog (packAgents input w.trace i) step.config = false := by
  obtain ⟨tag, body, settled⟩ := t
  cases pending
  cases uninstalls
  simp only [spares, found] at spared
  simpa using List.all_eq_true.mp spared step there

/-- A thread whose agents are checked has not failed. -/
theorem isUninstalling_of_checked (refines : (packStages cipher).Refines w a) {j : Nat}
    {u : Thread PackTask (Marked Stage)} {input : UninstallInput} {rows : List AgentRow}
    (there : a.threads[j]? = some u) (uninstalls : u.tag = .uninstall input)
    (checked : u.body.stage = .checked rows) (scanned : a.trace.any (isScan j) = true) :
    isUninstalling w j = some input := by
  obtain ⟨t, found, sameTag, _, follows⟩ := refines.thread_of_stage there
  obtain ⟨tag, body, settled⟩ := t
  rw [uninstalls] at sameTag
  cases sameTag
  rw [refines.trace] at scanned
  have running : body.outcome ≠ .threw := by
    intro threw
    cases body with
    | throw e =>
        have ended : Stage.Exit (.uninstall input) (.error e) u.body.stage := follows.2
        rw [checked] at ended
        rcases ended with same | same <;> cases same
    | pure response => cases threw
    | op o k => cases threw
  simp only [isUninstalling, found]
  rw [if_pos ⟨running, scanned⟩]

theorem names_nil {config : Json} : names [] config = false := rfl

/-- One operation of a thread keeps the stages right. -/
theorem Spared.run {u : Thread PackTask (Marked Stage)} {answer : PackIface.Answer o}
    {store : PackStore} {s' : Marked Stage} (inv : Spared a)
    (refines : (packStages cipher).Refines w a) (spared : spares w (.run i choice) = true)
    (found : w.threads[i]? = some t) (pending : t.body = .op o k) (there : a.threads[i]? = some u)
    (answered : a.store.handle o choice = some (answer, store))
    (move : Stage.Move u.tag u.body.stage o answer s'.stage) :
    Spared (a.advance i s' store ⟨i, o, answer⟩) := by
  have sameTag : u.tag = t.tag := (refines.follows found there).1
  -- What was checked stays unnamed.
  have unnamed {j : Nat} {v : Thread PackTask (Marked Stage)} {input : UninstallInput}
      {rows : List AgentRow} (at_j : a.threads[j]? = some v) (uninstalls : v.tag = .uninstall input)
      (checked : v.body.stage = .checked rows) :
      ∀ step ∈ activeSteps store input.tenantId, names rows step.config = false := by
    intro step active
    have holds := inv.holds at_j uninstalls
    rw [checked] at holds
    obtain ⟨own, scanned, free⟩ := holds
    by_cases empty : rows = []
    · rw [empty]
      exact names_nil
    by_contra named
    rw [Bool.not_eq_false] at named
    rcases activeSteps_cases answered active named with ⟨before, was, named⟩ | introduced
    · rw [free before was] at named
      cases named
    · have under := isUninstalling_of_checked refines at_j uninstalls checked (scanned empty)
      have none' := spares_introduces spared found pending under
      rw [← refines.trace, ← refines.store, own, introduced] at none'
      cases none'
  refine ⟨fun event inside => ?_, fun {j v input} at_j uninstalls => ?_⟩
  · rw [World.advance_length]
    rcases List.mem_cons.mp inside with rfl | earlier
    · exact (List.getElem?_eq_some_iff.mp there).1
    · exact inv.actors event earlier
  · rcases World.advance_cases there at_j with ⟨rfl, rfl⟩ | ⟨other, before⟩
    · have holds := inv.holds there uninstalls
      have kept {rows : List AgentRow} (checked : u.body.stage = .checked rows) :=
        unnamed there uninstalls checked
      have trace (event : Event PackIface) : packAgents input (event :: a.trace) j =
        packRows input (agentsRead j event) ++ packAgents input a.trace j := packAgents_cons
      obtain ⟨tag, ⟨stage, outcome⟩, settled⟩ := u
      obtain ⟨stage', outcome'⟩ := s'
      dsimp only at uninstalls move holds kept
      subst uninstalls
      dsimp only
      cases move with
      | call unrelated => exact (unrelated input rfl).elim
      | @found _ rows =>
          have own : packAgents input a.trace j = [] := holds
          show packAgents input (_ :: a.trace) j = packRows input rows
          rw [trace, own, List.append_nil, agentsRead_own]
      | @foundNone _ rows empty =>
          have own : packAgents input a.trace j = [] := holds
          refine ⟨?_, fun given => (given rfl).elim, fun step _ => names_nil⟩
          show packAgents input (_ :: a.trace) j = []
          rw [trace, own, List.append_nil, agentsRead_own, empty]
      | @scanned _ rows steps free =>
          have own : packAgents input a.trace j = rows := holds
          have read : (.ok steps, store) =
              (Except.ok (a.store.dependentSteps input.tenantId), a.store) :=
            Option.some.inj (PackStore.handle_ok answered).symm
          obtain ⟨listed, rfl⟩ := Prod.mk.inj read
          refine ⟨own, fun _ => ?_, fun step active => ?_⟩
          · show List.any (_ :: a.trace) _ = true
            rw [List.any_cons, Bool.or_eq_true]
            exact .inl (decide_eq_true rfl)
          · replace active : step ∈ activeSteps a.store input.tenantId := active
            have catalog := spares_scan spared found pending sameTag.symm (refines.store ▸ active)
            rw [← refines.trace, own] at catalog
            obtain ⟨entry, inside, rfl⟩ := List.mem_map.mp active
            rw [← Except.ok.inj listed] at inside
            rw [names, catalog, Bool.or_false, List.any_eq_false]
            intro row there' same
            exact free entry inside row there' (of_decide_eq_true same)
      | inUse => trivial
      | lost => trivial
      | @deleted _ rows ids log =>
          refine ⟨holds.1, fun given => ?_, kept rfl⟩
          show List.any (_ :: a.trace) _ = true
          rw [List.any_cons, holds.2.1 given, Bool.or_true]
    · have holds := inv.holds before uninstalls
      have same : packAgents input (a.advance i s' store ⟨i, o, answer⟩).trace j =
          packAgents input a.trace j := by
        rw [World.advance_trace, packAgents_cons, agentsRead_other (Ne.symm other)]
        rfl
      cases stage : v.body.stage with
      | begun =>
          rw [stage] at holds
          exact same.trans holds
      | reading rows =>
          rw [stage] at holds
          exact same.trans holds
      | checked rows =>
          rw [stage] at holds
          refine ⟨same.trans holds.1, fun given => ?_, unnamed before uninstalls stage⟩
          rw [World.advance_trace, List.any_cons, holds.2.1 given, Bool.or_true]
      | other => trivial
      | failed => trivial

/-- A call that arrives finds the stages right. -/
theorem Spared.env {task : PackTask} {start : PackTask → Marked Stage}
    (begins : ∀ input, (start (.uninstall input)).stage = .begun) (inv : Spared a) :
    Spared (a.change start { store := a.store, spawn := [task] }) := by
  refine ⟨fun event inside => ?_, fun {j v input} at_j uninstalls => ?_⟩
  · rw [World.change_length]
    exact Nat.lt_of_lt_of_le (inv.actors event inside) (Nat.le_add_right _ _)
  · rcases World.change_cases at_j with ⟨u, there, rfl⟩ | ⟨tag, beyond, spawned, rfl⟩
    · have kept := inv.holds there uninstalls
      exact kept
    · dsimp only at uninstalls
      subst uninstalls
      have unread : a.trace.flatMap (agentsRead j) = [] := by
        rw [List.flatMap_eq_nil_iff]
        intro event inside
        have earlier := inv.actors event inside
        exact agentsRead_other (by omega)
      have own : packAgents input a.trace j = [] := by
        rw [packAgents, unread, List.filter_nil]
      show (start (.uninstall input)).stage.Holds _ j input
      rw [begins]
      exact own

end

def uninstallCrm : UninstallInput := ⟨"admin", "crm", "tenant"⟩

/-- The pack is uninstalled, with nothing in between. -/
def uninstalls : List (Act PackChoice PackTask) :=
  .env (.uninstall uninstallCrm) :: List.replicate 3 (.run 0 {})

end Packs
