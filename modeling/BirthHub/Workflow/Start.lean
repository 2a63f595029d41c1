import BirthHub.Workflow.Launch
import BirthHub.Workflow.Schema

/-!
# Where executions start

What `validateDag` guarantees of the graph it accepts (one node without incoming edges,
from which every node can be reached), what `persistCanvas` makes of it, and where the
worker and the API start: at the first step of a trigger type. The validator does not look
at the types, so that the two agree only where that step is the root.
-/

namespace Workflow

open Data

/-! ## The validated graph -/

section Graph

variable {adjacency : String → List String} {P : String → Prop}

/-- The search stays within what its start leads to. -/
theorem reach_closed (closed : ∀ a, P a → ∀ b ∈ adjacency a, P b) {fuel : Nat}
    {stack reachable : List String} (stacked : ∀ a ∈ stack, P a)
    (reached : ∀ a ∈ reachable, P a) : ∀ a ∈ reach adjacency fuel stack reachable, P a := by
  induction fuel generalizing stack reachable with
  | zero => exact reached
  | succ fuel ih =>
      rw [reach]
      split
      · exact reached
      · rename_i current top
        have held : P current := stacked current (List.mem_of_getLast? top)
        have kept : ∀ a ∈ stack.dropLast, P a :=
          fun a there => stacked a (List.mem_of_mem_dropLast there)
        split
        · exact ih kept reached
        · refine ih (fun a there => ?_) (fun a there => ?_)
          · rcases List.mem_append.mp there with there | there
            · exact kept a there
            · exact closed current held a (List.mem_of_mem_filter there)
          · rcases List.mem_append.mp there with there | there
            · exact reached a there
            · rwa [List.mem_singleton.mp there]

theorem reach_nodup {fuel : Nat} {stack reachable : List String} (nodup : reachable.Nodup) :
    (reach adjacency fuel stack reachable).Nodup := by
  induction fuel generalizing stack reachable with
  | zero => exact nodup
  | succ fuel ih =>
      rw [reach]
      split
      · exact nodup
      · rename_i current top
        split
        · exact ih nodup
        · rename_i new
          refine ih (List.nodup_append.mpr ⟨nodup, List.nodup_singleton _, ?_⟩)
          rintro a there _ own rfl
          rw [List.mem_singleton.mp own] at there
          exact new (.inr (List.contains_iff_mem.mpr there))

end Graph

theorem collectNodes_ok {nodes : List DagNode} {seen nodeIds : List String} (nodup : seen.Nodup)
    (ok : collectNodes nodes seen = .ok nodeIds) :
    nodeIds = seen ++ nodes.map (·.id) ∧ nodeIds.Nodup := by
  induction nodes generalizing seen with
  | nil =>
      cases ok
      simp [nodup]
  | cons node nodes ih =>
      rw [collectNodes] at ok
      split at ok
      · cases ok
      · split at ok
        · cases ok
        · rename_i new
          have fresh : node.id ∉ seen := by simpa using new
          have extended : (seen ++ [node.id]).Nodup := by
            refine List.nodup_append.mpr ⟨nodup, List.nodup_singleton _, ?_⟩
            rintro a there _ own rfl
            rw [List.mem_singleton.mp own] at there
            exact fresh there
          obtain ⟨same, nodup'⟩ := ih extended ok
          exact ⟨by simp [same], nodup'⟩

theorem checkEdges_ok {nodeIds : List String} {edges : List DagEdge}
    (ok : checkEdges nodeIds edges = .ok ()) :
    ∀ edge ∈ edges, edge.source ∈ nodeIds ∧ edge.target ∈ nodeIds := by
  induction edges with
  | nil => simp
  | cons edge edges ih =>
      rw [checkEdges] at ok
      split at ok
      · cases ok
      · rename_i endpoints
        split at ok
        · cases ok
        · simp only [assertEdgeEndpoints] at endpoints
          split at endpoints
          · cases endpoints
          · rename_i source
            split at endpoints
            · cases endpoints
            · rename_i target
              intro other there
              rcases List.mem_cons.mp there with rfl | there
              · exact ⟨by simpa using source, by simpa using target⟩
              · exact ih ok other there

/-- What an accepted graph is: its nodes have different ids, its edges join them, one node
has no incoming edge, and every node can be reached from that one. -/
structure Rooted (nodeIds : List String) (edges : List DagEdge) (root : String) : Prop where
  nodup : nodeIds.Nodup
  joins : ∀ edge ∈ edges, edge.source ∈ nodeIds ∧ edge.target ∈ nodeIds
  mem : root ∈ nodeIds
  source : ∀ edge ∈ edges, edge.target ≠ root
  unique : ∀ id ∈ nodeIds, (∀ edge ∈ edges, edge.target ≠ id) → id = root
  reaches : ∀ id ∈ nodeIds,
    Relation.ReflTransGen (fun a b => ∃ edge ∈ edges, edge.source = a ∧ edge.target = b) root id

theorem indegree_eq_zero {edges : List DagEdge} {id : String} :
    indegree edges id = 0 ↔ ∀ edge ∈ edges, edge.target ≠ id := by
  simp [indegree, List.length_eq_zero_iff, List.filter_eq_nil_iff]

theorem validateDag_ok {nodes : List DagNode} {edges : List DagEdge}
    {result : DagValidationResult} (ok : validateDag nodes edges = .ok result) :
    ∃ nodeIds root, collectNodes nodes [] = .ok nodeIds ∧ checkEdges nodeIds edges = .ok () ∧
      nodeIds.filter (fun id => indegree edges id == 0) = [root] ∧
      assertConnectedFromRoot root nodeIds edges = .ok () := by
  simp only [validateDag, bind, Except.bind, pure, Except.pure] at ok
  split at ok
  · cases ok
  split at ok
  · cases ok
  rename_i nodeIds collected
  split at ok
  · cases ok
  rename_i checked
  split at ok
  · cases ok
  split at ok
  · cases ok
  split at ok
  · cases ok
  · rename_i root only
    split at ok
    · cases ok
    rename_i connected
    exact ⟨nodeIds, root, collected, checked, only, connected⟩
  · cases ok

theorem validateDag_rooted {nodes : List DagNode} {edges : List DagEdge}
    {result : DagValidationResult} (ok : validateDag nodes edges = .ok result) :
    ∃ root, Rooted (nodes.map (·.id)) edges root := by
  obtain ⟨nodeIds, root, collected, checked, only, connected⟩ := validateDag_ok ok
  obtain ⟨rfl, nodup⟩ := collectNodes_ok List.nodup_nil collected
  rw [List.nil_append] at nodup checked only connected
  have joins := checkEdges_ok checked
  have roots : ∀ id, id = root ↔ id ∈ nodes.map (·.id) ∧ ∀ edge ∈ edges, edge.target ≠ id := by
    intro id
    rw [← List.mem_singleton, ← only, List.mem_filter, beq_iff_eq, indegree_eq_zero]
  obtain ⟨mem, source⟩ := (roots root).mp rfl
  refine ⟨root, nodup, joins, mem, source, fun id there first => (roots id).mpr ⟨there, first⟩, ?_⟩
  simp only [assertConnectedFromRoot] at connected
  split at connected
  swap
  · cases connected
  rename_i whole
  -- As many nodes were reached as there are, each once, and all by edges from the root.
  let Reached (id : String) : Prop := id ∈ nodes.map (·.id) ∧
    Relation.ReflTransGen (fun a b => ∃ edge ∈ edges, edge.source = a ∧ edge.target = b) root id
  have closed : ∀ a, Reached a → ∀ b ∈ adjacency edges a, Reached b := by
    rintro a ⟨_, path⟩ b next
    obtain ⟨edge, there, rfl⟩ := List.mem_map.mp next
    have known := (List.mem_filter.mp there).1
    have start : edge.source = a := by simpa using (List.mem_filter.mp there).2
    exact ⟨(joins edge known).2, path.tail ⟨edge, known, start, rfl⟩⟩
  have reached : ∀ id ∈ reach (adjacency edges) (edges.length + 2) [root] [], Reached id :=
    reach_closed closed
      (fun id there => by rw [List.mem_singleton.mp there]; exact ⟨mem, .refl⟩) (by simp)
  have distinct : (reach (adjacency edges) (edges.length + 2) [root] []).Nodup :=
    reach_nodup List.nodup_nil
  have all : nodes.map (·.id) ⊆ reach (adjacency edges) (edges.length + 2) [root] [] :=
    ((distinct.subperm fun id there => (reached id there).1).perm_of_length_le
      (Nat.le_of_eq whole.symm)).symm.subset
  exact fun id there => (reached id (all there)).2

/-! ## The persisted graph -/

theorem createSteps_columns {cuid : Nat → String} {identity : ScopedIdentity}
    {workflowId : String} {canvasSteps : List CanvasStep} {created steps : List WorkflowStep}
    (ok : createSteps cuid identity workflowId canvasSteps created = .ok steps) :
    steps.map (fun step => (step.key, step.type, step.config)) =
      created.map (fun step => (step.key, step.type, step.config)) ++
        canvasSteps.map fun step => (step.key, step.type, step.config) := by
  induction canvasSteps generalizing created with
  | nil =>
      cases ok
      simp
  | cons step rest ih =>
      rw [createSteps] at ok
      split at ok
      · cases ok
      · rw [ih ok]
        simp

/-- The rows written for transitions join the steps with the keys of their ends. -/
theorem createTransitions_joins {steps : List WorkflowStep} {identity : ScopedIdentity}
    {workflowId : String} {canvasTransitions : List CanvasTransition}
    {created transitions : List WorkflowTransition}
    (ok : createTransitions steps identity workflowId canvasTransitions created =
      .ok transitions) :
    ∀ row, row ∈ transitions ↔ row ∈ created ∨
      ∃ transition ∈ canvasTransitions, ∃ source target,
        steps.find? (·.key = transition.source) = some source ∧
        steps.find? (·.key = transition.target) = some target ∧
        row = {
          workflowId
          tenantId := identity.tenantId
          organizationId := identity.organizationId
          sourceStepId := source.id
          targetStepId := target.id
          route := transition.route } := by
  induction canvasTransitions generalizing created with
  | nil =>
      cases ok
      simp
  | cons transition rest ih =>
      rw [createTransitions] at ok
      split at ok
      swap
      · cases ok
      rename_i source target foundSource foundTarget
      split at ok
      · cases ok
      · intro row
        rw [ih ok row]
        simp [foundSource, foundTarget, or_assoc]

/-- A transition of the workflow leads from step `a` to step `b`. -/
def Leads (workflow : Definition) (a b : WorkflowStep) : Prop :=
  ∃ transition ∈ workflow.transitions,
    transition.sourceStepId = a.id ∧ transition.targetStepId = b.id

/-- The workflow's rows are those of the canvas, which `ensureCanvasIsDag` accepts. -/
structure PersistedFrom (canvas : Canvas) (workflow : Definition) : Prop where
  rooted : ∃ root, Rooted (canvas.steps.map (·.key))
    (canvas.transitions.map fun t => ⟨t.route, t.source, t.target⟩) root
  steps : PersistedSteps workflow.steps
  columns : workflow.steps.map (fun step => (step.key, step.type, step.config)) =
    canvas.steps.map fun step => (step.key, step.type, step.config)
  sources : ∀ t ∈ workflow.transitions, ∃ a ∈ workflow.steps, t.sourceStepId = a.id
  leads : ∀ a ∈ workflow.steps, ∀ b ∈ workflow.steps, ∀ route,
    (∃ t ∈ workflow.transitions, t.sourceStepId = a.id ∧ t.targetStepId = b.id ∧
      t.route = route) ↔
    ∃ t ∈ canvas.transitions, t.source = a.key ∧ t.target = b.key ∧ t.route = route

theorem PersistedSteps.find_key {steps : List WorkflowStep} (persisted : PersistedSteps steps)
    {key : String} {step : WorkflowStep} :
    steps.find? (·.key = key) = some step ↔ step ∈ steps ∧ step.key = key := by
  constructor
  · intro found
    exact ⟨List.mem_of_find?_eq_some found, by simpa using List.find?_some found⟩
  · rintro ⟨there, rfl⟩
    cases found : steps.find? (fun other => decide (other.key = step.key)) with
    | none => simpa using List.find?_eq_none.mp found step there
    | some other =>
        have same : other.key = step.key := by simpa using List.find?_some found
        rw [persisted.eq_of_key (List.mem_of_find?_eq_some found) there same]

theorem createWorkflow_persistedFrom {cuid : Nat → String} {identity : ScopedIdentity}
    {id : String} {status : WorkflowStatus} {maxDepth : Int} {canvas : Canvas}
    {workflow : Definition} (injective : Function.Injective cuid)
    (ok : createWorkflow cuid identity id status maxDepth canvas = .ok workflow) :
    PersistedFrom canvas workflow := by
  have steps := (createWorkflow_validated injective ok).steps
  cases valid : ensureCanvasIsDag canvas with
  | error e => simp [createWorkflow, valid] at ok
  | ok result =>
  cases created : createSteps cuid identity id canvas.steps [] with
  | error e => simp [createWorkflow, valid, persistCanvas, created, bind, Except.bind] at ok
  | ok rows =>
  cases linked : createTransitions rows identity id canvas.transitions [] with
  | error e => simp [createWorkflow, valid, persistCanvas, created, linked, bind, Except.bind] at ok
  | ok transitions =>
      simp only [createWorkflow, valid, persistCanvas, created, linked, bind, Except.bind, pure,
        Except.pure, Except.ok.injEq] at ok
      subst ok
      obtain ⟨root, rooted⟩ := validateDag_rooted valid
      rw [List.map_map] at rooted
      refine ⟨⟨root, rooted⟩, steps, by simpa using createSteps_columns created, ?_, ?_⟩
      · intro row present
        rcases (createTransitions_joins linked row).mp present with old | new
        · cases old
        · obtain ⟨t, known, begins, ends, foundSource, foundTarget, rfl⟩ := new
          exact ⟨begins, (steps.find_key.mp foundSource).1, rfl⟩
      intro a here b there route
      constructor
      · rintro ⟨row, present, source, target, rfl⟩
        rcases (createTransitions_joins linked row).mp present with old | new
        · cases old
        · obtain ⟨t, known, begins, ends, foundSource, foundTarget, rfl⟩ := new
          obtain ⟨mem, key⟩ := steps.find_key.mp foundSource
          obtain ⟨mem', key'⟩ := steps.find_key.mp foundTarget
          rw [steps.eq_of_id mem here source] at key
          rw [steps.eq_of_id mem' there target] at key'
          exact ⟨t, known, key.symm, key'.symm, rfl⟩
      · rintro ⟨t, known, source, target, rfl⟩
        exact ⟨_, (createTransitions_joins linked _).mpr (.inr ⟨t, known, a, b,
          steps.find_key.mpr ⟨here, source.symm⟩, steps.find_key.mpr ⟨there, target.symm⟩,
          rfl⟩), rfl, rfl, rfl⟩

section Persisted

variable {canvas : Canvas} {workflow : Definition}

theorem PersistedFrom.keys (persisted : PersistedFrom canvas workflow) :
    workflow.steps.map (·.key) = canvas.steps.map (·.key) := by
  simpa [Function.comp_def] using congrArg (List.map Prod.fst) persisted.columns

theorem PersistedFrom.leads_iff (persisted : PersistedFrom canvas workflow) {a b : WorkflowStep}
    (here : a ∈ workflow.steps) (there : b ∈ workflow.steps) :
    Leads workflow a b ↔ ∃ t ∈ canvas.transitions, t.source = a.key ∧ t.target = b.key := by
  constructor
  · rintro ⟨row, present, source, target⟩
    obtain ⟨t, known, begins, ends, _⟩ :=
      (persisted.leads a here b there row.route).mp ⟨row, present, source, target, rfl⟩
    exact ⟨t, known, begins, ends⟩
  · rintro ⟨t, known, source, target⟩
    obtain ⟨row, present, begins, ends, _⟩ :=
      (persisted.leads a here b there t.route).mpr ⟨t, known, source, target, rfl⟩
    exact ⟨row, present, begins, ends⟩

/-- Every step can be reached from a step without incoming transitions. -/
theorem PersistedFrom.reaches (persisted : PersistedFrom canvas workflow) {first : WorkflowStep}
    (here : first ∈ workflow.steps)
    (source : ∀ t ∈ canvas.transitions, t.target ≠ first.key) :
    ∀ step ∈ workflow.steps, Relation.ReflTransGen (Leads workflow) first step := by
  obtain ⟨root, rooted⟩ := persisted.rooted
  have known : ∀ step ∈ workflow.steps, step.key ∈ canvas.steps.map (·.key) := by
    intro step there
    rw [← persisted.keys]
    exact List.mem_map_of_mem there
  have same : first.key = root :=
    rooted.unique first.key (known first here) (by simpa using source)
  -- Along a path of keys there is a path of steps.
  have lift : ∀ id, Relation.ReflTransGen (fun a b => ∃ edge ∈ canvas.transitions.map
      (fun t : CanvasTransition => (⟨t.route, t.source, t.target⟩ : DagEdge)),
        edge.source = a ∧ edge.target = b) root id →
      ∃ step ∈ workflow.steps, step.key = id ∧
        Relation.ReflTransGen (Leads workflow) first step := by
    intro id path
    induction path with
    | refl => exact ⟨first, here, same, .refl⟩
    | tail _ edge ih =>
        obtain ⟨before, there, rfl, reached⟩ := ih
        obtain ⟨e, member, begins, rfl⟩ := edge
        have target := (rooted.joins e member).2
        rw [← persisted.keys] at target
        obtain ⟨after, there', key⟩ := List.mem_map.mp target
        obtain ⟨t, present, rfl⟩ := List.mem_map.mp member
        exact ⟨after, there', key, reached.tail
          ((persisted.leads_iff there there').mpr ⟨t, present, begins, key.symm⟩)⟩
  intro step there
  obtain ⟨other, there', key, reached⟩ := lift step.key (rooted.reaches _ (known step there))
  rwa [persisted.steps.eq_of_key there' there key] at reached

/-- The root of the canvas is one of the persisted steps, and nothing leads to it. -/
theorem PersistedFrom.root (persisted : PersistedFrom canvas workflow) :
    ∃ root ∈ workflow.steps, (∀ t ∈ canvas.transitions, t.target ≠ root.key) ∧
      ∀ step, ¬ Leads workflow step root := by
  obtain ⟨key, rooted⟩ := persisted.rooted
  have member := rooted.mem
  rw [← persisted.keys] at member
  obtain ⟨root, there, rfl⟩ := List.mem_map.mp member
  have source : ∀ t ∈ canvas.transitions, t.target ≠ root.key := by simpa using rooted.source
  refine ⟨root, there, source, ?_⟩
  rintro step ⟨row, present, _, target⟩
  obtain ⟨before, here, own⟩ := persisted.sources row present
  obtain ⟨t, known, _, same⟩ := (persisted.leads_iff here there).mp ⟨row, present, own, target⟩
  exact source t known same

end Persisted

/-! ## The step at which an execution starts -/

/-- The worker, reading the workflow's steps as `worker`, and the API, reading them as
`api`, start at one and the same step, and every step of the workflow can be reached from
it along its transitions. -/
def RunsCompletely (workflow : Definition) (worker api : List WorkflowStep) : Prop :=
  ∃ first, triggerStep { workflow with steps := worker } = some first ∧
    runTriggerStep { workflow with steps := api } = some first ∧
    ∀ step ∈ workflow.steps, Relation.ReflTransGen (Leads workflow) first step

/-- The first of the rows with a trigger type is a step of the canvas without incoming
transitions. -/
def StartsAtRoot (canvas : Canvas) (rows : List WorkflowStep) : Prop :=
  ∃ step, rows.find? (·.type.isTrigger) = some step ∧
    ∀ transition ∈ canvas.transitions, transition.target ≠ step.key

section Complete

variable {canvas : Canvas} {workflow : Definition} {worker api : List WorkflowStep}

/-- Where every step is reached, the start is the root. -/
theorem RunsCompletely.startsAtRoot (persisted : PersistedFrom canvas workflow)
    (complete : RunsCompletely workflow worker api) :
    StartsAtRoot canvas worker ∧ StartsAtRoot canvas api := by
  obtain ⟨first, starts, starts', reaches⟩ := complete
  rw [runTriggerStep_eq_triggerStep] at starts'
  obtain ⟨root, there, source, unled⟩ := persisted.root
  -- Nothing leads to the root, so only the root reaches it.
  have same : root = first := by
    rcases Relation.ReflTransGen.cases_tail (reaches root there) with same | ⟨before, _, leads⟩
    · exact same
    · exact (unled before leads).elim
  subst same
  exact ⟨⟨root, starts, source⟩, root, starts', source⟩

/-- Where both readings start at the root, they start at the same step, which reaches every
other. -/
theorem PersistedFrom.runsCompletely (persisted : PersistedFrom canvas workflow)
    (workerRows : worker.Perm workflow.steps) (apiRows : api.Perm workflow.steps)
    (workerStarts : StartsAtRoot canvas worker) (apiStarts : StartsAtRoot canvas api) :
    RunsCompletely workflow worker api := by
  obtain ⟨first, starts, source⟩ := workerStarts
  obtain ⟨other, starts', source'⟩ := apiStarts
  have here : first ∈ workflow.steps := workerRows.mem_iff.mp (List.mem_of_find?_eq_some starts)
  have there : other ∈ workflow.steps := apiRows.mem_iff.mp (List.mem_of_find?_eq_some starts')
  obtain ⟨root, rooted⟩ := persisted.rooted
  have unique : ∀ step ∈ workflow.steps, (∀ t ∈ canvas.transitions, t.target ≠ step.key) →
      step.key = root := by
    intro step there source
    refine rooted.unique step.key ?_ (by simpa using source)
    rw [← persisted.keys]
    exact List.mem_map_of_mem there
  obtain rfl : first = other := persisted.steps.eq_of_key here there
    ((unique first here source).trans (unique other there source').symm)
  refine ⟨first, starts, ?_, persisted.reaches here source⟩
  rw [runTriggerStep_eq_triggerStep]
  exact starts'

end Complete

/-- A persisted canvas runs completely just when the step without incoming transitions is,
in both readings of the rows, the first one with a trigger type. -/
theorem runsCompletely_iff_startsAtRoot {isUrl : String → Bool} {input : Json} {canvas : Canvas}
    {cuid : Nat → String} {identity : ScopedIdentity} {id : String} {status : WorkflowStatus}
    {maxDepth : Int} {workflow : Definition} {worker api : List WorkflowStep}
    (_accepted : workflowCanvasSchema isUrl input = some canvas)
    (injective : Function.Injective cuid)
    (created : createWorkflow cuid identity id status maxDepth canvas = .ok workflow)
    (workerRows : worker.Perm workflow.steps) (apiRows : api.Perm workflow.steps) :
    RunsCompletely workflow worker api ↔ StartsAtRoot canvas worker ∧ StartsAtRoot canvas api := by
  have persisted := createWorkflow_persistedFrom injective created
  constructor
  · exact RunsCompletely.startsAtRoot persisted
  · rintro ⟨workerStarts, apiStarts⟩
    exact persisted.runsCompletely workerRows apiRows workerStarts apiStarts

def eventTrigger (key : String) : Json := .object [
  ("type", .string "TRIGGER_EVENT"), ("key", .string key), ("name", .string "Order created"),
  ("config", .object [("topic", .string "order.created")])]

def transformerStep (key : String) : Json := .object [
  ("type", .string "TRANSFORMER"), ("key", .string key), ("name", .string "Clean"),
  ("config", .object [])]

/-- Two steps, the first of which leads to the second. -/
def twoSteps (first second : Json) (source target : String) : Json := .object [
  ("steps", .array [first, second]),
  ("transitions", .array [.object [("source", .string source), ("target", .string target)]])]

/-- A trigger that leads to a transformer. -/
def leadingTrigger : Json := twoSteps (eventTrigger "hook") (transformerStep "clean") "hook" "clean"

def leadingCanvas : Canvas :=
  (workflowCanvasSchema (fun _ => true) leadingTrigger).get (by decide)

def leadingWorkflow : Definition := publishedWorkflow leadingCanvas 50 (by decide)

/-- Whether the first row with a trigger type is that of a step without incoming
transitions. -/
def startsAtRoot (canvas : Canvas) (rows : List WorkflowStep) : Bool :=
  (rows.find? (·.type.isTrigger)).any fun step =>
    canvas.transitions.all fun transition => transition.target != step.key

theorem startsAtRoot_iff {canvas : Canvas} {rows : List WorkflowStep} :
    startsAtRoot canvas rows = true ↔ StartsAtRoot canvas rows := by
  unfold startsAtRoot StartsAtRoot
  cases rows.find? (·.type.isTrigger) <;> simp

/-- A trigger at the root starts the workflow, also when the worker reads the rows in
another order. -/
theorem leadingTrigger_runsCompletely :
    RunsCompletely leadingWorkflow leadingWorkflow.steps.reverse leadingWorkflow.steps := by
  have accepted : workflowCanvasSchema (fun _ => true) leadingTrigger = some leadingCanvas :=
    (Option.some_get _).symm
  refine (runsCompletely_iff_startsAtRoot accepted unaryCuid_injective
    (publishedWorkflow_created _) (List.reverse_perm _) (List.Perm.refl _)).mpr ⟨?_, ?_⟩
  · exact startsAtRoot_iff.mp (by decide)
  · exact startsAtRoot_iff.mp (by decide)

/-- A transformer that leads to a trigger. -/
def buriedTrigger : Json := twoSteps (transformerStep "clean") (eventTrigger "hook") "clean" "hook"

def buriedCanvas : Canvas :=
  (workflowCanvasSchema (fun _ => true) buriedTrigger).get (by decide)

def buriedWorkflow : Definition := publishedWorkflow buriedCanvas 50 (by decide)

/-- The validator accepts a trigger that is not the root; the steps before it never run. -/
theorem buriedTrigger_not_runsCompletely :
    workflowCanvasSchema (fun _ => true) buriedTrigger = some buriedCanvas ∧
      createWorkflow unaryCuid ⟨"org", "tenant"⟩ "workflow" .PUBLISHED 50 buriedCanvas =
        .ok buriedWorkflow ∧
      ¬ RunsCompletely buriedWorkflow buriedWorkflow.steps buriedWorkflow.steps := by
  refine ⟨(Option.some_get _).symm, publishedWorkflow_created _, fun complete => ?_⟩
  have persisted : PersistedFrom buriedCanvas buriedWorkflow :=
    createWorkflow_persistedFrom unaryCuid_injective (publishedWorkflow_created _)
  have starts := (complete.startsAtRoot persisted).1
  rw [← startsAtRoot_iff] at starts
  exact absurd starts (by decide)

end Workflow
