import BirthHub.Workflow.Dag

/-!
# Canvases and the rows they are persisted as

The canvas a client submits, `ensureCanvasIsDag` and `persistCanvas` of
`apps/api/src/modules/workflows/service.ts`, and the rows of `schema.prisma` that the
worker reads back. `Validated` is what the rest of the development assumes of a
workflow: its steps and transitions are those of a canvas that `ensureCanvasIsDag`
accepts.
-/

namespace Workflow

open Data

/-! ## Rows -/

inductive OnError
  | STOP
  | CONTINUE
deriving DecidableEq, Repr

structure WorkflowStep where
  id : String
  workflowId : String
  tenantId : String
  organizationId : String
  key : String
  name : String
  type : StepType
  config : Json
  isTrigger : Bool := false
  onError : OnError := .STOP
  cacheTTLSeconds : Option Int := none

structure WorkflowTransition where
  workflowId : String
  tenantId : String
  organizationId : String
  sourceStepId : String
  targetStepId : String
  route : Route := .ALWAYS
deriving DecidableEq

inductive WorkflowStatus
  | DRAFT
  | PUBLISHED
  | ARCHIVED
deriving DecidableEq, Repr

structure Definition where
  id : String
  tenantId : String
  organizationId : String
  status : WorkflowStatus := .DRAFT
  maxDepth : Int := 50
  steps : List WorkflowStep
  transitions : List WorkflowTransition

/-! ## Canvases -/

structure CanvasStep where
  key : String
  name : String
  type : StepType
  config : Json
  /-- Only the trigger schemas have the field. -/
  isTrigger : Option Bool := none

structure CanvasTransition where
  source : String
  target : String
  route : Route := .ALWAYS

structure Canvas where
  steps : List CanvasStep
  transitions : List CanvasTransition

structure ScopedIdentity where
  organizationId : String
  tenantId : String

def ensureCanvasIsDag (canvas : Canvas) : Except InvalidGraphError DagValidationResult :=
  validateDag
    (canvas.steps.map fun step =>
      { id := step.key, isTrigger := step.isTrigger.getD false, type := step.type })
    (canvas.transitions.map fun transition =>
      { route := transition.route, source := transition.source, target := transition.target })

/-- The error of a write that breaks a unique constraint. -/
def uniqueViolation (fields : String) : Thrown where
  message := some s!"Unique constraint failed on the fields: {fields}"
  code := some "P2002"

/-- The first loop of `persistCanvas`; `cuid n` is the id of the `n`-th row created. -/
def createSteps (cuid : Nat → String) (identity : ScopedIdentity) (workflowId : String) :
    List CanvasStep → List WorkflowStep → Except Thrown (List WorkflowStep)
  | [], created => pure created
  | step :: steps, created =>
      if created.any (·.key == step.key) then
        throw (uniqueViolation "(workflowId,key)")
      else
        createSteps cuid identity workflowId steps (created ++ [{
          id := cuid created.length
          workflowId
          tenantId := identity.tenantId
          organizationId := identity.organizationId
          key := step.key
          name := step.name
          type := step.type
          config := step.config
          isTrigger := step.type.isTrigger }])

/-- The second loop of `persistCanvas`. -/
def createTransitions (steps : List WorkflowStep) (identity : ScopedIdentity)
    (workflowId : String) : List CanvasTransition → List WorkflowTransition →
    Except Thrown (List WorkflowTransition)
  | [], created => pure created
  | transition :: transitions, created =>
      match steps.find? (·.key = transition.source), steps.find? (·.key = transition.target) with
      | some source, some target =>
          if created.any fun t =>
              t.sourceStepId = source.id ∧ t.targetStepId = target.id ∧
                t.route = transition.route then
            throw (uniqueViolation "(workflowId,sourceStepId,targetStepId,route)")
          else
            createTransitions steps identity workflowId transitions (created ++ [{
              workflowId
              tenantId := identity.tenantId
              organizationId := identity.organizationId
              sourceStepId := source.id
              targetStepId := target.id
              route := transition.route }])
      | _, _ => throw (error "WORKFLOW_TRANSITION_MISSING_ENDPOINT")

def persistCanvas (cuid : Nat → String) (identity : ScopedIdentity) (workflowId : String)
    (canvas : Canvas) : Except Thrown (List WorkflowStep × List WorkflowTransition) := do
  let steps ← createSteps cuid identity workflowId canvas.steps []
  let transitions ← createTransitions steps identity workflowId canvas.transitions []
  pure (steps, transitions)

/-- `createWorkflow`, as far as the worker reads what it writes: `id` is the id of the new
row, and the canvas is validated before anything is written. -/
def createWorkflow (cuid : Nat → String) (identity : ScopedIdentity) (id : String)
    (status : WorkflowStatus) (maxDepth : Int) (canvas : Canvas) : Except Thrown Definition :=
  match ensureCanvasIsDag canvas with
  | .error e => .error (error e.message)
  | .ok _ => do
      let (steps, transitions) ← persistCanvas cuid identity id canvas
      pure {
        id
        tenantId := identity.tenantId
        organizationId := identity.organizationId
        status
        maxDepth
        steps
        transitions }

/-- The workflow's rows are those of a canvas that `ensureCanvasIsDag` accepts, persisted
with ids that are pairwise different. -/
structure Validated (workflow : Definition) : Prop where
  persisted : ∃ (canvas : Canvas) (cuid : Nat → String) (identity : ScopedIdentity),
    Function.Injective cuid ∧ (ensureCanvasIsDag canvas).isOk ∧
      persistCanvas cuid identity workflow.id canvas =
        .ok (workflow.steps, workflow.transitions)

theorem createWorkflow_validated {cuid : Nat → String} {identity : ScopedIdentity}
    {id : String} {status : WorkflowStatus} {maxDepth : Int} {canvas : Canvas}
    {workflow : Definition} (injective : Function.Injective cuid)
    (created : createWorkflow cuid identity id status maxDepth canvas = .ok workflow) :
    Validated workflow := by
  cases valid : ensureCanvasIsDag canvas with
  | error e => simp [createWorkflow, valid] at created
  | ok result =>
      cases persisted : persistCanvas cuid identity id canvas with
      | error e => simp [createWorkflow, valid, persisted, bind, Except.bind] at created
      | ok rows =>
          simp only [createWorkflow, valid, persisted, bind, Except.bind, pure, Except.pure,
            Except.ok.injEq] at created
          subst created
          exact ⟨canvas, cuid, identity, injective, by rw [valid]; rfl, persisted⟩

/-- Row ids by their length, for concrete workflows. -/
def unaryCuid (n : Nat) : String := String.ofList (List.replicate (n + 1) 'c')

theorem unaryCuid_injective : Function.Injective unaryCuid := by
  intro n m same
  simpa [unaryCuid] using congrArg String.length same

/-- The workflow that `createWorkflow` publishes for a canvas it accepts. -/
def publishedWorkflow (canvas : Canvas) (maxDepth : Int)
    (accepted : (createWorkflow unaryCuid ⟨"org", "tenant"⟩ "workflow" .PUBLISHED maxDepth
      canvas).toOption.isSome) : Definition :=
  (createWorkflow unaryCuid ⟨"org", "tenant"⟩ "workflow" .PUBLISHED maxDepth
    canvas).toOption.get accepted

theorem publishedWorkflow_created {canvas : Canvas} {maxDepth : Int}
    (accepted : (createWorkflow unaryCuid ⟨"org", "tenant"⟩ "workflow" .PUBLISHED maxDepth
      canvas).toOption.isSome) :
    createWorkflow unaryCuid ⟨"org", "tenant"⟩ "workflow" .PUBLISHED maxDepth canvas =
      .ok (publishedWorkflow canvas maxDepth accepted) := by
  unfold publishedWorkflow
  generalize createWorkflow unaryCuid ⟨"org", "tenant"⟩ "workflow" .PUBLISHED maxDepth
    canvas = result at accepted
  cases result with
  | error e => cases accepted
  | ok workflow => rfl

theorem publishedWorkflow_validated {canvas : Canvas} {maxDepth : Int}
    (accepted : (createWorkflow unaryCuid ⟨"org", "tenant"⟩ "workflow" .PUBLISHED maxDepth
      canvas).toOption.isSome) : Validated (publishedWorkflow canvas maxDepth accepted) :=
  createWorkflow_validated unaryCuid_injective (publishedWorkflow_created accepted)

/-! ## What persisted rows look like -/

/-- The steps created so far: keys and ids are pairwise different, and the columns that
`persistCanvas` does not write have their defaults. -/
structure PersistedSteps (steps : List WorkflowStep) : Prop where
  keys : (steps.map (·.key)).Nodup
  ids : (steps.map (·.id)).Nodup
  onError : ∀ step ∈ steps, step.onError = .STOP
  cacheTTLSeconds : ∀ step ∈ steps, step.cacheTTLSeconds = none

theorem createSteps_persisted {cuid : Nat → String} {identity : ScopedIdentity}
    {workflowId : String} {canvasSteps : List CanvasStep} {created steps : List WorkflowStep}
    (injective : Function.Injective cuid) (before : PersistedSteps created)
    (named : ∀ step ∈ created, ∃ n < created.length, step.id = cuid n)
    (ok : createSteps cuid identity workflowId canvasSteps created = .ok steps) :
    PersistedSteps steps := by
  induction canvasSteps generalizing created with
  | nil =>
      cases ok
      exact before
  | cons step rest ih =>
      simp only [createSteps] at ok
      split at ok
      · cases ok
      · rename_i fresh
        refine ih ?_ ?_ ok
        · constructor
          · rw [List.map_append, List.nodup_append]
            refine ⟨before.keys, List.nodup_singleton _, ?_⟩
            simp only [List.any_eq_true, beq_iff_eq, not_exists, not_and] at fresh
            simp only [List.map_cons, List.map_nil, List.mem_map, List.mem_singleton]
            rintro key ⟨other, there, rfl⟩ _ rfl
            exact fresh other there
          · rw [List.map_append, List.nodup_append]
            refine ⟨before.ids, List.nodup_singleton _, ?_⟩
            simp only [List.map_cons, List.map_nil, List.mem_map, List.mem_singleton]
            rintro id ⟨other, there, rfl⟩ _ rfl same
            obtain ⟨n, bound, numbered⟩ := named other there
            have := injective (numbered.symm.trans same)
            omega
          · intro other there
            rcases List.mem_append.mp there with there | there
            · exact before.onError other there
            · rw [List.mem_singleton.mp there]
          · intro other there
            rcases List.mem_append.mp there with there | there
            · exact before.cacheTTLSeconds other there
            · rw [List.mem_singleton.mp there]
        · intro other there
          rw [List.length_append, List.length_singleton]
          rcases List.mem_append.mp there with there | there
          · obtain ⟨n, bound, numbered⟩ := named other there
            exact ⟨n, by omega, numbered⟩
          · rw [List.mem_singleton.mp there]
            exact ⟨created.length, by omega, rfl⟩

theorem Validated.steps {workflow : Definition} (valid : Validated workflow) :
    PersistedSteps workflow.steps := by
  obtain ⟨canvas, cuid, identity, injective, _, ok⟩ := valid.persisted
  simp only [persistCanvas] at ok
  cases created : createSteps cuid identity workflow.id canvas.steps [] with
  | error e => simp [created, bind, Except.bind] at ok
  | ok steps =>
      simp only [created, bind, Except.bind] at ok
      cases linked : createTransitions steps identity workflow.id canvas.transitions [] with
      | error e => simp [linked] at ok
      | ok transitions =>
          simp only [linked, pure, Except.pure, Except.ok.injEq, Prod.mk.injEq] at ok
          rw [← ok.1]
          exact createSteps_persisted injective
            ⟨by simp, by simp, by simp, by simp⟩ (by simp) created

theorem PersistedSteps.eq_of_id {steps : List WorkflowStep} (persisted : PersistedSteps steps)
    {a b : WorkflowStep} (left : a ∈ steps) (right : b ∈ steps) (same : a.id = b.id) : a = b :=
  List.inj_on_of_nodup_map persisted.ids left right same

theorem PersistedSteps.eq_of_key {steps : List WorkflowStep} (persisted : PersistedSteps steps)
    {a b : WorkflowStep} (left : a ∈ steps) (right : b ∈ steps) (same : a.key = b.key) : a = b :=
  List.inj_on_of_nodup_map persisted.keys left right same

end Workflow
