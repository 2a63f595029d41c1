import BirthHub.Data.JsonValue
import BirthHub.Agents.Worker
import BirthHub.Workflow.DataFlow
import BirthHub.Workflow.Templates

/-!
# The cache of step outputs

The runner serves a step from an earlier result when the hashes of the two jobs are the same. The
hash covers the key of the step, the results of the execution and the trigger payload, but a
template may also read the execution's id and the type of the trigger. Where it does, the output
that is served belongs to another configuration than the one that the step would have run with.
-/

namespace Workflow

open Data Effect Agents

variable {rt : Runtime} {config : Json} {first second : StepJob}

/-- A job that has reached its `try`, with what it has read. The data it was given are JSON. -/
structure StepJob where
  payload : WorkflowExecutionJobPayload
  step : WorkflowStep
  previousResults : List (String × StepResult)
  payload_finite : payload.triggerPayload.IsFinite
  results_finite : ∀ entry ∈ previousResults, entry.2.input.IsFinite ∧ entry.2.output.IsFinite

namespace StepJob

def steps (job : StepJob) : Json := stepsContext job.previousResults

def hash (rt : Runtime) (job : StepJob) : String :=
  stepInputHash rt job.step job.steps job.payload

/-- The context in which the job executes its step. -/
def context (job : StepJob) : RuntimeContext where
  executionId := job.payload.executionId
  steps := job.steps
  tenantId := job.payload.tenantId
  triggerOutput := job.payload.triggerPayload
  triggerType := job.payload.triggerType
  workflowId := job.payload.workflowId

/-- The program that obtains the output of the step. -/
def obtain (rt : Runtime) (job : StepJob) (parsedStep : Json) : Prog RunnerIface (Option Json) :=
  obtainOutput job.payload job.step parsedStep job.steps (job.hash rt)

/-- The row that the job stores for an output. -/
def row (rt : Runtime) (job : StepJob) (now : Int) (output : Option Json) : StepResult :=
  outputResult rt job.payload job.step (job.hash rt) now output

end StepJob

/-- The rows that the query for cached results of a step answers with. -/
structure IsCandidate (job : StepJob) (finishedFrom : Int) (row : StepResult) : Prop where
  workflow : row.workflowId = job.payload.workflowId
  step : row.stepId = job.step.id
  success : row.status = .SUCCESS
  recent : ∃ finishedAt, row.finishedAt = some finishedAt ∧ finishedFrom ≤ finishedAt

/-- The first job has obtained an output and stored its row; the second finds the row among the
candidates that its query answers with, and is served an output from it. -/
structure Serves (rt : Runtime) (first second : StepJob) (produced : Option Json)
    (served : Json) : Prop where
  tenant : first.payload.tenantId = second.payload.tenantId
  made : ∃ parsedStep events, (first.obtain rt parsedStep).Goes events (.pure produced)
  found : ∃ (ranAt askedAt finishedFrom : Int) (candidates : List StepResult),
    (findCachedOutput second.payload second.step (second.hash rt)).Goes
      [⟨.now, .ok askedAt⟩,
        ⟨.findCacheCandidates second.payload.workflowId second.step.id finishedFrom,
          .ok candidates⟩]
      (.pure (some served)) ∧
    (∀ row ∈ candidates, IsCandidate second finishedFrom row) ∧
    candidates.find? (isCacheHit (second.hash rt)) = some (first.row rt ranAt produced)

/-- Whatever is served to a step with the configuration is what the first job produced, and was
produced for the configuration that the second job has. -/
def CacheSound (rt : Runtime) (config : Json) : Prop :=
  ∀ (first second : StepJob) (produced : Option Json) (served : Json),
    second.step.config = config → Serves rt first second produced served →
    interpolateValue (contextJson second.context) config =
      interpolateValue (contextJson first.context) config ∧ produced = some served

/-- The paths that read the id of the execution or the type of the trigger. -/
def readsRun (segments : List String) : Bool :=
  segments ∈ [[], ["executionId"], ["trigger"], ["trigger", "type"]]

mutual

/-- The expressions of the tokens that interpolation replaces. -/
def valueTokens : Json → List String
  | .string s => tokens 0 s.toList
  | .array items => itemsTokens items
  | .object members => membersTokens members
  | _ => []

def itemsTokens : List Json → List String
  | [] => []
  | item :: items => valueTokens item ++ itemsTokens items

def membersTokens : List (String × Json) → List String
  | [] => []
  | (key, value) :: members =>
      if key = "__proto__" then membersTokens members
      else valueTokens value ++ membersTokens members

end

/-- No token of the configuration reads what the hash leaves out. -/
def Covered (config : Json) : Prop :=
  ∀ e ∈ valueTokens config, readsRun (pathSegments e) = false

/-! ## What a path reads -/

variable {v w : Json} {c c' : RuntimeContext} {e segment : String} {segments : List String}

theorem lookup_finite {members : List (String × Json)} (finite : Json.MembersFinite members)
    (found : members.lookup segment = some v) : v.IsFinite := by
  obtain ⟨before, after, rfl, _⟩ := List.lookup_eq_some_iff.mp found
  exact Json.membersFinite_iff.mp finite _ (List.mem_append_right _ List.mem_cons_self)

/-- Of two values with one meaning a segment names values with one meaning, or none of either. -/
theorem segmentValue_alike (finite : v.IsFinite) (finite' : w.IsFinite)
    (same : v.meaning = w.meaning) (segment : String) :
    inheritedProperty v segment = inheritedProperty w segment ∧
    ((segmentValue v segment = none ∧ segmentValue w segment = none) ∨
      ∃ a b, segmentValue v segment = some a ∧ segmentValue w segment = some b ∧
        a.IsFinite ∧ b.IsFinite ∧ a.meaning = b.meaning) := by
  cases Json.alike_of_meaning finite finite' same with
  | same value =>
      refine ⟨rfl, ?_⟩
      cases found : segmentValue v segment with
      | none => exact .inl ⟨rfl, rfl⟩
      | some a =>
          refine .inr ⟨a, a, rfl, rfl, ?_⟩
          have inner : a.IsFinite := by
            cases v with
            | null | bool b | number n | string s => cases found
            | object members => exact lookup_finite finite found
            | array items =>
                rw [segmentValue] at found
                split at found
                · cases found
                  rfl
                · obtain ⟨index, _, there⟩ := Option.bind_eq_some_iff.mp found
                  exact Json.areFinite_iff.mp finite a (List.mem_of_getElem? there)
          exact ⟨inner, inner, rfl⟩
  | number text => exact ⟨rfl, .inl ⟨rfl, rfl⟩⟩
  | @array items items' all =>
      refine ⟨rfl, ?_⟩
      rw [segmentValue, segmentValue]
      split
      · have length := congrArg List.length all
        rw [List.length_map, List.length_map] at length
        rw [length]
        exact .inr ⟨_, _, rfl, rfl, rfl, rfl, rfl⟩
      · cases Json.arrayIndex segment with
        | none => exact .inl ⟨rfl, rfl⟩
        | some index =>
            have there := congrArg (·[index]?) all
            simp only [List.getElem?_map] at there
            rw [Option.bind_some, Option.bind_some]
            cases found : items[index]? with
            | none =>
                rw [found] at there
                exact .inl ⟨rfl, Option.map_eq_none_iff.mp there.symm⟩
            | some a =>
                rw [found] at there
                obtain ⟨b, found', means⟩ := Option.map_eq_some_iff.mp there.symm
                exact .inr ⟨a, b, rfl, found',
                  Json.areFinite_iff.mp finite a (List.mem_of_getElem? found),
                  Json.areFinite_iff.mp finite' b (List.mem_of_getElem? found'), means.symm⟩
  | @object members members' all =>
      refine ⟨rfl, ?_⟩
      have there := congrArg (·.lookup segment) all
      simp only [Json.lookup_meaningMembers] at there
      rw [segmentValue, segmentValue]
      cases found : members.lookup segment with
      | none =>
          rw [found] at there
          exact .inl ⟨rfl, Option.map_eq_none_iff.mp there.symm⟩
      | some a =>
          rw [found] at there
          obtain ⟨b, found', means⟩ := Option.map_eq_some_iff.mp there.symm
          exact .inr ⟨a, b, rfl, found', lookup_finite finite found, lookup_finite finite' found',
            means.symm⟩

/-- A path has the same text in two values with one meaning. -/
theorem follow_alike (finite : v.IsFinite) (finite' : w.IsFinite) (same : v.meaning = w.meaning) :
    reachedText (follow (.own v) segments) = reachedText (follow (.own w) segments) := by
  induction segments generalizing v w with
  | nil =>
      have text := Json.stringify_of_meaning v w finite finite' same
      cases Json.alike_of_meaning finite finite' same with
      | same => rfl
      | number | array | object => exact text
  | cons segment segments ih =>
      rw [follow, follow, Reached.property, Reached.property]
      obtain ⟨inherits, named⟩ := segmentValue_alike finite finite' same segment
      rcases named with ⟨none, none'⟩ | ⟨a, b, found, found', inner, inner', means⟩
      · rw [none, none', inherits]
      · rw [found, found']
        exact ih inner inner' means

theorem follow_string {s : String} (more : segments ≠ []) :
    follow (.own (.string s)) segments = none := by
  cases segments with
  | nil => exact (more rfl).elim
  | cons => rfl

theorem lookup_cons_ite {key name : String} {members : List (String × Json)} :
    ((name, v) :: members).lookup key = if key = name then some v else members.lookup key := by
  rw [List.lookup_cons]
  by_cases same : key = name
  · simp [same]
  · rw [if_neg same, beq_eq_false_iff_ne.mpr same]

/-- What the trigger of a context has under a name. -/
theorem segment_trigger (c : RuntimeContext) (segment : String) :
    segmentValue (.object [("output", c.triggerOutput),
      ("type", .string (triggerText c.triggerType))]) segment =
      if segment = "output" then some c.triggerOutput
      else if segment = "type" then some (.string (triggerText c.triggerType)) else none := by
  simp only [segmentValue, lookup_cons_ite, List.lookup_nil]

/-- What a context has under a name. -/
theorem segment_context (c : RuntimeContext) (segment : String) :
    segmentValue (contextJson c) segment =
      if segment = "executionId" then some (.string c.executionId)
      else if segment = "steps" then some c.steps
      else if segment = "tenantId" then some (.string c.tenantId)
      else if segment = "trigger" then
        some (.object [("output", c.triggerOutput), ("type", .string (triggerText c.triggerType))])
      else if segment = "workflowId" then some (.string c.workflowId) else none := by
  simp only [contextJson, segmentValue, lookup_cons_ite, List.lookup_nil]

/-- A path that does not read the run has the same text in two contexts of one workflow whose
steps and trigger payload have the same texts. -/
theorem tokenText_covered (tenant : c.tenantId = c'.tenantId) (workflow : c.workflowId = c'.workflowId)
    (steps : ∀ segments, reachedText (follow (.own c.steps) segments) =
      reachedText (follow (.own c'.steps) segments))
    (output : ∀ segments, reachedText (follow (.own c.triggerOutput) segments) =
      reachedText (follow (.own c'.triggerOutput) segments))
    (covered : readsRun (pathSegments e) = false) :
    tokenText e (contextJson c) = tokenText e (contextJson c') := by
  unfold tokenText resolvePath
  generalize pathSegments e = segments at covered
  cases segments with
  | nil => cases covered
  | cons segment segments =>
      rw [follow, follow, Reached.property, Reached.property, segment_context, segment_context,
        ← tenant, ← workflow]
      by_cases executionId : segment = "executionId"
      · subst executionId
        have more : segments ≠ [] := fun none => by subst none; cases covered
        simp [follow_string more]
      · rw [if_neg executionId, if_neg executionId]
        by_cases isSteps : segment = "steps"
        · subst isSteps
          exact steps segments
        · rw [if_neg isSteps, if_neg isSteps]
          by_cases isTenant : segment = "tenantId"
          · rw [if_pos isTenant, if_pos isTenant]
            rfl
          · rw [if_neg isTenant, if_neg isTenant]
            by_cases isTrigger : segment = "trigger"
            · rw [if_pos isTrigger, if_pos isTrigger]
              cases segments with
              | nil => subst isTrigger; cases covered
              | cons next rest =>
                  rw [Option.map_some, Option.some_or, Option.bind_some, Option.map_some,
                    Option.some_or, Option.bind_some, follow, follow, Reached.property,
                    Reached.property, segment_trigger, segment_trigger]
                  by_cases isOutput : next = "output"
                  · rw [if_pos isOutput, if_pos isOutput]
                    exact output rest
                  · rw [if_neg isOutput, if_neg isOutput]
                    by_cases isType : next = "type"
                    · have more : rest ≠ [] := fun none => by
                        subst none isType isTrigger
                        cases covered
                      simp [isType, follow_string more]
                    · rw [if_neg isType, if_neg isType]
                      rfl
            · rw [if_neg isTrigger, if_neg isTrigger]
              rfl

/-! ## Interpolation in two contexts -/

section

variable {C C' : Json}

mutual

theorem interpolateValue_congr : ∀ value : Json,
    (∀ e ∈ valueTokens value, tokenText e C = tokenText e C') →
    interpolateValue C value = interpolateValue C' value
  | .null, _ | .bool _, _ | .number _, _ => rfl
  | .string s, same => by
      rw [interpolateValue, interpolateValue, interpolateTemplate, interpolateTemplate,
        replaceTokens_congr same]
  | .array items, same => by
      rw [interpolateValue, interpolateValue, interpolateItems_congr items same]
  | .object members, same => by
      rw [interpolateValue, interpolateValue, interpolateMembers_congr members same]

theorem interpolateItems_congr : ∀ items : List Json,
    (∀ e ∈ itemsTokens items, tokenText e C = tokenText e C') →
    interpolateItems C items = interpolateItems C' items
  | [], _ => rfl
  | item :: items, same => by
      rw [itemsTokens] at same
      rw [interpolateItems, interpolateItems,
        interpolateValue_congr item fun e inside => same e (List.mem_append_left _ inside),
        interpolateItems_congr items fun e inside => same e (List.mem_append_right _ inside)]

theorem interpolateMembers_congr : ∀ members : List (String × Json),
    (∀ e ∈ membersTokens members, tokenText e C = tokenText e C') →
    interpolateMembers C members = interpolateMembers C' members
  | [], _ => rfl
  | (key, value) :: members, same => by
      rw [membersTokens] at same
      rw [interpolateMembers, interpolateMembers]
      split
      · rename_i hidden
        rw [if_pos hidden] at same
        exact interpolateMembers_congr members same
      · rename_i named
        rw [if_neg named] at same
        rw [interpolateValue_congr value fun e inside => same e (List.mem_append_left _ inside),
          interpolateMembers_congr members fun e inside => same e (List.mem_append_right _ inside)]

end

mutual

/-- Where no text is shorter in the second context, a longer one makes a difference. -/
theorem interpolateValue_apart (longer : ∀ e, (tokenText e C).length ≤ (tokenText e C').length) :
    ∀ value : Json, interpolateValue C value = interpolateValue C' value →
    ∀ e ∈ valueTokens value, ¬ (tokenText e C).length < (tokenText e C').length
  | .null, _ | .bool _, _ | .number _, _ => fun e none => (List.not_mem_nil none).elim
  | .string s, same => by
      intro e inside strict
      rw [interpolateValue, interpolateValue, interpolateTemplate, interpolateTemplate] at same
      have whole : replaceTokens (tokenText · C) 0 s.toList =
          replaceTokens (tokenText · C') 0 s.toList := String.ofList_injective (Json.string.inj same)
      have apart : (replaceTokens (tokenText · C) 0 s.toList).length <
          (replaceTokens (tokenText · C') 0 s.toList).length :=
        (replaceTokens_length fun e _ => longer e).2 ⟨e, inside, strict⟩
      rw [whole] at apart
      exact Nat.lt_irrefl _ apart
  | .array items, same => by
      rw [interpolateValue, interpolateValue] at same
      exact interpolateItems_apart longer items (Json.array.inj same)
  | .object members, same => by
      rw [interpolateValue, interpolateValue] at same
      exact interpolateMembers_apart longer members (Json.object.inj same)

theorem interpolateItems_apart (longer : ∀ e, (tokenText e C).length ≤ (tokenText e C').length) :
    ∀ items : List Json, interpolateItems C items = interpolateItems C' items →
    ∀ e ∈ itemsTokens items, ¬ (tokenText e C).length < (tokenText e C').length
  | [], _ => fun e none => (List.not_mem_nil none).elim
  | item :: items, same => by
      rw [interpolateItems, interpolateItems] at same
      obtain ⟨first, rest⟩ := List.cons.inj same
      intro e inside
      rcases List.mem_append.mp inside with inside | inside
      · exact interpolateValue_apart longer item first e inside
      · exact interpolateItems_apart longer items rest e inside

theorem interpolateMembers_apart (longer : ∀ e, (tokenText e C).length ≤ (tokenText e C').length) :
    ∀ members : List (String × Json), interpolateMembers C members = interpolateMembers C' members →
    ∀ e ∈ membersTokens members, ¬ (tokenText e C).length < (tokenText e C').length
  | [], _ => fun e none => (List.not_mem_nil none).elim
  | (key, value) :: members, same => by
      intro e inside
      rw [membersTokens] at inside
      rw [interpolateMembers, interpolateMembers] at same
      split at same
      · rename_i hidden
        rw [if_pos hidden] at inside
        exact interpolateMembers_apart longer members same e inside
      · rename_i named
        rw [if_neg named] at inside
        obtain ⟨first, rest⟩ := List.cons.inj same
        rcases List.mem_append.mp inside with inside | inside
        · exact interpolateValue_apart longer value (Prod.mk.inj first).2 e inside
        · exact interpolateMembers_apart longer members rest e inside

end

end

/-! ## What is served -/

theorem findCachedOutput_goes {payload : WorkflowExecutionJobPayload} {step : WorkflowStep}
    {hash workflowId stepId : String} {askedAt finishedFrom : Int} {candidates : List StepResult}
    {served : Json}
    (goes : (findCachedOutput payload step hash).Goes
      [⟨.now, .ok askedAt⟩, ⟨.findCacheCandidates workflowId stepId finishedFrom, .ok candidates⟩]
      (.pure (some served))) :
    (candidates.find? (isCacheHit hash)).map (·.output) = some served := by
  unfold findCachedOutput at goes
  dsimp only at goes
  split at goes
  · obtain ⟨_, goes⟩ := Prog.Goes.op_inv goes
    obtain ⟨same, goes⟩ := Prog.Goes.op_inv goes
    cases same
    exact Prog.pure.inj goes.stop_inv
  · cases goes

theorem storedOutput_given {produced : Option Json} (given : storedOutput produced ≠ .null) :
    produced = some (storedOutput produced) := by
  unfold storedOutput at given ⊢
  split
  · rename_i small
    rw [if_pos small] at given
    cases produced with
    | none => exact (given rfl).elim
    | some value => rfl
  · rename_i large
    rw [if_neg large] at given
    exact (given rfl).elim

/-- A row that is found as a hit has what its job produced, and the hash that is looked for. -/
theorem hit_row {hash : String} {job : StepJob} {now : Int} {produced : Option Json}
    (hit : isCacheHit hash (job.row rt now produced) = true) :
    job.hash rt = hash ∧ produced = some (job.row rt now produced).output := by
  unfold isCacheHit at hit
  obtain ⟨hashed, given⟩ := Bool.and_eq_true_iff.mp hit
  have input : (job.row rt now produced).input = resultInput (job.hash rt) job.payload := rfl
  rw [input] at hashed
  refine ⟨beq_iff_eq.mp hashed, ?_⟩
  have output : (job.row rt now produced).output = storedOutput produced := outputResult_output
  rw [output] at given ⊢
  refine storedOutput_given fun none => ?_
  rw [none] at given
  cases given

theorem StepJob.steps_finite (job : StepJob) : job.steps.IsFinite := by
  refine Json.isFinite_fromEntries fun entry inside => ?_
  obtain ⟨result, there, rfl⟩ := List.mem_map.mp inside
  obtain ⟨input, output⟩ := job.results_finite result there
  exact ⟨input, output, trivial, trivial⟩

/-- Jobs with one hash have read the same, as far as a path can tell. -/
theorem hash_determines (injective : Function.Injective rt.sha256)
    (same : first.hash rt = second.hash rt) :
    first.steps.meaning = second.steps.meaning ∧
      first.payload.triggerPayload.meaning = second.payload.triggerPayload.meaning := by
  have texts := injective same
  have means := Json.meaning_eq_of_stringify texts
  simp only [Json.meaning, Json.meaningMembers] at means
  have members := Value.object.inj means
  obtain ⟨_, members⟩ := List.cons.inj members
  obtain ⟨steps, members⟩ := List.cons.inj members
  obtain ⟨payload, _⟩ := List.cons.inj members
  exact ⟨(Prod.mk.inj steps).2, (Prod.mk.inj payload).2⟩

/-! ## Which configurations are served soundly -/

theorem cacheSound_of_covered (injective : Function.Injective rt.sha256)
    (covered : Covered config) : CacheSound rt config := by
  rintro first second produced served rfl serves
  obtain ⟨ranAt, askedAt, finishedFrom, candidates, goes, query, found⟩ := serves.found
  have answered := findCachedOutput_goes goes
  rw [found, Option.map_some] at answered
  have hit := List.find?_some found
  obtain ⟨hash, output⟩ := hit_row hit
  obtain ⟨steps, payload⟩ := hash_determines injective hash
  have workflow : first.payload.workflowId = second.payload.workflowId :=
    (query _ (List.mem_of_find?_eq_some found)).workflow
  refine ⟨(interpolateValue_congr _ fun e inside => ?_).symm, output.trans answered⟩
  refine tokenText_covered serves.tenant workflow ?_ ?_ (covered e inside)
  · exact fun segments => follow_alike first.steps_finite second.steps_finite steps
  · exact fun segments => follow_alike first.payload_finite second.payload_finite payload

/-- A step that calls a service, with a configuration. -/
def cachedStep (config : Json) : WorkflowStep where
  id := "s"
  workflowId := "w"
  tenantId := "t"
  organizationId := "o"
  key := "k"
  name := "n"
  type := .HTTP_REQUEST
  config
  cacheTTLSeconds := some 60

/-- A job for it that has read no results. -/
def cachedJob (config : Json) (executionId : String) (triggerType : TriggerType) : StepJob where
  payload := {
    attempt := 1
    executionId
    organizationId := "o"
    stepKey := "k"
    tenantId := "t"
    triggerPayload := .object []
    triggerType
    workflowId := "w" }
  step := cachedStep config
  previousResults := []
  payload_finite := trivial
  results_finite := fun _ none => (List.not_mem_nil none).elim

/-- Jobs for such a step have one hash, so one is served what the other has produced. -/
theorem cachedJob_serves (rt : Runtime) (config : Json) (x y : String) (u v : TriggerType) :
    Serves rt (cachedJob config x u) (cachedJob config y v) (some (.bool true)) (.bool true) := by
  have hash : (cachedJob config x u).hash rt = (cachedJob config y v).hash rt := rfl
  have hit : isCacheHit ((cachedJob config y v).hash rt)
      ((cachedJob config x u).row rt 0 (some (.bool true))) = true := by
    rw [← hash]
    unfold isCacheHit
    rw [Bool.and_eq_true]
    refine ⟨beq_iff_eq.mpr rfl, ?_⟩
    have output : ((cachedJob config x u).row rt 0 (some (.bool true))).output = .bool true :=
      outputResult_output
    rw [output]
  have found : [(cachedJob config x u).row rt 0 (some (.bool true))].find?
      (isCacheHit ((cachedJob config y v).hash rt)) =
      some ((cachedJob config x u).row rt 0 (some (.bool true))) := by
    rw [List.find?_cons_of_pos hit]
  have first : ((cachedJob config x u).obtain rt .null).Goes
      [⟨.now, .ok (0 : Int)⟩, ⟨.findCacheCandidates "w" "s" (0 - 60 * 1000), .ok []⟩,
        ⟨.executeStep .null (cachedJob config x u).context, .ok (some (.bool true))⟩]
      (.pure (some (.bool true))) := .op (.op (.op .stop))
  have second : (findCachedOutput (cachedJob config y v).payload (cachedJob config y v).step
      ((cachedJob config y v).hash rt)).Goes
      [⟨.now, .ok (0 : Int)⟩, ⟨.findCacheCandidates "w" "s" (0 - 60 * 1000),
        .ok [(cachedJob config x u).row rt 0 (some (.bool true))]⟩]
      (.pure (([(cachedJob config x u).row rt 0 (some (.bool true))].find?
        (isCacheHit ((cachedJob config y v).hash rt))).map (·.output))) := .op (.op .stop)
  rw [found] at second
  refine ⟨rfl, ⟨.null, _, first⟩, 0, 0, 0 - 60 * 1000, _, second, ?_, found⟩
  intro row inside
  rw [List.mem_singleton.mp inside]
  exact ⟨rfl, rfl, rfl, 0, rfl, by decide⟩

/-- Between these contexts no text gets shorter, and those that read the run get longer. -/
theorem tokenText_longer (e : String) :
    let text (x : String) (u : TriggerType) := tokenText e (contextJson (cachedJob .null x u).context)
    (text "e" .CRON).length ≤ (text "ee" .WEBHOOK).length ∧
      (readsRun (pathSegments e) = true → (text "e" .CRON).length < (text "ee" .WEBHOOK).length) := by
  intro text
  cases reads : readsRun (pathSegments e) with
  | false =>
      have same : text "e" .CRON = text "ee" .WEBHOOK :=
        tokenText_covered rfl rfl (fun _ => rfl) (fun _ => rfl) reads
      rw [same]
      exact ⟨Nat.le_refl _, fun none => by cases none⟩
  | true =>
      have longer : (text "e" .CRON).length < (text "ee" .WEBHOOK).length := by
        show (tokenText e _).length < (tokenText e _).length
        unfold tokenText resolvePath
        unfold readsRun at reads
        simp only [List.mem_cons, List.not_mem_nil, or_false, decide_eq_true_eq] at reads
        rcases reads with same | same | same | same
        all_goals
          rw [same]
          decide +kernel
      exact ⟨Nat.le_of_lt longer, fun _ => longer⟩

/-- **The cache is sound for configurations that the hash covers.** Whatever the outputs, results
and payloads, a step is served what was produced for its own configuration, if and only if no
token of the configuration reads the id of the execution or the type of the trigger. -/
theorem cacheSound_iff (injective : Function.Injective rt.sha256) :
    CacheSound rt config ↔ Covered config := by
  refine ⟨fun sound e inside => ?_, cacheSound_of_covered injective⟩
  have serves := cachedJob_serves rt config "e" "ee" .CRON .WEBHOOK
  have same := (sound _ _ _ _ rfl serves).1.symm
  have apart := interpolateValue_apart (fun e => (tokenText_longer e).1) config same e inside
  cases reads : readsRun (pathSegments e) with
  | false => rfl
  | true => exact (apart ((tokenText_longer e).2 reads)).elim

/-- A runtime whose hash is the text itself. -/
def textRuntime : Runtime where
  sha256 := id
  parseStep := .ok

/-- A token that reads the output of an earlier step is covered. -/
theorem outputToken_sound :
    CacheSound textRuntime (.object [("url", .string "https://x/\x7b\x7bsteps.a.output\x7d\x7d")]) :=
  (cacheSound_iff Function.injective_id).mpr (by unfold Covered; decide)

/-- A token that reads the id of the execution is served the text of another execution. -/
theorem executionToken_not_sound :
    ¬ CacheSound textRuntime (.object [("url", .string "https://x/\x7b\x7bexecutionId\x7d\x7d")]) := by
  intro sound
  have serves := cachedJob_serves textRuntime
    (.object [("url", .string "https://x/\x7b\x7bexecutionId\x7d\x7d")]) "e" "f" .CRON .CRON
  have same := (sound _ _ _ _ rfl serves).1
  simp only [interpolateValue, interpolateMembers] at same
  have member := (List.cons.inj (Json.object.inj same)).1
  have text := Json.string.inj (Prod.mk.inj member).2
  revert text
  decide

end Workflow
