import BirthHub.Tasks.Model

/-!
# The signatures of tasks

The text that is signed determines every field of a job but its signature, so a MAC that
meets no collisions tells any two jobs apart. A worker accepts a job with such a MAC,
and any job that says it is unsigned.
-/

namespace Tasks

open Data

/-- The jobs differ in nothing but their signatures: numbers are compared as numbers, and
the record of the payload as a JSON value. -/
structure SameTask (job job' : TaskJob) : Prop where
  agentId : job.agentId = job'.agentId
  approvalRequired : job.approvalRequired = job'.approvalRequired
  context : job.context = job'.context
  estimatedCostBRL : (Json.number job.estimatedCostBRL).meaning =
    (Json.number job'.estimatedCostBRL).meaning
  executionMode : job.executionMode = job'.executionMode
  payload : (Json.object job.payload).meaning = (Json.object job'.payload).meaning
  requestId : job.requestId = job'.requestId
  tenantId : job.tenantId = job'.tenantId
  type : job.type = job'.type
  userId : job.userId = job'.userId

section

variable {context context' : JobContext} {job job' : TaskJob}

theorem ExecutionMode.text_injective {mode mode' : ExecutionMode} (same : mode.text = mode'.text) :
    mode = mode' := by
  cases mode <;> cases mode' <;> first
    | rfl
    | exact absurd same (by decide)

theorem TaskType.text_injective {type type' : TaskType} (same : type.text = type'.text) :
    type = type' := by
  cases type <;> cases type' <;> first
    | rfl
    | exact absurd same (by decide)

theorem string_meaning {s s' : String} (same : (Json.string s).meaning = (Json.string s').meaning) :
    s = s' := Value.string.inj same

theorem nullable_meaning {value value' : Option String}
    (same : (nullable value).meaning = (nullable value').meaning) : value = value' := by
  cases value <;> cases value' <;> simp_all [nullable, Json.meaning]

theorem JobContext.json_meaning (same : context.json.meaning = context'.json.meaning) :
    context = context' := by
  have members := Value.object.inj same
  simp only [Json.meaningMembers, List.cons.injEq, Prod.mk.injEq, true_and, and_true] at members
  obtain ⟨actorId, jobId, organizationId, scopedAt, tenantId⟩ := members
  rcases context with ⟨a, b, c, d, e⟩
  rcases context' with ⟨a', b', c', d', e'⟩
  rw [JobContext.mk.injEq]
  exact ⟨string_meaning actorId, string_meaning jobId, string_meaning organizationId,
    string_meaning scopedAt, string_meaning tenantId⟩

/-- The text that is signed determines the context and the fields of the job. -/
theorem serializeLegacyTaskSignaturePayload_injective
    (same : serializeLegacyTaskSignaturePayload context job =
      serializeLegacyTaskSignaturePayload context' job')
    (carried : context = context' → job.context = job'.context) : SameTask job job' := by
  have members := Value.object.inj (Json.meaning_eq_of_stringify same)
  simp only [Json.meaningMembers, List.cons.injEq, Prod.mk.injEq, true_and, and_true] at members
  obtain ⟨agentId, approvalRequired, context, cost, mode, payload, requestId, tenantId, type,
    userId⟩ := members
  exact {
    agentId := string_meaning agentId
    approvalRequired := Value.bool.inj approvalRequired
    context := carried (JobContext.json_meaning context)
    estimatedCostBRL := cost
    executionMode := ExecutionMode.text_injective (string_meaning mode)
    payload
    requestId := string_meaning requestId
    tenantId := nullable_meaning tenantId
    type := TaskType.text_injective (string_meaning type)
    userId := nullable_meaning userId }

end

/-- What the check of a job's signature gives. -/
structure Authentic (signPayload : (payload secret : String) → String) : Prop where
  /-- An accepted job is unsigned, or signed by the MAC of its own text. -/
  signed : ∀ {input : Validation} {tenantId : String},
    validateLegacyTaskJob signPayload input = .ok tenantId →
    input.payload.signature = "unsigned" ∨ input.payload.signature =
      signPayload (serializeLegacyTaskSignaturePayload input.context input.payload) input.secret
  /-- Accepted jobs with contexts and with one signature do not differ, unless they are
  unsigned. -/
  unique : ∀ {input input' : Validation} {tenantId tenantId' : String},
    validateLegacyTaskJob signPayload input = .ok tenantId →
    validateLegacyTaskJob signPayload input' = .ok tenantId' →
    input.payload.context.isSome → input'.payload.context.isSome →
    input.payload.signature = input'.payload.signature →
    input.payload.signature ≠ "unsigned" → SameTask input.payload input'.payload

/-- With a MAC that gives one value to one text only, accepted jobs are authentic or
unsigned. -/
theorem authentic_of_collisionFree {signPayload : String → String → String}
    (collisionFree : ∀ {payload payload' secret secret'},
      signPayload payload secret = signPayload payload' secret' → payload = payload') :
    Authentic signPayload := by
  constructor
  · intro input tenantId accepted
    exact (validateLegacyTaskJob_ok accepted).2.2.2.2
  · intro input input' tenantId tenantId' accepted accepted' carries carries' same signed
    obtain ⟨_, _, _, _, mac⟩ := validateLegacyTaskJob_ok accepted
    obtain ⟨_, _, _, _, mac'⟩ := validateLegacyTaskJob_ok accepted'
    have one := mac.resolve_left signed
    have other := mac'.resolve_left (same ▸ signed)
    have texts := collisionFree (one.symm.trans (same.trans other))
    refine serializeLegacyTaskSignaturePayload_injective texts fun contexts => ?_
    obtain ⟨context, carried⟩ := Option.isSome_iff_exists.mp carries
    obtain ⟨context', carried'⟩ := Option.isSome_iff_exists.mp carries'
    simp only [Validation.context, carried, carried', Option.getD_some] at contexts
    rw [carried, carried', contexts]

/-! ### A signed job and unsigned ones -/

def welcomeContext : JobContext where
  actorId := "user_1"
  jobId := "job_1"
  organizationId := "org_1"
  scopedAt := "2026-03-13T00:00:00.000Z"
  tenantId := "tenant_a"

def welcomeJob (channel signature : String) : TaskJob where
  context := some welcomeContext
  payload := [("channel", .string channel)]
  requestId := "req_1"
  signature
  tenantId := some "tenant_a"
  type := .sendWelcomeEmail
  userId := some "user_1"

def welcomeText : String :=
  serializeLegacyTaskSignaturePayload welcomeContext (welcomeJob "email" "unsigned")

example : welcomeText = "\x7b\"agentId\":\"ceo-pack\",\"approvalRequired\":false," ++
    "\"context\":\x7b\"actorId\":\"user_1\",\"jobId\":\"job_1\",\"organizationId\":\"org_1\"," ++
    "\"scopedAt\":\"2026-03-13T00:00:00.000Z\",\"tenantId\":\"tenant_a\"\x7d," ++
    "\"estimatedCostBRL\":0.5,\"executionMode\":\"LIVE\",\"payload\":\x7b\"channel\":\"email\"\x7d," ++
    "\"requestId\":\"req_1\",\"tenantId\":\"tenant_a\",\"type\":\"send-welcome-email\"," ++
    "\"userId\":\"user_1\",\"version\":\"1\"\x7d" := by decide +kernel

/-- The HMAC-SHA256 of the text under `tenant-secret`. -/
def welcomeDigest : String := "22c89cfe34558678145360bd0aa549d3b9a76d932725218a8ee35cac94a2ac3e"

/-- A MAC that is the HMAC-SHA256 for the text, and meets no collisions. -/
def welcomeSign (payload _ : String) : String :=
  if payload = welcomeText then welcomeDigest else "x" ++ payload

theorem welcomeSign_collisionFree {payload payload' secret secret' : String}
    (same : welcomeSign payload secret = welcomeSign payload' secret') : payload = payload' := by
  have other (text : String) : welcomeDigest ≠ "x" ++ text := by
    intro equal
    have heads := congrArg (fun s : String => s.toList.head?) equal
    rw [String.toList_append] at heads
    revert heads
    simp [welcomeDigest]
  unfold welcomeSign at same
  split at same <;> split at same
  · rename_i one two
    rw [one, two]
  · exact (other _ same).elim
  · exact (other _ same.symm).elim
  · have texts := congrArg String.toList same
    rw [String.toList_append, String.toList_append, List.append_cancel_left_eq] at texts
    exact String.toList_inj.mp texts

def validationOf (payload : TaskJob) : Validation where
  fallbackSecret := "fallback"
  jobId := "job_1"
  payload
  tenantSecret := some "tenant-secret"
  now := "2026-03-13T00:00:01.000Z"

/-- The signed job is accepted, and authentic. -/
theorem welcomeJob_authentic :
    validateLegacyTaskJob welcomeSign (validationOf (welcomeJob "email" welcomeDigest)) =
      .ok "tenant_a" ∧ Authentic welcomeSign :=
  ⟨by decide +kernel, authentic_of_collisionFree welcomeSign_collisionFree⟩

/-- Jobs that say they are unsigned are accepted without a MAC, whatever they ask for. -/
theorem unsignedJobs_accepted :
    (∀ channel ∈ ["email", "sms"], validateLegacyTaskJob welcomeSign
      (validationOf (welcomeJob channel "unsigned")) = .ok "tenant_a") ∧
    welcomeSign welcomeText "tenant-secret" ≠ "unsigned" ∧
    ¬ SameTask (welcomeJob "email" "unsigned") (welcomeJob "sms" "unsigned") := by
  refine ⟨?_, by decide +kernel, fun same => ?_⟩
  · intro channel asked
    rcases List.mem_cons.mp asked with rfl | asked
    · decide +kernel
    · rw [List.mem_singleton.mp asked]
      decide +kernel
  · have payload := same.payload
    simp [welcomeJob, Json.meaning, Json.meaningMembers] at payload

end Tasks
