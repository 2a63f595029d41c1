import BirthHub.Webhooks.Trigger

/-!
# The signature of a delivery

The route signs the text that `JSON.stringify` makes of the sanitized body. A sender signs what
it sends. The two agree just on bodies whose strings the sanitizer does not change, and where
the workflow has a secret of its own.
-/

namespace Webhooks

open Data Workflow

/-- The route gets beyond the signature check. -/
def accepts (config : TriggerConfig) (workflow : TriggerWorkflow) (body : String)
    (signature : Option String) : Bool :=
  (Http.requestBody body).any fun payload =>
    (checkTrigger config (some workflow) payload signature).isOk

/-- A body in the form that `JSON.stringify` gives it is accepted just with its HMAC under the
secret of the workflow. -/
def SignatureAgrees (config : TriggerConfig) (workflow : TriggerWorkflow) (body : Json) : Prop :=
  ∀ signature, accepts config workflow body.stringify signature = true ↔
    ∃ secret, workflow.webhookSecret = some secret ∧
      signature = some (config.hmac secret body.stringify)

section

variable {config : TriggerConfig} {workflow : TriggerWorkflow}

theorem checkTrigger_isOk {payload : Json} {signature : Option String}
    (given : ∀ secret text, config.hmac secret text ≠ "") :
    (checkTrigger config (some workflow) payload signature).isOk = true ↔
      workflow.triggerType = .WEBHOOK ∧
        signature = some (expectedSignature config workflow payload) := by
  unfold checkTrigger
  by_cases webhook : workflow.triggerType = .WEBHOOK
  · cases signature with
    | none => simp [Option.filter, webhook, Except.isOk, Except.toBool]
    | some signature =>
        have nonempty : expectedSignature config workflow payload ≠ "" := given _ _
        by_cases empty : signature = ""
        · simp [Option.filter, webhook, empty, Except.isOk, Except.toBool, nonempty.symm]
        · by_cases same : signature = expectedSignature config workflow payload
          · simp [Option.filter, webhook, same, nonempty, Except.isOk, Except.toBool]
          · simp [Option.filter, webhook, same, empty, Except.isOk, Except.toBool]
  · simp [Option.filter, webhook, Except.isOk, Except.toBool]

/-- With a hash that is never empty and has no collisions, the signatures agree where the route
checks them just when the workflow has a secret and the body is clean. Where it does not, no
body is accepted, and none should be just when there is no secret. -/
theorem signatureAgrees_iff {body : Json} (value : body.IsValue)
    (given : ∀ secret text, config.hmac secret text ≠ "")
    (collisionFree : ∀ {secret text text'},
      config.hmac secret text = config.hmac secret text' → text = text') :
    SignatureAgrees config workflow body ↔
      if workflow.triggerType = .WEBHOOK ∧ body.isObject = true then
        workflow.webhookSecret.isSome = true ∧ Http.isClean body = true
      else workflow.webhookSecret = none := by
  by_cases checked : workflow.triggerType = .WEBHOOK ∧ body.isObject = true
  · rw [if_pos checked]
    obtain ⟨payload, request, same⟩ := Http.requestBody_of_isObject value checked.2
    have accepted (signature : Option String) :
        accepts config workflow body.stringify signature = true ↔
          signature = some (expectedSignature config workflow payload) := by
      rw [accepts, request, Option.any_some, checkTrigger_isOk given, and_iff_right checked.1]
    constructor
    · intro agrees
      obtain ⟨secret, own, signed⟩ := (agrees _).mp ((accepted _).mpr rfl)
      refine ⟨Option.isSome_of_eq_some own, same.mp ?_⟩
      have macs := Option.some.inj signed
      rw [expectedSignature, own, Option.getD_some] at macs
      exact collisionFree macs
    · rintro ⟨own, clean⟩ signature
      obtain ⟨secret, own⟩ := Option.isSome_iff_exists.mp own
      rw [accepted, expectedSignature, own, same.mpr clean]
      simp
  · rw [if_neg checked]
    have refused (signature : Option String) :
        accepts config workflow body.stringify signature = false := by
      cases object : body.isObject with
      | false => rw [accepts, Http.requestBody_of_not_isObject value object, Option.any_none]
      | true =>
          obtain ⟨payload, request, _⟩ := Http.requestBody_of_isObject value object
          have other : ¬ workflow.triggerType = .WEBHOOK := fun webhook => checked ⟨webhook, object⟩
          rw [accepts, request, Option.any_some, Bool.eq_false_iff, ne_eq, checkTrigger_isOk given]
          exact fun found => other found.1
    constructor
    · intro agrees
      by_contra own
      obtain ⟨secret, own⟩ := Option.ne_none_iff_exists'.mp own
      have accepted := (agrees (some (config.hmac secret body.stringify))).mpr ⟨secret, own, rfl⟩
      rw [refused] at accepted
      cases accepted
    · rintro none signature
      simp [refused, none]

end

/-! ## A clean body and one with a tag -/

def leadBody : Json := .object [("event", .string "lead.created")]

def taggedBody : Json := .object [("html", .string "<b>hi</b>")]

/-- The HMAC-SHA256 of the first body under `trigger-secret`. -/
def leadDigest : String := "e9e4953e456ff718ae638865d49df171a5e7011f9c2246a1b8c71b8422b6d370"

/-- Those of the second body and of what the sanitizer leaves of it. -/
def taggedDigest : String := "36dff11a10b75e2f8105a0cd85e528b2b463579076d062fb54c0041616f2166a"

def untaggedDigest : String := "f31492ab6c83e33089dfc5be0d79e8fc6deeec40ce5b4e4b786f3d439053d34a"

/-- A hash that is the HMAC-SHA256 for the given texts. -/
def triggerConfig (digests : List (String × String)) : TriggerConfig where
  hmac _ text := (digests.lookup text).getD ("x" ++ text)
  sha256 text := text
  globalSecret := "dev-job-hmac-secret"

def leadConfig : TriggerConfig := triggerConfig [(leadBody.stringify, leadDigest)]

def hookWorkflow : TriggerWorkflow where
  triggerType := .WEBHOOK
  webhookSecret := some "trigger-secret"
  id := "workflow"
  organizationId := "org"
  tenantId := "tenant"

theorem leadConfig_hmac (secret text : String) : leadConfig.hmac secret text =
    if text = leadBody.stringify then leadDigest else "x" ++ text := by
  by_cases same : text = leadBody.stringify
  · simp [leadConfig, triggerConfig, same]
  · simp [leadConfig, triggerConfig, List.lookup, same, beq_false_of_ne same]

theorem leadDigest_ne (text : String) : leadDigest ≠ "x" ++ text := by
  intro equal
  have heads := congrArg (fun s : String => s.toList.head?) equal
  rw [String.toList_append] at heads
  revert heads
  simp [leadDigest]

theorem leadConfig_given (secret text : String) : leadConfig.hmac secret text ≠ "" := by
  rw [leadConfig_hmac]
  split
  · decide
  · simp

theorem leadConfig_collisionFree {secret text text' : String}
    (same : leadConfig.hmac secret text = leadConfig.hmac secret text') : text = text' := by
  rw [leadConfig_hmac, leadConfig_hmac] at same
  split at same <;> split at same
  · rename_i one two
    rw [one, two]
  · exact (leadDigest_ne _ same).elim
  · exact (leadDigest_ne _ same.symm).elim
  · have texts := congrArg String.toList same
    rw [String.toList_append, String.toList_append, List.append_cancel_left_eq] at texts
    exact String.toList_inj.mp texts

theorem leadBody_isValue : leadBody.IsValue := ⟨by rfl, trivial, trivial⟩

/-- The clean body is accepted with its signature, and with no other. -/
theorem leadBody_signatureAgrees :
    accepts leadConfig hookWorkflow leadBody.stringify (some leadDigest) = true ∧
      SignatureAgrees leadConfig hookWorkflow leadBody :=
  ⟨by decide +kernel, (signatureAgrees_iff leadBody_isValue leadConfig_given
    leadConfig_collisionFree).mpr (by decide +kernel)⟩

/-- The body with a tag is refused with its signature, and accepted with that of another text. -/
theorem taggedBody_not_signatureAgrees :
    let config := triggerConfig [(taggedBody.stringify, taggedDigest),
      ("\x7b\"html\":\"hi\"\x7d", untaggedDigest)]
    accepts config hookWorkflow taggedBody.stringify (some untaggedDigest) = true ∧
      ¬ SignatureAgrees config hookWorkflow taggedBody := by
  intro config
  refine ⟨by decide +kernel, fun agrees => ?_⟩
  have accepted := (agrees (some taggedDigest)).mpr ⟨"trigger-secret", rfl, by decide +kernel⟩
  have refused : accepts config hookWorkflow taggedBody.stringify (some taggedDigest) = false := by
    decide +kernel
  rw [refused] at accepted
  cases accepted

end Webhooks
