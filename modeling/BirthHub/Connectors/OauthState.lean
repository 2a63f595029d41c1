import BirthHub.Data.Base64
import BirthHub.Data.KeyOrder
import BirthHub.Data.Utf8

/-!
# The state of an OAuth connection

`buildOauthState` writes who connects which account as JSON in base64url, and
`parseConnectorOauthState` reads it back.
-/

namespace Connectors

open Data

inductive ConnectorProvider
  | googleWorkspace
  | hubspot
  | microsoftGraph
  | pipedrive
  | salesforce
  | twilioWhatsapp
deriving DecidableEq

def ConnectorProvider.text : ConnectorProvider → String
  | .googleWorkspace => "google-workspace"
  | .hubspot => "hubspot"
  | .microsoftGraph => "microsoft-graph"
  | .pipedrive => "pipedrive"
  | .salesforce => "salesforce"
  | .twilioWhatsapp => "twilio-whatsapp"

def connectorProviders : List ConnectorProvider :=
  [.googleWorkspace, .hubspot, .microsoftGraph, .pipedrive, .salesforce, .twilioWhatsapp]

/-- `connectorProviders.has`, with the provider that was found. -/
def findProvider (text : String) : Option ConnectorProvider :=
  connectorProviders.find? (·.text == text)

structure ProblemDetailsError where
  detail : String
  status : Nat
  title : String
deriving DecidableEq

/-- What a state is built from. -/
structure OauthFields where
  accountKey : String
  organizationId : String
  provider : ConnectorProvider
  requestId : String
  tenantId : String
  userId : String
deriving DecidableEq

structure ConnectorOauthState extends OauthFields where
  version : Nat
deriving DecidableEq

def oauthPayload (input : OauthFields) : Json :=
  .object [("accountKey", .str input.accountKey), ("organizationId", .str input.organizationId),
    ("provider", .str input.provider.text), ("requestId", .str input.requestId),
    ("tenantId", .str input.tenantId), ("userId", .str input.userId), ("version", .nat 1)]

def buildOauthState (input : OauthFields) : String := base64url (oauthPayload input).stringify

/-! ## Reading a state -/

def isBase64Digit (c : Char) : Bool :=
  ('A' ≤ c ∧ c ≤ 'Z') ∨ ('a' ≤ c ∧ c ≤ 'z') ∨ ('0' ≤ c ∧ c ≤ '9') ∨ c ∈ ['-', '_', '+', '/']

/-- `Buffer.from(text, "base64url")` takes the digits of both alphabets up to the padding, and no
notice of other characters. -/
def bytesOfBase64 (text : List Char) : List Nat :=
  bytesOfBase64url (((text.takeWhile (· ≠ '=')).filter isBase64Digit).map fun c =>
    if c = '+' then '-' else if c = '/' then '_' else c)

/-- A property that is a string. -/
def stringMember (candidate : Json) (key : String) : Option String :=
  match candidate.member key with
  | some (.string s) => some s
  | _ => none

/-- `candidate.version === 1`. -/
def isVersionOne (candidate : Json) : Bool :=
  match candidate.member "version" with
  | some (.number n) => n.value = some 1
  | _ => false

/-- The body of the `try`: its errors are known by their messages. `syntaxMessage` is what
`JSON.parse` reports of a text that is no JSON. -/
def readOauthState (syntaxMessage : String → String) (state : String) :
    Except String ConnectorOauthState :=
  let text := fromUtf8 (bytesOfBase64 state.toList)
  match Json.parse text with
  | none => .error (syntaxMessage text)
  | some value =>
      let candidate := Json.ofValue value
      if candidate.isObject = false then .error "State payload is not an object."
      else
        match stringMember candidate "accountKey", stringMember candidate "organizationId",
            stringMember candidate "provider", stringMember candidate "requestId",
            stringMember candidate "tenantId", stringMember candidate "userId",
            isVersionOne candidate with
        | some accountKey, some organizationId, some provider, some requestId, some tenantId,
            some userId, true =>
            match findProvider provider with
            | none => .error ("Unsupported provider '" ++ provider ++ "' in OAuth state.")
            | some provider =>
                .ok { accountKey, organizationId, provider, requestId, tenantId, userId, version := 1 }
        | _, _, _, _, _, _, _ => .error "State payload is missing required fields."

def parseConnectorOauthState (syntaxMessage : String → String) (state : String) :
    Except ProblemDetailsError ConnectorOauthState :=
  (readOauthState syntaxMessage state).mapError fun message =>
    { detail := message, status := 409, title := "Connector OAuth State Invalid" }

/-! ## What was built is read -/

theorem findProvider_text (provider : ConnectorProvider) :
    findProvider provider.text = some provider := by
  cases provider <;> decide

theorem base64urlDigit_digit {n : Nat} (small : n < 64) :
    isBase64Digit (base64urlDigit n) = true ∧ base64urlDigit n ∉ ['=', '+', '/'] := by
  have all : ∀ n < 64, isBase64Digit (base64urlDigit n) = true ∧
      base64urlDigit n ∉ ['=', '+', '/'] := by decide
  exact all n small

theorem exists_digit {bytes : List Nat} (small : ∀ b ∈ bytes, b < 256) :
    ∀ c ∈ base64urlBytes bytes, ∃ n < 64, c = base64urlDigit n := by
  induction bytes using base64urlBytes.induct with
  | case1 => exact List.forall_mem_nil _
  | case2 a =>
      have boundA := small a (by simp)
      simp only [base64urlBytes, List.forall_mem_cons]
      exact ⟨⟨_, by omega, rfl⟩, ⟨_, by omega, rfl⟩, List.forall_mem_nil _⟩
  | case3 a b =>
      have boundA := small a (by simp)
      have boundB := small b (by simp)
      simp only [base64urlBytes, List.forall_mem_cons]
      exact ⟨⟨_, by omega, rfl⟩, ⟨_, by omega, rfl⟩, ⟨_, by omega, rfl⟩, List.forall_mem_nil _⟩
  | case4 a b c bytes ih =>
      have boundA := small a (by simp)
      have boundB := small b (by simp)
      have boundC := small c (by simp)
      simp only [base64urlBytes, List.forall_mem_cons]
      exact ⟨⟨_, by omega, rfl⟩, ⟨_, by omega, rfl⟩, ⟨_, by omega, rfl⟩, ⟨_, by omega, rfl⟩,
        ih fun d inside => small d (by simp [inside])⟩

theorem bytesOfBase64_base64url (text : String) : bytesOfBase64 (base64url text).toList = utf8 text := by
  have each : ∀ c ∈ base64urlBytes (utf8 text), isBase64Digit c = true ∧ c ∉ ['=', '+', '/'] := by
    intro c there
    obtain ⟨n, small, rfl⟩ := exists_digit (utf8_lt text) c there
    exact base64urlDigit_digit small
  have whole : (base64urlBytes (utf8 text)).takeWhile (· ≠ '=') = base64urlBytes (utf8 text) := by
    rw [List.takeWhile_eq_self_iff]
    intro c there
    have other := (each c there).2
    simp only [List.mem_cons, not_or] at other
    exact decide_eq_true other.1
  have plain : ∀ c ∈ base64urlBytes (utf8 text),
      (if c = '+' then '-' else if c = '/' then '_' else c) = id c := by
    intro c there
    have other := (each c there).2
    simp only [List.mem_cons, not_or] at other
    rw [if_neg other.2.1, if_neg other.2.2.1, id]
  rw [bytesOfBase64, base64url, String.toList_ofList, whole,
    List.filter_eq_self.mpr fun c there => (each c there).1, List.map_congr_left plain, List.map_id,
    bytesOfBase64url_bytes (utf8_lt text)]

/-- The members of the payload, with some number for its version. -/
def payloadMembers (input : OauthFields) (version : Number) : List (String × Json) :=
  [("accountKey", .str input.accountKey), ("organizationId", .str input.organizationId),
    ("provider", .str input.provider.text), ("requestId", .str input.requestId),
    ("tenantId", .str input.tenantId), ("userId", .str input.userId), ("version", .number version)]

/-- The payload as `JSON.parse` returns it: its number may be of another spelling. -/
theorem ofValue_oauthPayload (input : OauthFields) : ∃ one : Number, one.value = some 1 ∧
    Json.ofValue (oauthPayload input).meaning = .object (payloadMembers input one) := by
  have value : (Number.ofNat 1).value = some 1 := by
    rw [Number.ofNat, Number.value]
    norm_num
  have one : (Json.nat 1).meaning = .number 1 := by
    rw [Json.nat, Json.meaning, value]
  have distinct : ["accountKey", "organizationId", "provider", "requestId", "tenantId", "userId",
      "version"].Nodup := by decide
  have names : ∀ name ∈ ["accountKey", "organizationId", "provider", "requestId", "tenantId",
      "userId", "version"], Json.arrayIndex name = none := by decide
  refine ⟨.ofRat 1, Number.value_ofRat value, ?_⟩
  rw [oauthPayload, Json.meaning, Json.ofValue]
  simp only [Json.meaningMembers, one, Json.str, Json.meaning, Json.ofMembers, Json.ofValue]
  exact Json.fromEntries_of_names distinct names

theorem fields_payloadMembers (input : OauthFields) {version : Number}
    (one : version.value = some 1) :
    let candidate := Json.object (payloadMembers input version)
    stringMember candidate "accountKey" = some input.accountKey ∧
      stringMember candidate "organizationId" = some input.organizationId ∧
      stringMember candidate "provider" = some input.provider.text ∧
      stringMember candidate "requestId" = some input.requestId ∧
      stringMember candidate "tenantId" = some input.tenantId ∧
      stringMember candidate "userId" = some input.userId ∧ isVersionOne candidate = true :=
  ⟨rfl, rfl, rfl, rfl, rfl, rfl, decide_eq_true one⟩

theorem parse_buildOauthState (syntaxMessage : String → String) (input : OauthFields) :
    parseConnectorOauthState syntaxMessage (buildOauthState input) =
      .ok { input with version := 1 } := by
  have read : Json.parse (fromUtf8 (bytesOfBase64 (buildOauthState input).toList)) =
      some (oauthPayload input).meaning := by
    rw [buildOauthState, bytesOfBase64_base64url, fromUtf8_utf8, Json.parse_stringify]
  obtain ⟨one, value, parsed⟩ := ofValue_oauthPayload input
  obtain ⟨accountKey, organizationId, provider, requestId, tenantId, userId, version⟩ :=
    fields_payloadMembers input value
  rw [parseConnectorOauthState, readOauthState, read]
  dsimp only
  rw [parsed, accountKey, organizationId, provider, requestId, tenantId, userId, version]
  dsimp only
  rw [findProvider_text]
  rfl

theorem buildOauthState_injective : Function.Injective buildOauthState := by
  intro input input' same
  have read := parse_buildOauthState id input
  rw [same, parse_buildOauthState] at read
  cases read
  rfl

end Connectors
