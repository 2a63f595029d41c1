import BirthHub.Billing.Model
import BirthHub.Effect.Counting
import BirthHub.Effect.Moves

/-!
# The company of an organization

`syncOrganizationToHubspot` of `apps/worker/src/integrations/hubspot.ts`. A call reads the
organization, creates a company if no id is stored and updates the stored one otherwise, writes an
audit row, and stores the id that came back. Between the creation and the storing another call
may read the organization, and the call itself may fail.
-/

namespace Hubspot

open Data Effect

/-! ## The code -/

structure Plan where
  monthlyPriceCents : Int
  code : String

structure Subscription where
  plan : Plan
  status : Billing.SubscriptionStatus

/-- A row with the e-mail address of the user of the oldest membership and the subscription that was
updated last. -/
structure Organization where
  id : String
  tenantId : String
  name : String
  primaryDomain : Option String
  healthScore : Int
  ownerEmail : Option String
  subscription : Option Subscription
  hubspotCompanyId : Option String

/-- What `loadOrganizationSnapshot` returns. -/
structure Snapshot where
  arrCents : Int
  domain : Option String
  healthScore : Int
  hubspotCompanyId : Option String
  name : String
  organizationId : String
  planCode : String
  status : String
  tenantId : String

inductive Method
  | PATCH
  | POST
deriving DecidableEq

/-- What `fetch` resolves with; the body is read by another call. -/
structure Response where
  status : Nat
  body : String

/-- `response.ok`. -/
def Response.ok (response : Response) : Bool := 200 ≤ response.status && response.status ≤ 299

structure HubspotResponse where
  body : String
  companyId : Option String
  status : Nat

structure CrmSyncEvent where
  eventType : String
  organizationId : String
  requestBody : Json
  responseBody : String
  responseStatus : Nat
  tenantId : String

inductive HubspotOp
  | findUnique (organizationId : String)
  | now
  | fetch (method : Method) (url authorization body : String)
  | text (response : Response)
  | createCrmSyncEvent (data : CrmSyncEvent)
  | updateOrganization (organizationId hubspotCompanyId : String)

abbrev HubspotOp.Result : HubspotOp → Type
  | .findUnique _ => Option Organization
  | .now => Nat
  | .fetch .. => Response
  | .text _ => String
  | .createCrmSyncEvent _ => Unit
  | .updateOrganization .. => Unit

abbrev HubspotIface : Iface where
  Op := HubspotOp
  Res := HubspotOp.Result
  Err := Thrown

def await (o : HubspotOp) : Prog HubspotIface o.Result := Prog.perform (I := HubspotIface) o

def rateLimitError : Thrown := error "HubSpot API rate limit reached."

def integer (n : Int) : Json := .number (.finite (n < 0) n.natAbs 0)

/-- `Number.prototype.toString(36)`. -/
def toString36 (n : Nat) : String :=
  if n = 0 then "0"
  else .ofList ((Nat.digits 36 n).reverse.map fun digit =>
    if digit < 10 then .ofNat ('0'.toNat + digit) else .ofNat ('a'.toNat + (digit - 10)))

/-- The `id` of an object, if it is a text. -/
def Value.id : Value → Option String
  | .object members =>
      match members.lookup "id" with
      | some (.string id) => some id
      | _ => none
  | _ => none

/-- The `id` of a body, with `JSON.parse` where it throws nothing. -/
def companyIdOf (parse : String → Option Value) (body : String) : Option String :=
  (parse body).bind Value.id

section

variable (parse : String → Option Value) (token : Option String) (baseUrl : String)

/-- `HubspotSyncAdapter.request`. -/
def request (method : Method) (path : String) (payload : List (String × Json)) :
    Prog HubspotIface HubspotResponse :=
  match token.filter (· ≠ "") with
  | none => do
      let body := (Json.object [("mock", .bool true), ("payload", .object payload)]).stringify
      match payload.lookup "id" with
      | some (.string id) => pure { body, companyId := some id, status := 200 }
      | _ => do
          let now : Nat ← await .now
          pure { body, companyId := some ("mock-" ++ toString36 now), status := 200 }
  | some token => do
      let response : Response ← await (.fetch method (baseUrl ++ path) ("Bearer " ++ token)
        (Json.object payload).stringify)
      let body : String ← await (.text response)
      if response.status = 429 then .throw rateLimitError
      else if response.ok then
        pure { body, companyId := companyIdOf parse body, status := response.status }
      else .throw (error ("HubSpot sync failed with status " ++ toString response.status ++ ": " ++
        body))

def companiesPath : String := "/crm/v3/objects/companies"

/-- The stored id, an empty one counting as none. -/
def stored (hubspotCompanyId : Option String) : Option String := hubspotCompanyId.filter (· ≠ "")

def Snapshot.properties (payload : Snapshot) : Json :=
  .object ([("bh_arr_cents", .string (toString payload.arrCents)),
      ("bh_health_score", .string (toString payload.healthScore)),
      ("bh_plan_code", .string payload.planCode),
      ("bh_subscription_status", .string payload.status),
      ("bh_tenant_id", .string payload.tenantId)] ++
    (payload.domain.toList.map fun domain => ("domain", .string domain)) ++
    [("name", .string payload.name)])

def upsertCompany (payload : Snapshot) : Prog HubspotIface HubspotResponse :=
  match stored payload.hubspotCompanyId with
  | some companyId => request parse token baseUrl .PATCH (companiesPath ++ "/" ++ companyId)
      [("properties", payload.properties)]
  | none => request parse token baseUrl .POST companiesPath [("properties", payload.properties)]

/-- The part of an address behind the first `@`, up to the next. -/
def emailDomain (email : String) : Option String :=
  ((email.toList.splitOn '@')[1]?).map String.ofList

def Organization.snapshot (organization : Organization) : Snapshot where
  arrCents := (organization.subscription.elim 0 (·.plan.monthlyPriceCents)) * 12
  domain := organization.primaryDomain.or (organization.ownerEmail.bind emailDomain)
  healthScore := organization.healthScore
  hubspotCompanyId := organization.hubspotCompanyId
  name := organization.name
  organizationId := organization.id
  planCode := organization.subscription.elim "starter" (·.plan.code)
  status := (organization.subscription.elim Billing.SubscriptionStatus.trial (·.status)).text
  tenantId := organization.tenantId

def loadOrganizationSnapshot (organizationId : String) : Prog HubspotIface Snapshot := do
  let organization : Option Organization ← await (.findUnique organizationId)
  match organization with
  | none => .throw (error "CRM_SYNC_ORGANIZATION_NOT_FOUND")
  | some organization => pure organization.snapshot

def Snapshot.audit (snapshot : Snapshot) (response : HubspotResponse) : CrmSyncEvent where
  eventType := "company.upsert"
  organizationId := snapshot.organizationId
  requestBody := .object [("arrCents", integer snapshot.arrCents),
    ("domain", snapshot.domain.elim .null .string),
    ("healthScore", integer snapshot.healthScore), ("name", .string snapshot.name),
    ("planCode", .string snapshot.planCode), ("status", .string snapshot.status),
    ("tenantId", .string snapshot.tenantId)]
  responseBody := response.body
  responseStatus := response.status
  tenantId := snapshot.tenantId

/-- The id that is to be stored. -/
def Snapshot.newCompanyId (snapshot : Snapshot) (response : HubspotResponse) : Option String :=
  response.companyId.filter fun companyId =>
    companyId ≠ "" ∧ some companyId ≠ snapshot.hubspotCompanyId

def syncOrganizationToHubspot (organizationId : String) : Prog HubspotIface HubspotResponse := do
  let snapshot : Snapshot ← loadOrganizationSnapshot organizationId
  let response : HubspotResponse ← upsertCompany parse token baseUrl snapshot
  await (.createCrmSyncEvent (snapshot.audit response))
  match snapshot.newCompanyId response with
  | some companyId => do
      await (.updateOrganization snapshot.organizationId companyId)
      pure response
  | none => pure response

end

/-! ## The calls for an organization -/

/-- The row of the organization, the ids of the companies in HubSpot, and the audit rows. -/
structure Store where
  organization : Option Organization
  companies : List String := []
  crmSyncEvents : List CrmSyncEvent := []

/-- What comes of an operation: it is done, at a time if it reads the clock, or it throws. HubSpot
answers a request with a status and a body; the company is what a successful POST creates. -/
inductive Choice
  | done
  | clock (now : Nat)
  | answers (status : Nat) (body companyId : String)
  | fails (e : Thrown)

/-- What happens apart from the operations of the calls: one more call, first or again, or a change
of other columns. -/
inductive HubspotEvent
  | sync (tenantId : String)
  | edit (organization : Organization)

/-- A request that succeeds: a POST creates a company with a fresh id, a PATCH is answered by the id
that it addressed. The body of either may lack the id. -/
def Store.request (store : Store) (parse : String → Option Value) (baseUrl url body : String)
    (companyId : String) : Method → Option Store
  | .POST =>
      if companyId ∉ store.companies ∧ companyId ≠ "" ∧
          ∀ id ∈ companyIdOf parse body, id = companyId then
        some { store with companies := companyId :: store.companies }
      else none
  | .PATCH =>
      if ∀ id ∈ companyIdOf parse body, url = baseUrl ++ (companiesPath ++ "/" ++ id) then
        some store
      else none

def handle (parse : String → Option Value) (baseUrl : String) (store : Store) :
    (o : HubspotOp) → Choice → Option (HubspotIface.Answer o × Store)
  | _, .fails e => some (.error e, store)
  | .findUnique organizationId, .done =>
      some (.ok (store.organization.filter (·.id = organizationId)), store)
  | .now, .clock now => some (.ok now, store)
  | .fetch method url _ _, .answers status body companyId =>
      let response : Response := ⟨status, body⟩
      if response.ok then
        (store.request parse baseUrl url body companyId method).map fun store =>
          (.ok response, store)
      else some (.ok response, store)
  | .text response, .done => some (.ok response.body, store)
  | .createCrmSyncEvent data, .done =>
      some (.ok (), { store with crmSyncEvents := store.crmSyncEvents ++ [data] })
  | .updateOrganization organizationId hubspotCompanyId, .done =>
      (store.organization.filter (·.id = organizationId)).map fun before =>
        let organization := { before with hubspotCompanyId := some hubspotCompanyId }
        (.ok (), { store with organization := some organization })
  | _, _ => none

/-- The calls for one organization; a tag is the `tenantId` of a call, which it does not read. -/
def syncs (parse : String → Option Value) (token : Option String)
    (baseUrl organizationId : String) : System HubspotIface String Store HubspotResponse where
  Choice := Choice
  handle o choice store := handle parse baseUrl store o choice
  program _ := syncOrganizationToHubspot parse token baseUrl organizationId
  Env := HubspotEvent
  env event store _ :=
    match event with
    | .sync tenantId => some { store, spawn := [tenantId] }
    | .edit organization =>
        if ∀ before ∈ store.organization, organization.id = before.id ∧
            organization.hubspotCompanyId = before.hubspotCompanyId then
          let after := store.organization.map fun _ => organization
          some { store := { store with organization := after } }
        else none

abbrev HubspotWorld (β : Type) := World HubspotIface String Store β

abbrev HubspotState := HubspotWorld (Prog HubspotIface HubspotResponse)

def opened {β : Type} (store : Store) : HubspotWorld β := ⟨store, [], []⟩

/-- The id that is stored for the organization. -/
def Store.companyId (store : Store) : Option String :=
  store.organization.bind fun organization => stored organization.hubspotCompanyId

/-! ## What is to hold -/

/-- The call has read the organization and has not ended. -/
def isUnderway (p : Prog HubspotIface HubspotResponse) : Bool :=
  match p.pending with
  | some (.findUnique _) | none => false
  | some _ => true

def Choice.isFailure : Choice → Bool
  | .fails _ => true
  | _ => false

/-- A successful answer to a POST carries the id of the company that it created. -/
def Choice.carriesId (parse : String → Option Value) : Choice → Bool
  | .answers status body companyId =>
      !(Response.ok ⟨status, body⟩) || companyIdOf parse body = some companyId
  | _ => true

/-- The condition on the steps of a run. While no id is stored, no call reads the organization while
another one is under way, the answer to a POST carries the id, and after it nothing fails; once an
id is stored, the organization is read only if there is a token. -/
def isSafe (parse : String → Option Value) (token : Option String) (w : HubspotState) :
    Act Choice HubspotEvent → Bool
  | .env _ => true
  | .run i choice =>
      match (w.threads[i]?).bind (·.body.pending) with
      | some (.findUnique _) =>
          if w.store.companyId.isSome then (stored token).isSome
          else w.threads.all fun t => !isUnderway t.body
      | some (.fetch .POST ..) => choice.carriesId parse
      | some (.text response) =>
          w.store.companyId.isSome || !response.ok || !choice.isFailure
      | some (.createCrmSyncEvent _) | some (.updateOrganization ..) =>
          w.store.companyId.isSome || (stored token).isNone || !choice.isFailure
      | _ => true

/-- At most one company was created for the organization, and none if it had one. -/
def OneCompany (first store : Store) : Prop :=
  store.companies.length ≤ first.companies.length + if first.companyId.isSome then 0 else 1

/-! ## The stages of a call -/

/-- How far a call is, with the id that it found stored. -/
inductive SyncStage
  | reading
  | sending (found : Option String)
  | answered (found : Option String) (response : Response)
  | recording (found companyId : Option String)
  | storing (found : Option String) (companyId : String)
  | ended

def SyncStage.found : SyncStage → Option (Option String)
  | reading | ended => none
  | sending found | answered found _ | recording found _ | storing found _ => some found

/-- An id that differs from the one found. -/
def newId (found companyId : Option String) : Option String :=
  companyId.filter fun id => id ≠ "" ∧ some id ≠ found

inductive SyncMove (parse : String → Option Value) (token : Option String) (baseUrl : String) :
    String → SyncStage → (o : HubspotOp) → HubspotIface.Answer o → SyncStage → Prop
  | read {tag id : String} {organization : Organization} :
      SyncMove parse token baseUrl tag .reading (.findUnique id) (.ok (some organization))
        (.sending (stored organization.hubspotCompanyId))
  | missing {tag id : String} :
      SyncMove parse token baseUrl tag .reading (.findUnique id) (.ok none) .ended
  | mock {tag : String} {found : Option String} {now : Nat} (mocked : stored token = none) :
      SyncMove parse token baseUrl tag (.sending found) .now (.ok now)
        (.recording found (some ("mock-" ++ toString36 now)))
  | post {tag url authorization body : String} {response : Response}
      (given : (stored token).isSome = true) :
      SyncMove parse token baseUrl tag (.sending none) (.fetch .POST url authorization body)
        (.ok response) (.answered none response)
  | patch {tag id authorization body : String} {response : Response}
      (given : (stored token).isSome = true) :
      SyncMove parse token baseUrl tag (.sending (some id))
        (.fetch .PATCH (baseUrl ++ (companiesPath ++ "/" ++ id)) authorization body)
        (.ok response) (.answered (some id) response)
  | refused {tag body : String} {found : Option String} {response : Response}
      (bad : response.ok = false) :
      SyncMove parse token baseUrl tag (.answered found response) (.text response) (.ok body) .ended
  | accepted {tag body : String} {found : Option String} {response : Response}
      (good : response.ok = true) :
      SyncMove parse token baseUrl tag (.answered found response) (.text response) (.ok body)
        (.recording found (companyIdOf parse body))
  | record {tag id : String} {found companyId : Option String} {data : CrmSyncEvent}
      (new : newId found companyId = some id) :
      SyncMove parse token baseUrl tag (.recording found companyId) (.createCrmSyncEvent data)
        (.ok ()) (.storing found id)
  | same {tag : String} {found companyId : Option String} {data : CrmSyncEvent}
      (old : newId found companyId = none) :
      SyncMove parse token baseUrl tag (.recording found companyId) (.createCrmSyncEvent data)
        (.ok ()) .ended
  | store {tag id organizationId : String} {found : Option String} :
      SyncMove parse token baseUrl tag (.storing found id) (.updateOrganization organizationId id)
        (.ok ()) .ended
  | fail {tag : String} {stage : SyncStage} {o : HubspotOp} {e : Thrown} :
      SyncMove parse token baseUrl tag stage o (.error e) .ended

def syncEnds (_ : String) (_ : Except Thrown HubspotResponse) (stage : SyncStage) : Prop :=
  stage = .ended

section

variable {parse : String → Option Value} {token : Option String}
  {baseUrl organizationId tag : String}

theorem stored_eq_some {hubspotCompanyId : Option String} {id : String} :
    stored hubspotCompanyId = some id ↔ hubspotCompanyId = some id ∧ id ≠ "" := by
  rw [stored, Option.filter_eq_some_iff, decide_eq_true_iff]

theorem newCompanyId_eq {snapshot : Snapshot} {response : HubspotResponse} :
    snapshot.newCompanyId response =
      newId (stored snapshot.hubspotCompanyId) response.companyId := by
  unfold Snapshot.newCompanyId newId
  congr 1
  funext id
  refine decide_eq_decide.mpr (and_congr_right fun given => not_congr ?_)
  rw [@eq_comm _ (some id) (stored _), stored_eq_some]
  exact ⟨fun same => ⟨same.symm, given⟩, fun both => both.1.symm⟩

/-- How the request of a call ends. -/
def requestEnds (found : Option String) : Except Thrown HubspotResponse → SyncStage → Prop
  | .ok response, stage => stage = .recording found response.companyId
  | .error _, stage => stage = .ended

theorem request_follows {found : Option String} {method : Method} {path : String}
    {properties : Json} (sends : (stored token).isSome = true → ∀ authorization body response,
      SyncMove parse token baseUrl tag (.sending found)
        (.fetch method (baseUrl ++ path) authorization body) (.ok response)
        (.answered found response)) :
    (request parse token baseUrl method path [("properties", properties)]).Follows
      (SyncMove parse token baseUrl tag) (requestEnds found) (.sending found) := by
  unfold request
  cases given : token.filter (· ≠ "") with
  | none =>
      refine .performBind (fun now => ?_) fun e => ⟨.ended, .fail, rfl⟩
      exact ⟨_, .mock given, rfl⟩
  | some token' =>
      have given' : (stored token).isSome = true := by
        rw [stored, given]
        rfl
      refine .performBind (fun response => ⟨_, sends given' _ _ _, ?_⟩)
        fun e => ⟨.ended, .fail, rfl⟩
      refine .performBind (fun body => ?_) fun e => ⟨.ended, .fail, rfl⟩
      cases good : response.ok with
      | false =>
          refine ⟨.ended, .refused good, ?_⟩
          rw [if_neg Bool.false_ne_true]
          split <;> exact rfl
      | true =>
          refine ⟨.recording found (companyIdOf parse body), .accepted good, ?_⟩
          have other : response.status ≠ 429 := by
            intro same
            rw [Response.ok, same] at good
            cases good
          rw [if_neg other, if_pos rfl]
          exact rfl

/-- The call once it has a response for the snapshot. -/
theorem rest_follows {snapshot : Snapshot} {response : HubspotResponse} :
    (do
      await (.createCrmSyncEvent (snapshot.audit response))
      match snapshot.newCompanyId response with
      | some companyId => do
          await (.updateOrganization snapshot.organizationId companyId)
          pure response
      | none => pure response : Prog HubspotIface HubspotResponse).Follows
        (SyncMove parse token baseUrl tag) (syncEnds tag)
        (.recording (stored snapshot.hubspotCompanyId) response.companyId) := by
  refine .performBind (fun _ => ?_) fun e => ⟨.ended, .fail, rfl⟩
  cases new : snapshot.newCompanyId response with
  | none => exact ⟨.ended, .same (newCompanyId_eq.symm.trans new), rfl⟩
  | some id =>
      refine ⟨.storing _ id, .record (newCompanyId_eq.symm.trans new), ?_⟩
      exact .performBind (fun _ => ⟨.ended, .store, rfl⟩) fun e => ⟨.ended, .fail, rfl⟩

theorem upsert_follows {snapshot : Snapshot} :
    (upsertCompany parse token baseUrl snapshot).Follows (SyncMove parse token baseUrl tag)
      (requestEnds (stored snapshot.hubspotCompanyId))
      (.sending (stored snapshot.hubspotCompanyId)) := by
  unfold upsertCompany
  cases stored snapshot.hubspotCompanyId with
  | none => exact request_follows fun given _ _ _ => .post given
  | some id => exact request_follows fun given _ _ _ => .patch given

theorem sync_follows : (syncOrganizationToHubspot parse token baseUrl organizationId).Follows
    (SyncMove parse token baseUrl tag) (syncEnds tag) .reading := by
  refine .bind (.performBind (fun organization => ?_) fun e => ⟨.ended, .fail, rfl⟩)
  cases organization with
  | none => exact ⟨.ended, .missing, rfl⟩
  | some organization =>
      refine ⟨_, .read, .bind (.mono (fun answer stage ends => ?_) upsert_follows)⟩
      cases answer with
      | error e => exact ends
      | ok response =>
          obtain rfl : stage = _ := ends
          exact rest_follows

/-- The stages of the calls for an organization. -/
def syncStages (parse : String → Option Value) (token : Option String)
    (baseUrl organizationId : String) : Discipline HubspotIface String HubspotResponse :=
  movesDiscipline (syncs parse token baseUrl organizationId) (fun _ => .reading)
    (SyncMove parse token baseUrl) syncEnds

theorem syncStages_starts (tag : String) :
    ((syncs parse token baseUrl organizationId).program tag).Follows
      ((syncStages parse token baseUrl organizationId).step tag)
      ((syncStages parse token baseUrl organizationId).ends tag)
      ((syncStages parse token baseUrl organizationId).start tag) :=
  sync_follows.marked

/-! ## The invariant -/

/-- A company was created whose id is not yet stored. -/
def SyncStage.owes (token : Option String) : SyncStage → Bool
  | .answered none response => response.ok
  | .recording none _ | .storing none _ => (stored token).isSome
  | _ => false

/-- What came back for the id found: of a POST an id, of a PATCH no other. -/
def Carried (companyId : Option String) : Option String → Prop
  | none => ∃ id, companyId = some id ∧ id ≠ ""
  | some found => ∀ id ∈ companyId, id = found

def SyncStage.Sound (parse : String → Option Value) (token : Option String) : SyncStage → Prop
  | .reading | .ended => True
  | .sending found => found.isSome = true → (stored token).isSome = true
  | .answered found response => (stored token).isSome = true ∧
      (response.ok = true → Carried (companyIdOf parse response.body) found)
  | .recording found companyId =>
      if (stored token).isSome then Carried companyId found else found = none
  | .storing found companyId => found = none ∧ companyId ≠ ""

abbrev StagedSync := Thread String (Marked SyncStage)

/-- The calls under way agree on the stored id; while there is none, there is one of them at most,
and it owes the id of the only company that was created. -/
structure Careful (parse : String → Option Value) (token : Option String) (first : Store)
    (a : HubspotWorld (Marked SyncStage)) : Prop where
  sound : ∀ u ∈ a.threads, u.body.stage.Sound parse token
  found : ∀ u ∈ a.threads, ∀ found, u.body.stage.found = some found → found = a.store.companyId
  one : a.store.companyId = none → ∀ (i j : Nat) (u v : StagedSync), a.threads[i]? = some u →
    a.threads[j]? = some v → u.body.stage.found.isSome = true → v.body.stage.found.isSome = true →
      i = j
  owed : a.store.companyId = none → a.store.companies.length =
    first.companies.length + a.threads.countP fun u => u.body.stage.owes token
  bound : OneCompany first a.store
  kept : first.companyId.isSome = true → a.store.companyId.isSome = true

variable {w : HubspotState} {a : HubspotWorld (Marked SyncStage)} {first : Store}

theorem Careful.start : Careful parse token first (opened first) where
  sound _ inside := (List.not_mem_nil inside).elim
  found _ inside := (List.not_mem_nil inside).elim
  one _ i j u v there := by simp [opened] at there
  owed _ := rfl
  bound := Nat.le_add_right _ _
  kept given := given

theorem owes_cases {stage : SyncStage} (owes : stage.owes token = true) :
    (∃ response, stage = .answered none response ∧ response.ok = true) ∨
      (stored token).isSome = true ∧
        ((∃ companyId, stage = .recording none companyId) ∨ ∃ id, stage = .storing none id) := by
  cases stage with
  | reading | sending | ended => cases owes
  | answered found response =>
      cases found with
      | none => exact .inl ⟨response, rfl, owes⟩
      | some id => cases owes
  | recording found companyId =>
      cases found with
      | none => exact .inr ⟨owes, .inl ⟨companyId, rfl⟩⟩
      | some id => cases owes
  | storing found id =>
      cases found with
      | none => exact .inr ⟨owes, .inr ⟨id, rfl⟩⟩
      | some id => cases owes

theorem found_of_owes {stage : SyncStage} (owes : stage.owes token = true) :
    stage.found = some none := by
  rcases owes_cases owes with ⟨response, rfl, _⟩ | ⟨_, ⟨companyId, rfl⟩ | ⟨id, rfl⟩⟩ <;> rfl

/-- A step that leaves the id as it is; with a company that is created one more call owes. -/
theorem Careful.frame {i : Nat} {u : StagedSync} {s' : Marked SyncStage} {store : Store}
    {event : Event HubspotIface} (careful : Careful parse token first a)
    (there : a.threads[i]? = some u) (id : store.companyId = a.store.companyId)
    (sound : s'.stage.Sound parse token)
    (found : ∀ found, s'.stage.found = some found → found = a.store.companyId)
    (alone : a.store.companyId = none → s'.stage.found.isSome = true →
      u.body.stage.found.isSome = true ∨ ∀ v ∈ a.threads, v.body.stage.found.isSome = false)
    (balance : a.store.companyId = none → store.companies.length +
      (if u.body.stage.owes token then 1 else 0) =
        a.store.companies.length + if s'.stage.owes token then 1 else 0)
    (bound : OneCompany first store) :
    Careful parse token first (a.advance i s' store event) where
  sound v inside := by
    rcases World.mem_advance there inside with rfl | before
    · exact sound
    · exact careful.sound v before
  found v inside := by
    rw [World.advance_store, id]
    rcases World.mem_advance there inside with rfl | before
    · exact found
    · exact careful.found v before
  one none := by
    rw [World.advance_store, id] at none
    -- the calls under way were so before, unless only this one is now
    have before {j : Nat} {v : StagedSync}
        (after : (a.advance i s' store event).threads[j]? = some v)
        (under : v.body.stage.found.isSome = true) :
        (∃ v, a.threads[j]? = some v ∧ v.body.stage.found.isSome = true) ∨
          j = i ∧ ∀ v ∈ a.threads, v.body.stage.found.isSome = false := by
      rcases World.advance_cases there after with ⟨rfl, rfl⟩ | ⟨_, same⟩
      · rcases alone none under with was | others
        · exact .inl ⟨u, there, was⟩
        · exact .inr ⟨rfl, others⟩
      · exact .inl ⟨v, same, under⟩
    intro j k v v' found found' under under'
    rcases before found under with ⟨x, old, was⟩ | ⟨rfl, others⟩
    · rcases before found' under' with ⟨x', old', was'⟩ | ⟨_, others⟩
      · exact careful.one none j k x x' old old' was was'
      · rw [others x (List.mem_of_getElem? old)] at was
        cases was
    · rcases before found' under' with ⟨x', old', was'⟩ | ⟨same, _⟩
      · rw [others x' (List.mem_of_getElem? old')] at was'
        cases was'
      · exact same.symm
  owed none := by
    rw [World.advance_store, id] at none
    have count : ((a.advance i s' store event).threads.countP fun v => v.body.stage.owes token) +
        (if u.body.stage.owes token then 1 else 0) =
          (a.threads.countP fun v => v.body.stage.owes token) +
            if s'.stage.owes token then 1 else 0 :=
      World.countP_advance (p := fun s : Marked SyncStage => s.stage.owes token) there
    have same := balance none
    rw [careful.owed none] at same
    rw [World.advance_store]
    omega
  bound := bound
  kept given := by
    rw [World.advance_store, id]
    exact careful.kept given

/-! ## One step -/

variable {t : Thread String (Prog HubspotIface HubspotResponse)} {u : StagedSync}
  {p : Prog HubspotIface HubspotResponse} {s : Marked SyncStage}

theorem isUnderway_of_found
    (follows : p.Follows ((syncStages parse token baseUrl organizationId).step tag)
      ((syncStages parse token baseUrl organizationId).ends tag) s)
    (found : s.stage.found.isSome = true) : isUnderway p = true := by
  cases p with
  | pure response =>
      rw [show s.stage = .ended from follows.2] at found
      cases found
  | throw e =>
      rw [show s.stage = .ended from follows.2] at found
      cases found
  | op o k =>
      cases o with
      | findUnique id =>
          obtain ⟨⟨stage, _⟩, ⟨-, move⟩, -⟩ := follows (.ok none)
          cases stages : s.stage with
          | reading | ended =>
              rw [stages] at found
              cases found
          | _ =>
              rw [stages] at move
              cases move
      | _ => rfl

theorem nonempty_result (o : HubspotOp) : Nonempty o.Result := by
  cases o with
  | findUnique id => exact ⟨none⟩
  | now => exact ⟨(0 : Nat)⟩
  | fetch => exact ⟨(⟨0, ""⟩ : Response)⟩
  | text response => exact ⟨""⟩
  | createCrmSyncEvent data => exact ⟨()⟩
  | updateOrganization id companyId => exact ⟨()⟩

/-- A call that owes an id awaits one of the operations after a successful POST. -/
theorem pending_of_owes {o : HubspotOp}
    {k : HubspotIface.Answer o → Prog HubspotIface HubspotResponse}
    (follows : (Prog.op o k).Follows ((syncStages parse token baseUrl organizationId).step tag)
      ((syncStages parse token baseUrl organizationId).ends tag) s)
    (owes : s.stage.owes token = true) :
    (∃ response, o = .text response ∧ response.ok = true) ∨ (stored token).isSome = true ∧
      ((∃ data, o = .createCrmSyncEvent data) ∨
        ∃ id companyId, o = .updateOrganization id companyId) := by
  obtain ⟨r⟩ := nonempty_result o
  obtain ⟨⟨stage', _⟩, ⟨-, move⟩, -⟩ := follows (.ok r)
  change SyncMove parse token baseUrl tag s.stage o (.ok r) stage' at move
  rcases owes_cases owes with ⟨response, stage, good⟩ | ⟨given, ⟨companyId, stage⟩ | ⟨id, stage⟩⟩
  · rw [stage] at move
    cases move <;> exact .inl ⟨response, rfl, good⟩
  · rw [stage] at move
    cases move <;> exact .inr ⟨given, .inl ⟨_, rfl⟩⟩
  · rw [stage] at move
    cases move
    exact .inr ⟨given, .inr ⟨_, _, rfl⟩⟩

/-- While no id is stored, a call that owes one does not fail. -/
theorem isFailure_of_owes {o : HubspotOp}
    {k : HubspotIface.Answer o → Prog HubspotIface HubspotResponse} {i : Nat} {choice : Choice}
    (follows : (Prog.op o k).Follows ((syncStages parse token baseUrl organizationId).step tag)
      ((syncStages parse token baseUrl organizationId).ends tag) s)
    (safe : isSafe parse token w (.run i choice) = true) (found : w.threads[i]? = some t)
    (pending : t.body = .op o k) (none : w.store.companyId = none)
    (owes : s.stage.owes token = true) : choice.isFailure = false := by
  rw [isSafe, found, Option.bind_some, pending, Prog.pending_op, none] at safe
  rcases pending_of_owes follows owes with ⟨response, rfl, good⟩ | ⟨given, next⟩
  · change (false || !response.ok || !choice.isFailure) = true at safe
    rw [good] at safe
    simpa using safe
  · have safe' : (false || (stored token).isNone || !choice.isFailure) = true := by
      rcases next with ⟨data, rfl⟩ | ⟨id, companyId, rfl⟩ <;> exact safe
    cases token' : stored token with
    | none =>
        rw [token'] at given
        cases given
    | some value =>
        rw [token'] at safe'
        simpa using safe'

/-- The operations of the other stages leave the id and the companies as they are. -/
theorem Careful.ended {i : Nat} {s' : Marked SyncStage} {store : Store} {event : Event HubspotIface}
    (careful : Careful parse token first a) (there : a.threads[i]? = some u)
    (id : store.companyId = a.store.companyId) (companies : store.companies = a.store.companies)
    (stage : s'.stage = .ended)
    (paid : a.store.companyId = none → u.body.stage.owes token = false) :
    Careful parse token first (a.advance i s' store event) := by
  refine careful.frame there id ?_ ?_ ?_ (fun none => ?_) ?_
  · rw [stage]
    trivial
  · rw [stage]
    exact fun _ found => by cases found
  · rw [stage]
    exact fun _ found => by cases found
  · rw [stage, paid none, companies]
    rfl
  · rw [OneCompany, companies]
    exact careful.bound

theorem Careful.goesOn {i : Nat} {s' : Marked SyncStage} {store : Store}
    {event : Event HubspotIface}
    (careful : Careful parse token first a) (there : a.threads[i]? = some u)
    (id : store.companyId = a.store.companyId) (companies : store.companies = a.store.companies)
    (sound : s'.stage.Sound parse token) {found : Option String}
    (before : u.body.stage.found = some found) (after : s'.stage.found = some found)
    (owes : s'.stage.owes token = u.body.stage.owes token) :
    Careful parse token first (a.advance i s' store event) := by
  refine careful.frame there id sound (fun other same => ?_)
    (fun _ _ => .inl (by rw [before]; rfl)) (fun _ => ?_) ?_
  · cases after.symm.trans same
    exact careful.found u (List.mem_of_getElem? there) found before
  · rw [owes, companies]
  · rw [OneCompany, companies]
    exact careful.bound

theorem findUnique_answered {store store' : Store} {id : String} {choice : Choice}
    {row : Option Organization}
    (answered : handle parse baseUrl store (.findUnique id) choice = some (.ok row, store')) :
    store' = store ∧ row = store.organization.filter (·.id = id) := by
  cases choice with
  | done =>
      obtain ⟨same, rfl⟩ := Prod.mk.inj (Option.some.inj answered)
      exact ⟨rfl, (Except.ok.inj same).symm⟩
  | _ => cases answered

/-- A request that succeeds does what HubSpot does, any other nothing. -/
theorem fetch_answered {store store' : Store} {method : Method} {url authorization body : String}
    {choice : Choice} {response : Response}
    (answered : handle parse baseUrl store (.fetch method url authorization body) choice =
      some (.ok response, store')) :
    if response.ok then ∃ companyId, choice = .answers response.status response.body companyId ∧
      store.request parse baseUrl url response.body companyId method = some store'
    else store' = store := by
  cases choice with
  | answers status body companyId =>
      simp only [handle] at answered
      split at answered
      · rename_i good
        obtain ⟨store'', requested, parts⟩ := Option.map_eq_some_iff.mp answered
        obtain ⟨same, rfl⟩ := Prod.mk.inj parts
        cases Except.ok.inj same
        rw [if_pos good]
        exact ⟨companyId, rfl, requested⟩
      · rename_i bad
        obtain ⟨same, rfl⟩ := Prod.mk.inj (Option.some.inj answered)
        cases Except.ok.inj same
        rw [if_neg bad]
  | _ => cases answered

theorem text_answered {store store' : Store} {response : Response} {choice : Choice} {body : String}
    (answered : handle parse baseUrl store (.text response) choice = some (.ok body, store')) :
    store' = store ∧ body = response.body := by
  cases choice with
  | done =>
      obtain ⟨same, rfl⟩ := Prod.mk.inj (Option.some.inj answered)
      exact ⟨rfl, (Except.ok.inj same).symm⟩
  | _ => cases answered

theorem createCrmSyncEvent_answered {store store' : Store} {data : CrmSyncEvent} {choice : Choice}
    {done : Unit}
    (answered : handle parse baseUrl store (.createCrmSyncEvent data) choice =
      some (.ok done, store')) :
    store'.companyId = store.companyId ∧ store'.companies = store.companies := by
  cases choice with
  | done =>
      obtain ⟨_, rfl⟩ := Prod.mk.inj (Option.some.inj answered)
      exact ⟨rfl, rfl⟩
  | _ => cases answered

theorem updateOrganization_answered {store store' : Store} {organizationId id : String}
    {choice : Choice} {done : Unit} (given : id ≠ "")
    (answered : handle parse baseUrl store (.updateOrganization organizationId id) choice =
      some (.ok done, store')) :
    store'.companyId = some id ∧ store'.companies = store.companies := by
  cases choice with
  | done =>
      obtain ⟨organization, _, same⟩ := Option.map_eq_some_iff.mp answered
      obtain ⟨_, rfl⟩ := Prod.mk.inj same
      exact ⟨stored_eq_some.mpr ⟨rfl, given⟩, rfl⟩
  | _ => cases answered

theorem error_answered {store store' : Store} {o : HubspotOp} {choice : Choice} {e : Thrown}
    (answered : handle parse baseUrl store o choice = some (.error e, store')) :
    choice.isFailure = true ∧ store' = store := by
  cases choice with
  | fails e' =>
      have same : store = store' := by
        cases o <;> exact (Prod.mk.inj (Option.some.inj answered)).2
      exact ⟨rfl, same.symm⟩
  | done =>
      cases o with
      | updateOrganization =>
          obtain ⟨_, _, parts⟩ := Option.map_eq_some_iff.mp answered
          cases (Prod.mk.inj parts).1
      | now | fetch => cases answered
      | _ => cases (Prod.mk.inj (Option.some.inj answered)).1
  | clock now =>
      cases o with
      | now => cases (Prod.mk.inj (Option.some.inj answered)).1
      | _ => cases answered
  | answers status body companyId =>
      cases o with
      | fetch =>
          simp only [handle] at answered
          split at answered
          · obtain ⟨_, _, parts⟩ := Option.map_eq_some_iff.mp answered
            cases (Prod.mk.inj parts).1
          · cases (Prod.mk.inj (Option.some.inj answered)).1
      | _ => cases answered

theorem now_answered {store store' : Store} {choice : Choice} {now : Nat}
    (answered : handle parse baseUrl store .now choice = some (.ok now, store')) :
    store' = store := by
  cases choice with
  | clock => exact (Prod.mk.inj (Option.some.inj answered)).2.symm
  | _ => cases answered

/-- A company is created by the only call under way, for the first time. -/
theorem Careful.create {i : Nat} {s' : Marked SyncStage} {event : Event HubspotIface}
    {response : Response} {companyId : String} (careful : Careful parse token first a)
    (there : a.threads[i]? = some u) (stage : u.body.stage = .sending none)
    (stage' : s'.stage = .answered none response) (good : response.ok = true)
    (sound : s'.stage.Sound parse token) :
    Careful parse token first (a.advance i s'
      { a.store with companies := companyId :: a.store.companies } event) := by
  have none : a.store.companyId = none :=
    (careful.found u (List.mem_of_getElem? there) none (by rw [stage]; rfl)).symm
  have underway : u.body.stage.found.isSome = true := by
    rw [stage]
    rfl
  have others : (a.threads.countP fun v => v.body.stage.owes token) = 0 := by
    refine List.countP_eq_zero.mpr fun v inside owes => ?_
    obtain ⟨j, there'⟩ := List.mem_iff_getElem?.mp inside
    have under : v.body.stage.found.isSome = true := by
      rw [found_of_owes owes]
      rfl
    cases careful.one none i j u v there there' underway under
    cases there.symm.trans there'
    rw [stage] at owes
    cases owes
  have kept : first.companyId = .none := by
    cases had : first.companyId with
    | none => rfl
    | some id =>
        have held := careful.kept (by rw [had]; rfl)
        rw [none] at held
        cases held
  have grown : (companyId :: a.store.companies).length = first.companies.length + 1 := by
    rw [List.length_cons, careful.owed none, others]
  refine careful.frame there rfl sound (fun found same => ?_) (fun _ _ => .inl underway)
    (fun _ => ?_) ?_
  · rw [stage'] at same
    cases same
    exact none.symm
  · have owes : s'.stage.owes token = true := by
      rw [stage']
      exact good
    rw [owes, stage]
    rfl
  · change (companyId :: a.store.companies).length ≤ _
    rw [grown, kept]
    exact Nat.le_refl _

theorem Careful.store {i : Nat} {s' : Marked SyncStage} {event : Event HubspotIface}
    {store : Store} {id : String} (careful : Careful parse token first a)
    (there : a.threads[i]? = some u) (found : u.body.stage.found = some none)
    (companyId : store.companyId = some id) (companies : store.companies = a.store.companies)
    (stage : s'.stage = .ended) : Careful parse token first (a.advance i s' store event) := by
  have none : a.store.companyId = none :=
    (careful.found u (List.mem_of_getElem? there) none found).symm
  have missing {P : Prop} (absent : store.companyId = .none) : P := by
    rw [companyId] at absent
    cases absent
  exact {
    sound := fun v inside => by
      rcases World.mem_advance there inside with rfl | before
      · change s'.stage.Sound parse token
        rw [stage]
        trivial
      · exact careful.sound v before
    found := fun v inside held same => by
      obtain ⟨j, after⟩ := List.mem_iff_getElem?.mp inside
      rcases World.advance_cases there after with ⟨_, rfl⟩ | ⟨other, before⟩
      · change s'.stage.found = some held at same
        rw [stage] at same
        cases same
      · have mine : u.body.stage.found.isSome = true := by
          rw [found]
          rfl
        have under : v.body.stage.found.isSome = true := by
          rw [same]
          rfl
        exact (other (careful.one none j i v u before there under mine)).elim
    one := fun absent => missing absent
    owed := fun absent => missing absent
    bound := by
      rw [OneCompany, World.advance_store, companies]
      exact careful.bound
    kept := fun _ => by
      rw [World.advance_store, companyId]
      rfl }

theorem Careful.run {i : Nat} {choice : Choice} {o : HubspotOp}
    {k : HubspotIface.Answer o → Prog HubspotIface HubspotResponse} {answer : HubspotIface.Answer o}
    {store : Store} {s' : Marked SyncStage} (careful : Careful parse token first a)
    (refines : (syncStages parse token baseUrl organizationId).Refines w a)
    (safe : isSafe parse token w (.run i choice) = true) (found : w.threads[i]? = some t)
    (pending : t.body = .op o k) (there : a.threads[i]? = some u)
    (answered : handle parse baseUrl a.store o choice = some (answer, store))
    (step : (syncStages parse token baseUrl organizationId).step u.tag u.body o answer s') :
    Careful parse token first (a.advance i s' store ⟨i, o, answer⟩) := by
  have move : SyncMove parse token baseUrl u.tag u.body.stage o answer s'.stage := step.2
  have sound := careful.sound u (List.mem_of_getElem? there)
  have follows : (Prog.op o k).Follows ((syncStages parse token baseUrl organizationId).step u.tag)
      ((syncStages parse token baseUrl organizationId).ends u.tag) u.body := by
    obtain ⟨sameTag, _, follows⟩ := refines.follows found there
    rw [pending] at follows
    rwa [sameTag]
  rcases stages : (u.body.stage, s'.stage) with ⟨before, after⟩
  obtain ⟨stage, stage'⟩ := Prod.mk.inj stages
  rw [stage, stage'] at move
  rw [stage] at sound
  have idle (stages : before.owes token = false) :
      a.store.companyId = none → u.body.stage.owes token = false := fun _ => stage ▸ stages
  cases move with
  | @read id organization =>
      obtain ⟨rfl, row⟩ := findUnique_answered answered
      obtain ⟨kept, _⟩ := Option.filter_eq_some_iff.mp row.symm
      have same : stored organization.hubspotCompanyId = a.store.companyId := by
        rw [Store.companyId, kept]
        rfl
      rw [isSafe, found, Option.bind_some, pending, Prog.pending_op, ← refines.store] at safe
      change (if a.store.companyId.isSome = true then (stored token).isSome
        else w.threads.all fun t => !isUnderway t.body) = true at safe
      refine careful.frame there rfl ?_ ?_ (fun none _ => .inr fun v inside => ?_) (fun _ => ?_)
        careful.bound
      · rw [stage', same]
        intro given
        rwa [if_pos given] at safe
      · rw [stage']
        exact fun other same' => (Option.some.inj same').symm.trans same
      · rw [none, if_neg (by simp)] at safe
        obtain ⟨j, there'⟩ := List.mem_iff_getElem?.mp inside
        obtain ⟨t', found', _, _, follows'⟩ := refines.thread_of_stage there'
        by_contra under
        have under' := isUnderway_of_found follows' (Bool.eq_true_of_not_eq_false under)
        have other := List.all_eq_true.mp safe t' (List.mem_of_getElem? found')
        rw [under'] at other
        cases other
      · rw [stage, stage']
        rfl
  | missing =>
      obtain ⟨rfl, _⟩ := findUnique_answered answered
      exact careful.ended there rfl rfl stage' (idle rfl)
  | @mock found' now mocked =>
      obtain rfl := now_answered answered
      have absent : (stored token).isSome = false := by
        rw [mocked]
        rfl
      refine careful.goesOn there rfl rfl ?_ (by rw [stage]; rfl) (by rw [stage']; rfl) ?_
      · rw [stage', SyncStage.Sound, absent, if_neg Bool.false_ne_true]
        cases found' with
        | none => rfl
        | some id =>
            rw [sound rfl] at absent
            cases absent
      · rw [stage, stage']
        cases found' with
        | none => exact absent
        | some id => rfl
  | @post url authorization body response given =>
      have done := fetch_answered answered
      cases good : response.ok with
      | false =>
          rw [good, if_neg Bool.false_ne_true] at done
          subst done
          refine careful.goesOn there rfl rfl ?_ (by rw [stage]; rfl) (by rw [stage']; rfl) ?_
          · rw [stage']
            refine ⟨given, fun good' => ?_⟩
            rw [good] at good'
            cases good'
          · rw [stage, stage']
            exact good
      | true =>
          rw [good, if_pos rfl] at done
          obtain ⟨companyId, rfl, created⟩ := done
          obtain ⟨⟨_, named, _⟩, made⟩ := Option.ite_none_right_eq_some.mp created
          cases made
          rw [isSafe, found, Option.bind_some, pending, Prog.pending_op] at safe
          change (!response.ok || decide (companyIdOf parse response.body = some companyId)) = true
            at safe
          rw [good] at safe
          have carried : companyIdOf parse response.body = some companyId := by simpa using safe
          refine careful.create there stage stage' good ?_
          rw [stage']
          exact ⟨given, fun _ => ⟨companyId, carried, named⟩⟩
  | @patch id authorization body response given =>
      have done := fetch_answered answered
      have same : store = a.store ∧ (response.ok = true →
          Carried (companyIdOf parse response.body) (some id)) := by
        cases good : response.ok with
        | false =>
            rw [good, if_neg Bool.false_ne_true] at done
            exact ⟨done, fun good' => by cases good'⟩
        | true =>
            rw [good, if_pos rfl] at done
            obtain ⟨companyId, _, addressed⟩ := done
            obtain ⟨own, same⟩ := Option.ite_none_right_eq_some.mp addressed
            refine ⟨(Option.some.inj same).symm, fun _ other inside => ?_⟩
            have path := own other inside
            simp only [String.append_right_inj] at path
            exact path.symm
      obtain ⟨rfl, carried⟩ := same
      refine careful.goesOn there rfl rfl ?_ (by rw [stage]; rfl) (by rw [stage']; rfl) ?_
      · rw [stage']
        exact ⟨given, carried⟩
      · rw [stage, stage']
        rfl
  | @refused body found' response bad =>
      obtain ⟨rfl, _⟩ := text_answered answered
      refine careful.ended there rfl rfl stage' (idle ?_)
      cases found' with
      | none => exact bad
      | some id => rfl
  | @accepted body found' response good =>
      obtain ⟨rfl, rfl⟩ := text_answered answered
      refine careful.goesOn there rfl rfl ?_ (by rw [stage]; rfl) (by rw [stage']; rfl) ?_
      · rw [stage', SyncStage.Sound, if_pos sound.1]
        exact sound.2 good
      · rw [stage, stage']
        cases found' with
        | none => exact sound.1.trans good.symm
        | some id => rfl
  | @record id found' companyId data new =>
      obtain ⟨kept, companies⟩ := createCrmSyncEvent_answered answered
      obtain ⟨rfl, differs⟩ := Option.filter_eq_some_iff.mp new
      obtain ⟨given, differs⟩ := of_decide_eq_true differs
      have none : found' = none := by
        rw [SyncStage.Sound] at sound
        split at sound
        · cases found' with
          | none => rfl
          | some other => exact (differs (congrArg some (sound id rfl))).elim
        · exact sound
      subst none
      refine careful.goesOn there kept companies ?_ (by rw [stage]; rfl) (by rw [stage']; rfl) ?_
      · rw [stage']
        exact ⟨rfl, given⟩
      · rw [stage, stage']
        rfl
  | @same found' companyId data old =>
      obtain ⟨kept, companies⟩ := createCrmSyncEvent_answered answered
      refine careful.ended there kept companies stage' (idle ?_)
      cases found' with
      | some id => rfl
      | none =>
          -- with a token the id that came back is new
          by_contra owes
          have given : (stored token).isSome = true := Bool.eq_true_of_not_eq_false owes
          rw [SyncStage.Sound, if_pos given] at sound
          obtain ⟨id, rfl, named⟩ := sound
          have new : newId .none (some id) = some id :=
            Option.filter_some_pos (decide_eq_true ⟨named, fun same => by cases same⟩)
          cases old.symm.trans new
  | @store id organizationId found' =>
      obtain ⟨rfl, named⟩ := sound
      obtain ⟨companyId, companies⟩ := updateOrganization_answered named answered
      exact careful.store there (by rw [stage]; rfl) companyId companies stage'
  | @fail e =>
      obtain ⟨failure, rfl⟩ := error_answered answered
      refine careful.ended there rfl rfl stage' fun none => ?_
      by_contra owes
      have done := isFailure_of_owes follows safe found pending (refines.store ▸ none)
        (Bool.eq_true_of_not_eq_false owes)
      rw [failure] at done
      cases done

/-! ## Every run -/

/-- The columns that are changed apart from the calls do not include the id. -/
theorem companyId_of_env {event : HubspotEvent} {c : Change String Store} {store : Store}
    {outcomes : List (Thread String Outcome)}
    (changed : (syncs parse token baseUrl organizationId).env event store outcomes = some c) :
    c.store.companyId = store.companyId := by
  cases event with
  | sync tenantId =>
      cases changed
      rfl
  | edit organization =>
      obtain ⟨kept, changed⟩ := Option.ite_none_right_eq_some.mp changed
      cases changed
      unfold Store.companyId
      cases before : store.organization with
      | none => rfl
      | some before' => exact congrArg stored (kept before' before).2

theorem Careful.env {event : HubspotEvent} {c : Change String Store}
    {outcomes : List (Thread String Outcome)} {begin : String → Marked SyncStage}
    (careful : Careful parse token first a)
    (changed : (syncs parse token baseUrl organizationId).env event a.store outcomes = some c)
    (begins : ∀ tag, (begin tag).stage = .reading) :
    Careful parse token first (a.change begin c) := by
  cases event with
  | sync tenantId =>
      cases changed
      have earlier {u : StagedSync}
          (inside : u ∈ (a.change begin { store := a.store, spawn := [tenantId] }).threads) :
          u ∈ a.threads ∨ u.body.stage = .reading := by
        rcases List.mem_append.mp inside with before | new
        · exact .inl before
        · rw [List.mem_singleton.mp new]
          exact .inr (begins tenantId)
      have under {j : Nat} {u : StagedSync}
          (after : (a.change begin { store := a.store, spawn := [tenantId] }).threads[j]? = some u)
          (found : u.body.stage.found.isSome = true) : a.threads[j]? = some u := by
        rcases World.change_cases after with ⟨t, before, rfl⟩ | ⟨tag, _, _, rfl⟩
        · simpa using before
        · rw [show (begin tag).stage = .reading from begins tag] at found
          cases found
      have count : ((a.change begin { store := a.store, spawn := [tenantId] }).threads.countP
          fun u => u.body.stage.owes token) = a.threads.countP fun u => u.body.stage.owes token :=
        World.countP_change (p := fun s : Marked SyncStage => s.stage.owes token) rfl
          fun tag => by rw [begins]; rfl
      exact {
        sound := fun u inside => by
          rcases earlier inside with before | reading
          · exact careful.sound u before
          · rw [reading]
            trivial
        found := fun u inside found same => by
          rcases earlier inside with before | reading
          · exact careful.found u before found same
          · rw [reading] at same
            cases same
        one := fun none i j u v first second found found' =>
          careful.one none i j u v (under first found) (under second found') found found'
        owed := fun none => (careful.owed none).trans (congrArg (_ + ·) count.symm)
        bound := careful.bound
        kept := careful.kept }
  | edit organization =>
      have same := companyId_of_env changed
      obtain ⟨_, changed⟩ := Option.ite_none_right_eq_some.mp changed
      cases changed
      let after := a.store.organization.map fun _ => organization
      have threads : (a.change begin { store := { a.store with organization := after } }).threads =
          a.threads := by simp [World.change]
      refine ⟨?_, ?_, ?_, ?_, careful.bound, ?_⟩
      · rw [threads]
        exact careful.sound
      · rw [threads, World.change_store, same]
        exact careful.found
      · rw [threads, World.change_store, same]
        exact careful.one
      · rw [threads, World.change_store, same]
        exact careful.owed
      · rw [World.change_store, same]
        exact careful.kept

theorem companyId_of_handle {store store' : Store} {o : HubspotOp} {choice : Choice}
    {answer : HubspotIface.Answer o}
    (answered : handle parse baseUrl store o choice = some (answer, store'))
    (other : ∀ organizationId id, o ≠ .updateOrganization organizationId id) :
    store'.companyId = store.companyId := by
  cases answer with
  | error e => rw [(error_answered answered).2]
  | ok r =>
      cases o with
      | findUnique id => rw [(findUnique_answered answered).1]
      | now => rw [now_answered answered]
      | fetch method url authorization body =>
          have done := fetch_answered answered
          split at done
          · obtain ⟨companyId, _, requested⟩ := done
            cases method with
            | POST =>
                obtain ⟨_, made⟩ := Option.ite_none_right_eq_some.mp requested
                cases made
                rfl
            | PATCH =>
                obtain ⟨_, made⟩ := Option.ite_none_right_eq_some.mp requested
                cases made
                rfl
          · rw [done]
      | text response => rw [(text_answered answered).1]
      | createCrmSyncEvent data => exact (createCrmSyncEvent_answered answered).1
      | updateOrganization organizationId id => exact (other organizationId id rfl).elim

/-- While an id is stored, no call is about to store another one. -/
theorem Careful.companyId_eq {i : Nat} {choice : Choice} {o : HubspotOp}
    {answer : HubspotIface.Answer o} {store : Store} {s' : Marked SyncStage} {id : String}
    (careful : Careful parse token first a) (there : a.threads[i]? = some u)
    (answered : handle parse baseUrl a.store o choice = some (answer, store))
    (step : (syncStages parse token baseUrl organizationId).step u.tag u.body o answer s')
    (held : a.store.companyId = some id) : store.companyId = some id := by
  have move : SyncMove parse token baseUrl u.tag u.body.stage o answer s'.stage := step.2
  have inside := List.mem_of_getElem? there
  cases o with
  | updateOrganization organizationId other =>
      cases answer with
      | error e => rw [(error_answered answered).2, held]
      | ok done =>
          generalize stage' : s'.stage = after at move
          generalize stage : u.body.stage = before at move
          cases move with
          | @store _ _ found =>
              have sound := careful.sound u inside
              have same := careful.found u inside found (by rw [stage]; rfl)
              rw [stage] at sound
              rw [sound.1, held] at same
              cases same
  | _ => exact (companyId_of_handle answered fun _ _ same => by cases same).trans held

/-- The invariant once an id is stored. -/
structure Kept (parse : String → Option Value) (token : Option String) (first : Store) (id : String)
    (a : HubspotWorld (Marked SyncStage)) : Prop where
  careful : Careful parse token first a
  held : a.store.companyId = some id

/-- Every run of calls, retries included, whose steps meet the condition creates at most one company
for the organization, and the id that is stored once stays. -/
theorem oneCompany {store : Store} (run : (syncs parse token baseUrl organizationId).Run
      (fun w act => isSafe parse token w act = true) (opened store) w) :
    OneCompany store w.store ∧ ∀ w' id, (syncs parse token baseUrl organizationId).Run
      (fun w act => isSafe parse token w act = true) w w' →
        w.store.companyId = some id → w'.store.companyId = some id := by
  have start : (syncStages parse token baseUrl organizationId).Refines (opened store)
      (opened store) := ⟨rfl, rfl, rfl, fun found => by simp [opened] at found⟩
  have begin : Careful parse token store (opened (β := Marked SyncStage) store) := Careful.start
  obtain ⟨a, refines, careful⟩ := System.Run.invariant syncStages_starts
    (fun careful refines safe found pending there answered step =>
      careful.run refines safe found pending there answered step)
    (fun careful _ _ changed => careful.env changed fun _ => rfl) start begin run
  refine ⟨refines.store ▸ careful.bound, fun w' id later held => ?_⟩
  have kept : Kept parse token store id a := ⟨careful, refines.store ▸ held⟩
  obtain ⟨a', refines', kept'⟩ := System.Run.invariant syncStages_starts
    (fun kept refines safe found pending there answered step =>
      Kept.mk (kept.careful.run refines safe found pending there answered step)
        (kept.careful.companyId_eq there answered step kept.held))
    (fun kept _ _ changed => Kept.mk (kept.careful.env changed fun _ => rfl)
      ((companyId_of_env changed).trans kept.held)) refines kept later
  rw [← refines'.store]
  exact kept'.held

end

/-! ### Two calls -/

/-- An organization without a company. -/
def newcomer : Store where
  organization := some {
    id := "org", tenantId := "tenant", name := "Org", primaryDomain := none, healthScore := 100
    ownerEmail := none, subscription := none, hubspotCompanyId := none }

abbrev newcomerSyncs : System HubspotIface String Store HubspotResponse :=
  syncs Json.parse (some "token") "https://api.hubapi.com" "org"

def idBody (id : String) : String := "\x7b\"id\":\"" ++ id ++ "\"\x7d"

/-- A call that creates a company, and one after it that updates it. -/
def inTurn : List (Act Choice HubspotEvent) :=
  [.env (.sync "tenant"), .run 0 .done, .run 0 (.answers 201 (idBody "7") "7"), .run 0 .done,
    .run 0 .done, .run 0 .done, .env (.sync "tenant"), .run 1 .done,
    .run 1 (.answers 200 (idBody "7") "7"), .run 1 .done, .run 1 .done]

/-- Both calls read the organization before either stores an id. -/
def atOnce : List (Act Choice HubspotEvent) :=
  [.env (.sync "tenant"), .env (.sync "tenant"), .run 0 .done, .run 1 .done,
    .run 0 (.answers 201 (idBody "7") "7"), .run 1 (.answers 201 (idBody "8") "8")]

/-- Two calls in turn make one company. -/
theorem inTurn_oneCompany : ∃ w, newcomerSyncs.Run
    (fun w act => isSafe Json.parse (some "token") w act = true) (opened newcomer) w ∧
      w.store.companyId = some "7" ∧ OneCompany newcomer w.store := by
  have evaluated : (newcomerSyncs.execute (isSafe Json.parse (some "token"))
      (opened newcomer) inTurn).any (fun w => w.store.companyId = some "7") = true := by
    decide +kernel
  obtain ⟨w, ran, held⟩ := System.Run.exists_of_execute (fun _ _ safe => safe) evaluated
  exact ⟨w, ran, of_decide_eq_true held, (oneCompany ran).1⟩

/-- Two calls at once make two. -/
theorem atOnce_not_oneCompany : ¬ ∀ w, newcomerSyncs.Run (fun _ _ => True) (opened newcomer) w →
    OneCompany newcomer w.store := by
  intro always
  have evaluated : (newcomerSyncs.execute (fun _ _ => true) (opened newcomer) atOnce).any
      (fun w => w.store.companies = ["8", "7"]) = true := by decide +kernel
  obtain ⟨w, ran, two⟩ := System.Run.exists_of_execute (fun _ _ _ => trivial) evaluated
  have most : w.store.companies.length ≤ 1 := always w ran
  rw [of_decide_eq_true two] at most
  exact absurd most (by decide)

end Hubspot
