import BirthHub.Connectors.Service

/-!
# Sessions of an OAuth connection

The state that an account waits for is a ticket: `createConnectSession` issues it, and
`finalizeConnectSession` redeems it. `upsertConnector` only keeps or drops tickets as long as the
metadata it stores names no other state than the one that the account waits for.
-/

namespace Connectors

open Data
open Packs (Cipher)
open Data.Tickets (Act Step Run)

/-- The state that the account at a place waits for. -/
def pending (accounts : Accounts) (place : AccountPlace) : Option String :=
  (accounts.get (.organizationId_provider_accountKey place)).bind ConnectorAccount.oauthState

inductive ConnectorCall
  | upsertConnector (input : UpsertConnectorInput)
  | createConnectSession (input : CreateConnectSessionInput)
  | finalizeConnectSession (input : FinalizeConnectSessionInput)

inductive ConnectorResponse
  | connector (connector : Option SanitizedConnector)
  | session (session : ConnectSession)

/-- A call that was served, and how it ended. -/
structure Event where
  call : ConnectorCall
  result : Except ServiceError ConnectorResponse

def UpsertConnectorInput.place (input : UpsertConnectorInput) : AccountPlace :=
  ⟨input.organizationId, input.provider, input.accountKey.getD "primary"⟩

def CreateConnectSessionInput.place (input : CreateConnectSessionInput) : AccountPlace :=
  ⟨input.organizationId, input.provider, input.accountKey.getD "primary"⟩

def FinalizeConnectSessionInput.place (input : FinalizeConnectSessionInput) : AccountPlace :=
  ⟨input.organizationId, input.provider, input.accountKey.getD "primary"⟩

/-- What an event does to the tickets of the accounts. -/
def Event.act : Event → Act AccountPlace String
  | ⟨.createConnectSession input, .ok (.session session)⟩ => .issue input.place session.state
  | ⟨.finalizeConnectSession input, .ok _⟩ => .redeem input.place input.state
  | _ => .other

/-- The request that a session was asked for with. -/
def Event.requestId (event : Event) : Option String :=
  match event.call with
  | .createConnectSession input => some input.requestId
  | _ => none

section

variable (cipher : Cipher)

def serve (drawn : Drawn) (accounts : Accounts) :
    ConnectorCall → Except ServiceError ConnectorResponse × Accounts
  | .upsertConnector input =>
      let (result, accounts) := upsertConnector cipher drawn input accounts
      (result.map .connector, accounts)
  | .createConnectSession input =>
      let (result, accounts) := createConnectSession drawn input accounts
      (result.map .session, accounts)
  | .finalizeConnectSession input =>
      let (result, accounts) := finalizeConnectSession cipher drawn input accounts
      (result.map .connector, accounts)

/-- The calls of a history that starts without accounts, each made where it is allowed. -/
inductive Served (allowed : Accounts → ConnectorCall → Prop) : List Event → Accounts → Prop
  | start : Served allowed [] .empty
  | call {events : List Event} {accounts : Accounts} (before : Served allowed events accounts)
      (drawn : Drawn) (call : ConnectorCall) (permitted : allowed accounts call) :
      Served allowed (events ++ [⟨call, (serve cipher drawn accounts call).1⟩])
        (serve cipher drawn accounts call).2

end

/-- The metadata that a call upserts names no state but the one that is waited for. -/
def KeepsState (accounts : Accounts) : ConnectorCall → Prop
  | .upsertConnector input => ∀ state,
      (input.metadata.bind fun metadata => stringMember metadata "oauthState") = some state →
        pending accounts input.place = some state
  | _ => True

/-! ## What the operations leave at a place -/

section

variable {cipher : Cipher} {accounts accounts' : Accounts} {drawn : Drawn}

theorem get_place {place : AccountPlace} {account : ConnectorAccount}
    (found : accounts.get (.organizationId_provider_accountKey place) = some account) :
    account.place = place := by
  have key := (Table.get_eq_some.mp found).2
  rcases List.mem_cons.mp key with same | key
  · cases same
  · cases List.mem_singleton.mp key
    rfl

theorem get_update_id {account : ConnectorAccount} {update : ConnectorAccount → ConnectorAccount}
    {keeps : ∀ account, Schema.keys (update account) = Schema.keys account}
    (found : accounts.get (.organizationId_provider_accountKey account.place) = some account)
    (place : AccountPlace) :
    (accounts.update (·.id == account.id) update keeps).get
        (.organizationId_provider_accountKey place) =
      if place = account.place then some (update account)
      else accounts.get (.organizationId_provider_accountKey place) := by
  rw [Table.get_update]
  split
  · rename_i same
    rw [same, found, Option.map_some, if_pos (beq_self_eq_true _)]
  · rename_i other
    cases there : accounts.get (.organizationId_provider_accountKey place) with
    | none => rfl
    | some row =>
        rw [Option.map_some, if_neg]
        intro same
        have rows := (Table.get_eq_some.mp there).1
        have own := (Table.get_eq_some.mp found).1
        have listed : ConnectorAccountKey.id account.id ∈ Schema.keys row := by
          rw [← eq_of_beq same]
          exact List.mem_cons_self
        have equal : row = account := Table.eq_of_keys rows own listed List.mem_cons_self
        rw [← get_place there, equal] at other
        exact other rfl

/-- An upsert leaves one account at its place: the one that was there, updated, or a new one. -/
theorem upsertAccount_get {create account : ConnectorAccount}
    {update : ConnectorAccount → ConnectorAccount}
    {keeps : ∀ account, Schema.keys (update account) = Schema.keys account}
    (done : upsertAccount accounts create update keeps = .ok (account, accounts'))
    (place : AccountPlace) :
    accounts'.get (.organizationId_provider_accountKey place) =
      if place = create.place then some account
      else accounts.get (.organizationId_provider_accountKey place) := by
  unfold upsertAccount at done
  split at done
  · rename_i own found
    cases done
    have same := get_place found
    rw [← same] at found
    rw [get_update_id found, same]
  · rename_i absent
    split at done
    · rename_i inserted
      cases done
      rw [Table.get_insert inserted]
      by_cases same : place = create.place
      · rw [if_pos same, if_pos (by rw [same]; exact List.mem_cons_of_mem _ List.mem_cons_self)]
      · rw [if_neg same, if_neg]
        intro key
        rcases List.mem_cons.mp key with other | key
        · cases other
        · exact same (ConnectorAccountKey.organizationId_provider_accountKey.inj
            (List.mem_singleton.mp key))
    · cases done

theorem upsertAccount_account {create account : ConnectorAccount}
    {update : ConnectorAccount → ConnectorAccount}
    {keeps : ∀ account, Schema.keys (update account) = Schema.keys account}
    (done : upsertAccount accounts create update keeps = .ok (account, accounts')) :
    (∃ own, accounts.get (.organizationId_provider_accountKey create.place) = some own ∧
      account = update own) ∨ account = create := by
  unfold upsertAccount at done
  split at done
  · rename_i own found
    cases done
    exact .inl ⟨own, found, rfl⟩
  · split at done
    · cases done
      exact .inr rfl
    · cases done

/-- An account that an update by its id leaves with another state changes one ticket. -/
theorem pending_update_id {account : ConnectorAccount}
    {update : ConnectorAccount → ConnectorAccount}
    {keeps : ∀ account, Schema.keys (update account) = Schema.keys account}
    (found : accounts.get (.organizationId_provider_accountKey account.place) = some account) :
    pending (accounts.update (·.id == account.id) update keeps) =
      Function.update (pending accounts) account.place (update account).oauthState := by
  funext place
  rw [pending, get_update_id found, Function.update_apply]
  split
  · rfl
  · rfl

theorem pending_upsertAccount {create account : ConnectorAccount}
    {update : ConnectorAccount → ConnectorAccount}
    {keeps : ∀ account, Schema.keys (update account) = Schema.keys account}
    (done : upsertAccount accounts create update keeps = .ok (account, accounts')) :
    pending accounts' = Function.update (pending accounts) create.place account.oauthState := by
  funext place
  rw [pending, upsertAccount_get done, Function.update_apply]
  split
  · rfl
  · rfl

theorem pending_upsertCredentials {id : String} {credentials : ConnectorCredentialsRecord} :
    pending (upsertCredentials cipher drawn accounts id credentials) = pending accounts := by
  funext place
  rw [pending, upsertCredentials, Table.get_update, pending]
  cases accounts.get (.organizationId_provider_accountKey place) with
  | none => rfl
  | some account =>
      rw [Option.map_some, Option.bind_some, Option.bind_some]
      split
      · rfl
      · rfl

/-! ## What a call does to the tickets -/

theorem upsertConnector_drops {input : UpsertConnectorInput}
    (keeps : KeepsState accounts (.upsertConnector input)) (place : AccountPlace) (state : String)
    (there : pending (upsertConnector cipher drawn input accounts).2 place = some state) :
    pending accounts place = some state := by
  unfold upsertConnector at there
  split at there
  · exact there
  · rename_i account stored done
    have same : pending (if normalizeCredentials input.credentials ≠ [] then
        upsertCredentials cipher drawn stored account.id (normalizeCredentials input.credentials)
        else stored) = pending stored := by
      split
      · exact pending_upsertCredentials
      · rfl
    dsimp only at there
    rw [same, pending_upsertAccount done] at there
    have shape : (input.created drawn).place = input.place := rfl
    rw [shape] at there
    by_cases own : place = input.place
    · rw [own, Function.update_self] at there
      rw [own]
      rcases upsertAccount_account done with ⟨before, found, rfl⟩ | rfl
      · cases given : input.metadata with
        | some metadata =>
            have stored : (input.updated before).metadata = some metadata := by
              rw [UpsertConnectorInput.updated, given]
              rfl
            rw [ConnectorAccount.oauthState, stored] at there
            exact keeps state (by rw [given]; exact there)
        | none =>
            have stored : (input.updated before).metadata = before.metadata := by
              rw [UpsertConnectorInput.updated, given]
              rfl
            rw [ConnectorAccount.oauthState, stored] at there
            rw [pending, ← shape, found]
            exact there
      · exact keeps state there
    · rw [Function.update_of_ne own] at there
      exact there

theorem buildAuthorizationUrl_isSome {config : ApiConfig} {provider : ConnectorProvider}
    {oauth : ProviderOauthConfig} (configured : getProviderOauthConfig config provider = some oauth)
    (scopes : List String) (state : String) :
    (buildAuthorizationUrl oauth provider scopes state).isSome = true := by
  cases provider with
  | googleWorkspace | hubspot | microsoftGraph => rfl
  | pipedrive | salesforce | twilioWhatsapp => cases configured

/-- A session that is created puts its state in the place of another; otherwise nothing changes. -/
theorem createConnectSession_pending {input : CreateConnectSessionInput} :
    (∃ session, (createConnectSession drawn input accounts).1 = .ok session ∧
        session.state = buildOauthState input.fields ∧
        pending (createConnectSession drawn input accounts).2 =
          Function.update (pending accounts) input.place (some session.state)) ∨
      (∃ error, (createConnectSession drawn input accounts).1 = .error error) ∧
        (createConnectSession drawn input accounts).2 = accounts := by
  unfold createConnectSession
  split
  · exact .inr ⟨⟨_, rfl⟩, rfl⟩
  · rename_i oauth configured
    dsimp only
    split
    · exact .inr ⟨⟨_, rfl⟩, rfl⟩
    · rename_i account stored done
      split
      · rename_i unsupported
        have supported := buildAuthorizationUrl_isSome configured
          (input.scopesOr oauth.defaultScopes) (buildOauthState input.fields)
        rw [unsupported] at supported
        cases supported
      · refine .inl ⟨_, rfl, rfl, ?_⟩
        rw [pending_upsertAccount done]
        rcases upsertAccount_account done with ⟨before, found, rfl⟩ | rfl
        · rfl
        · rfl

/-- A callback that is accepted redeems the state that its account waits for; otherwise nothing
changes. -/
theorem finalizeConnectSession_pending {input : FinalizeConnectSessionInput} :
    (∃ connector, (finalizeConnectSession cipher drawn input accounts).1 = .ok connector) ∧
        pending accounts input.place = some input.state ∧
        pending (finalizeConnectSession cipher drawn input accounts).2 =
          Function.update (pending accounts) input.place none ∨
      (∃ error, (finalizeConnectSession cipher drawn input accounts).1 = .error error) ∧
        (finalizeConnectSession cipher drawn input accounts).2 = accounts := by
  unfold finalizeConnectSession
  split
  · exact .inr ⟨⟨_, rfl⟩, rfl⟩
  · rename_i account found
    have place : account.place = input.place := get_place found
    split
    · exact .inr ⟨⟨_, rfl⟩, rfl⟩
    · rename_i state
      have own : account.oauthState = some input.state := of_not_not state
      have here : accounts.get (.organizationId_provider_accountKey input.place) = some account :=
        found
      refine .inl ⟨⟨_, rfl⟩, ?_, ?_⟩
      · rw [pending, here]
        exact own
      · rw [← place] at here ⊢
        have cleared : (input.updated drawn account).oauthState = none := rfl
        dsimp only
        split
        · rw [pending_upsertCredentials, pending_update_id here, cleared]
        · rw [pending_update_id here, cleared]

/-- The state that an account waits for is accepted. -/
theorem finalizeConnectSession_accepts {input : FinalizeConnectSessionInput}
    (waits : pending accounts input.place = some input.state) :
    ∃ connector, (finalizeConnectSession cipher drawn input accounts).1 = .ok connector := by
  obtain ⟨account, found, own⟩ := Option.bind_eq_some_iff.mp waits
  have resolved : resolveConnectorAccount accounts input.accountKey input.organizationId
      input.provider = some account := found
  rw [finalizeConnectSession, resolved]
  exact ⟨_, congrArg Prod.fst (if_neg (not_not_intro own))⟩

theorem serve_step {call : ConnectorCall} (keeps : KeepsState accounts call) :
    Step (pending accounts) (Event.act ⟨call, (serve cipher drawn accounts call).1⟩)
      (pending (serve cipher drawn accounts call).2) := by
  cases call with
  | upsertConnector input => exact .other (upsertConnector_drops keeps)
  | createConnectSession input =>
      rcases @createConnectSession_pending accounts drawn input with
        ⟨session, ended, _, stored⟩ | ⟨⟨error, ended⟩, same⟩
      · simp only [serve, ended, stored]
        exact .issue input.place session.state
      · simp only [serve, ended, same]
        exact .other fun _ _ there => there
  | finalizeConnectSession input =>
      rcases @finalizeConnectSession_pending cipher accounts drawn input with
        ⟨⟨connector, ended⟩, waits, stored⟩ | ⟨⟨error, ended⟩, same⟩
      · simp only [serve, ended, stored]
        exact .redeem waits
      · simp only [serve, ended, same]
        exact .other fun _ _ there => there

/-! ## Histories -/

theorem Served.run {allowed : Accounts → ConnectorCall → Prop} {events : List Event}
    (served : Served cipher allowed events accounts)
    (keeps : ∀ {accounts call}, allowed accounts call → KeepsState accounts call) :
    Run (events.map Event.act) (pending accounts) := by
  induction served with
  | start => exact .start
  | call before drawn call permitted ih =>
      rw [List.map_append, List.map_singleton]
      exact .step ih (serve_step (keeps permitted))

theorem Served.issued {allowed : Accounts → ConnectorCall → Prop} {events : List Event}
    (served : Served cipher allowed events accounts) : ∀ event ∈ events, ∀ state,
      event.act.issued = some state →
        ∃ fields, state = buildOauthState fields ∧ event.requestId = some fields.requestId := by
  induction served with
  | start => exact List.forall_mem_nil _
  | @call events accounts before drawn call permitted ih =>
      intro event there state issued
      rcases List.mem_append.mp there with early | last
      · exact ih event early state issued
      · rw [List.mem_singleton] at last
        subst last
        cases call with
        | upsertConnector input => cases issued
        | createConnectSession input =>
            rcases @createConnectSession_pending accounts drawn input with
              ⟨session, ended, built, _⟩ | ⟨⟨error, ended⟩, _⟩
            · simp only [serve, ended] at issued
              cases issued
              exact ⟨input.fields, built, rfl⟩
            · simp only [serve, ended] at issued
              cases issued
        | finalizeConnectSession input =>
            rcases @finalizeConnectSession_pending cipher accounts drawn input with
              ⟨⟨connector, ended⟩, _⟩ | ⟨⟨error, ended⟩, _⟩ <;>
            · simp only [serve, ended] at issued
              cases issued

theorem Served.once {allowed : Accounts → ConnectorCall → Prop} {events : List Event}
    (served : Served cipher allowed events accounts)
    (distinct : (events.filterMap Event.requestId).Nodup) :
    ((events.map Event.act).filterMap Act.issued).Nodup := by
  rw [List.filterMap_map]
  rw [List.Nodup, List.pairwise_filterMap] at distinct ⊢
  refine distinct.imp_of_mem fun {event event'} there there' apart state issued state' issued' => ?_
  obtain ⟨fields, built, request⟩ := served.issued event there state issued
  obtain ⟨fields', built', request'⟩ := served.issued event' there' state' issued'
  intro same
  have equal : fields = fields' := buildOauthState_injective (built.symm.trans (same.trans built'))
  exact apart _ request _ request' (congrArg OauthFields.requestId equal)

/-- The state that the latest session of a place was created with. -/
def latestState (place : AccountPlace) (events : List Event) : Option String :=
  Tickets.latest place (events.map Event.act)

/-- A state is read as the fields it was built of. In a history whose sessions have different
requests, and whose upserts store no state of their own, a callback is accepted only with the state
of the latest session for its account, and with none that was accepted before. -/
theorem connectSessions_bound (cipher : Cipher) (syntaxMessage : String → String) :
    (∀ fields, parseConnectorOauthState syntaxMessage (buildOauthState fields) =
      .ok { fields with version := 1 }) ∧
    ∀ events accounts, Served cipher KeepsState events accounts →
      (events.filterMap Event.requestId).Nodup → ∀ before event after,
      events = before ++ event :: after → ∀ place state, event.act = .redeem place state →
        latestState place before = some state ∧
          ∀ earlier ∈ before, ∀ place', earlier.act ≠ .redeem place' state := by
  refine ⟨parse_buildOauthState syntaxMessage, ?_⟩
  intro events accounts served distinct before event after parts place state redeems
  have run := served.run fun permitted => permitted
  have acts : events.map Event.act =
      before.map Event.act ++ .redeem place state :: after.map Event.act := by
    rw [parts, List.map_append, List.map_cons, redeems]
  obtain ⟨last, unused⟩ := run.redeemed (served.once distinct) acts
  refine ⟨last, fun earlier there place' redeemed => unused place' ?_⟩
  rw [← redeemed]
  exact List.mem_map_of_mem there

end

/-! ### Callbacks for one account -/

def acmePlace : AccountPlace := ⟨"org", .hubspot, "primary"⟩

def acmeDrawn : Drawn where
  id := "account"
  iv _ := Packs.sampleTag
  connectedAt := Date.ofTime 0
  callbackReceivedAt := "1970-01-01T00:00:00.000Z"

def acmeSession : CreateConnectSessionInput where
  config := {
    HUBSPOT_CLIENT_ID := some "client"
    HUBSPOT_CLIENT_SECRET := some "secret"
    HUBSPOT_REDIRECT_URI := some "https://app/callback" }
  organizationId := "org"
  provider := .hubspot
  requestId := "r"
  tenantId := "tenant"
  userId := "user"

def acmeCallback (state : String) : FinalizeConnectSessionInput where
  organizationId := "org"
  provider := .hubspot
  state
  tenantId := "tenant"

def plantedConnector : UpsertConnectorInput where
  metadata := some (.object [("oauthState", .str "x")])
  organizationId := "org"
  provider := .hubspot
  tenantId := "tenant"

/-- A call, and the callback after it. -/
def beforeCallback (call : ConnectorCall) (state : String) : Event × Event × Accounts :=
  let first := serve Packs.utf8Cipher acmeDrawn .empty call
  let second := serve Packs.utf8Cipher acmeDrawn first.2 (.finalizeConnectSession (acmeCallback state))
  (⟨call, first.1⟩, ⟨.finalizeConnectSession (acmeCallback state), second.1⟩, second.2)

theorem beforeCallback_served {allowed : Accounts → ConnectorCall → Prop} {call : ConnectorCall}
    {state : String} (permitted : ∀ accounts, allowed accounts (.finalizeConnectSession
      (acmeCallback state))) (first : allowed .empty call) :
    Served Packs.utf8Cipher allowed [(beforeCallback call state).1, (beforeCallback call state).2.1]
      (beforeCallback call state).2.2 :=
  .call (.call .start acmeDrawn call first) acmeDrawn _ (permitted _)

/-- The state of a session is accepted. -/
theorem acmeSession_bound :
    let state := buildOauthState acmeSession.fields
    let events := beforeCallback (.createConnectSession acmeSession) state
    events.2.1.act = .redeem acmePlace state ∧ latestState acmePlace [events.1] = some state ∧
      ∀ earlier ∈ [events.1], ∀ place', earlier.act ≠ .redeem place' state := by
  have waits : pending (serve Packs.utf8Cipher acmeDrawn .empty
      (.createConnectSession acmeSession)).2 acmePlace = some (buildOauthState acmeSession.fields) := rfl
  obtain ⟨connector, accepted⟩ := @finalizeConnectSession_accepts Packs.utf8Cipher _ acmeDrawn
    (acmeCallback (buildOauthState acmeSession.fields)) waits
  have redeems : (beforeCallback (.createConnectSession acmeSession)
      (buildOauthState acmeSession.fields)).2.1.act =
        .redeem acmePlace (buildOauthState acmeSession.fields) := by
    simp only [beforeCallback, serve] at accepted ⊢
    rw [accepted]
    rfl
  have served := @beforeCallback_served KeepsState (.createConnectSession acmeSession)
    (buildOauthState acmeSession.fields) (fun _ => trivial) trivial
  exact ⟨redeems, (connectSessions_bound Packs.utf8Cipher id).2 _ _ served
    (List.nodup_singleton "r") [_] _ [] rfl _ _ redeems⟩

/-- A state that an upsert stored is accepted, though no session was created with it. -/
theorem plantedState_accepted :
    let events := beforeCallback (.upsertConnector plantedConnector) "x"
    Served Packs.utf8Cipher (fun _ _ => True) [events.1, events.2.1] events.2.2 ∧
      ([events.1, events.2.1].filterMap Event.requestId).Nodup ∧
      events.2.1.act = .redeem acmePlace "x" ∧ latestState acmePlace [events.1] = none :=
  ⟨beforeCallback_served (fun _ => trivial) trivial, .nil, rfl, rfl⟩

end Connectors
