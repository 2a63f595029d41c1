import BirthHub.Connectors.OauthState
import BirthHub.Data.IsoDate
import BirthHub.Data.Table
import BirthHub.Data.Tickets
import BirthHub.Packs.Decryption

/-!
# The service of connectors

`createConnectSession` stores a state in the metadata of a connector account, and
`finalizeConnectSession` accepts it there and writes other metadata. `upsertConnector` stores what
metadata it is given. The calls come one after another.
-/

namespace Connectors

open Data
open Packs (Cipher encryptConnectorToken)

structure ConnectorCredential where
  credentialType : String
  encryptedValue : String
  expiresAt : Option Date

structure ConnectorAccount where
  id : String
  tenantId : String
  organizationId : String
  provider : ConnectorProvider
  accountKey : String
  displayName : Option String := none
  externalAccountId : Option String := none
  authType : String
  status : String
  scopes : Option Json := none
  metadata : Option Json := none
  connectedAt : Option Date := none
  credentials : List ConnectorCredential := []

/-- Where an account is found by the service. -/
structure AccountPlace where
  organizationId : String
  provider : ConnectorProvider
  accountKey : String
deriving DecidableEq

def ConnectorAccount.place (account : ConnectorAccount) : AccountPlace :=
  ⟨account.organizationId, account.provider, account.accountKey⟩

inductive ConnectorAccountKey
  | id (id : String)
  | organizationId_provider_accountKey (place : AccountPlace)
deriving DecidableEq

instance : Schema ConnectorAccount where
  Key := ConnectorAccountKey
  keys account := [.id account.id, .organizationId_provider_accountKey account.place]

abbrev Accounts := Table ConnectorAccount

/-- What a call draws: the id of a new account, the vector for each credential it encrypts, and
the times at which a callback is received. -/
structure Drawn where
  id : String
  iv : String → String
  connectedAt : Date
  callbackReceivedAt : String

inductive ServiceError
  | problem (error : ProblemDetailsError)
  /-- A unique constraint of the database. -/
  | constraint
  | unsupported (message : String)
deriving DecidableEq

structure ConnectorCredentialInput where
  expiresAt : Option String := none
  value : String

/-- Credentials by their types. -/
abbrev ConnectorCredentialsRecord := List (String × ConnectorCredentialInput)

/-! ## Accounts and their credentials -/

def parseExpiry (value : Option String) : Option Date :=
  match value with
  | none => none
  | some text =>
      if text = "" then none
      else if (Date.parse text).time.isNone then none else some (Date.parse text)

def normalizeCredentials (input : Option ConnectorCredentialsRecord) : ConnectorCredentialsRecord :=
  input.getD []

section Service

variable (cipher : Cipher)

/-- The upsert of one credential of an account. -/
def upsertCredential (drawn : Drawn) (credentials : List ConnectorCredential)
    (entry : String × ConnectorCredentialInput) : List ConnectorCredential :=
  let encryptedValue := encryptConnectorToken cipher (drawn.iv entry.1) entry.2.value
  if credentials.any (·.credentialType == entry.1) then
    credentials.map fun credential =>
      if credential.credentialType == entry.1 then
        { credential with encryptedValue, expiresAt := parseExpiry entry.2.expiresAt }
      else credential
  else credentials ++ [{
    credentialType := entry.1
    encryptedValue
    expiresAt := parseExpiry entry.2.expiresAt }]

def ConnectorAccount.withCredentials (account : ConnectorAccount) (drawn : Drawn)
    (credentials : ConnectorCredentialsRecord) : ConnectorAccount :=
  { account with credentials := credentials.foldl (upsertCredential cipher drawn) account.credentials }

theorem ConnectorAccount.withCredentials_keys {drawn : Drawn}
    {credentials : ConnectorCredentialsRecord} (account : ConnectorAccount) :
    Schema.keys (account.withCredentials cipher drawn credentials) = Schema.keys account := rfl

def upsertCredentials (drawn : Drawn) (accounts : Accounts) (connectorAccountId : String)
    (credentials : ConnectorCredentialsRecord) : Accounts :=
  accounts.update (·.id == connectorAccountId) (·.withCredentials cipher drawn credentials)
    (ConnectorAccount.withCredentials_keys cipher)

/-- `prisma.connectorAccount.upsert` at the place of the account to create. -/
def upsertAccount (accounts : Accounts) (create : ConnectorAccount)
    (update : ConnectorAccount → ConnectorAccount)
    (keeps : ∀ account, Schema.keys (update account) = Schema.keys account) :
    Except ServiceError (ConnectorAccount × Accounts) :=
  match accounts.get (.organizationId_provider_accountKey create.place) with
  | some account => .ok (update account, accounts.update (·.id == account.id) update keeps)
  | none =>
      match accounts.insert create with
      | some accounts => .ok (create, accounts)
      | none => .error .constraint

def resolveConnectorAccount (accounts : Accounts) (accountKey : Option String)
    (organizationId : String) (provider : ConnectorProvider) : Option ConnectorAccount :=
  accounts.get (.organizationId_provider_accountKey
    ⟨organizationId, provider, accountKey.getD "primary"⟩)

structure SanitizedConnector where
  accountKey : String
  authType : String
  connectedAt : Option String
  credentialMetadata : List (String × Option String)
  displayName : Option String
  externalAccountId : Option String
  id : String
  metadata : Option Json
  provider : ConnectorProvider
  scopes : Option Json
  status : String

def sanitizeConnectorAccount (account : ConnectorAccount) : SanitizedConnector where
  accountKey := account.accountKey
  authType := account.authType
  connectedAt := account.connectedAt.bind Date.toISOString
  credentialMetadata := account.credentials.map fun credential =>
    (credential.credentialType, credential.expiresAt.bind Date.toISOString)
  displayName := account.displayName
  externalAccountId := account.externalAccountId
  id := account.id
  metadata := account.metadata
  provider := account.provider
  scopes := account.scopes
  status := account.status

/-! ## The calls -/

/-- An optional text counts when it is not empty. -/
def truthyText (text : Option String) : Option String := text.filter (· ≠ "")

def toScopes (scopes : List String) : Json := .array (scopes.map .str)

structure UpsertConnectorInput where
  accountKey : Option String := none
  authType : Option String := none
  credentials : Option ConnectorCredentialsRecord := none
  displayName : Option String := none
  externalAccountId : Option String := none
  metadata : Option Json := none
  organizationId : String
  provider : ConnectorProvider
  scopes : Option (List String) := none
  status : Option String := none
  tenantId : String

def UpsertConnectorInput.created (input : UpsertConnectorInput) (drawn : Drawn) :
    ConnectorAccount where
  id := drawn.id
  accountKey := input.accountKey.getD "primary"
  authType := input.authType.getD "oauth"
  displayName := truthyText input.displayName
  externalAccountId := truthyText input.externalAccountId
  metadata := input.metadata
  organizationId := input.organizationId
  provider := input.provider
  scopes := input.scopes.map toScopes
  status := input.status.getD "active"
  tenantId := input.tenantId

def UpsertConnectorInput.updated (input : UpsertConnectorInput) (account : ConnectorAccount) :
    ConnectorAccount :=
  { account with
    authType := input.authType.getD "oauth"
    displayName := (truthyText input.displayName).or account.displayName
    externalAccountId := (truthyText input.externalAccountId).or account.externalAccountId
    metadata := input.metadata.or account.metadata
    scopes := (input.scopes.map toScopes).or account.scopes
    status := input.status.getD "active" }

theorem UpsertConnectorInput.updated_keys (input : UpsertConnectorInput)
    (account : ConnectorAccount) : Schema.keys (input.updated account) = Schema.keys account := rfl

def upsertConnector (drawn : Drawn) (input : UpsertConnectorInput) (accounts : Accounts) :
    Except ServiceError (Option SanitizedConnector) × Accounts :=
  match upsertAccount accounts (input.created drawn) input.updated input.updated_keys with
  | .error error => (.error error, accounts)
  | .ok (account, accounts) =>
      let credentials := normalizeCredentials input.credentials
      let accounts :=
        if credentials ≠ [] then upsertCredentials cipher drawn accounts account.id credentials
        else accounts
      (.ok ((resolveConnectorAccount accounts input.accountKey input.organizationId
        input.provider).map sanitizeConnectorAccount), accounts)

/-- The settings of the providers. -/
structure ApiConfig where
  HUBSPOT_CLIENT_ID : Option String := none
  HUBSPOT_CLIENT_SECRET : Option String := none
  HUBSPOT_REDIRECT_URI : Option String := none
  GOOGLE_CLIENT_ID : Option String := none
  GOOGLE_CLIENT_SECRET : Option String := none
  GOOGLE_REDIRECT_URI : Option String := none
  MICROSOFT_CLIENT_ID : Option String := none
  MICROSOFT_CLIENT_SECRET : Option String := none
  MICROSOFT_REDIRECT_URI : Option String := none

structure ProviderOauthConfig where
  authorizationUrl : String
  clientId : String
  defaultScopes : List String
  redirectUri : String

/-- The settings of one provider, none of them missing or empty. -/
def providerOauthConfig (clientId clientSecret redirectUri : Option String)
    (authorizationUrl : String) (defaultScopes : List String) : Option ProviderOauthConfig :=
  match truthyText clientId, truthyText clientSecret, truthyText redirectUri with
  | some clientId, some _, some redirectUri =>
      some { authorizationUrl, clientId, defaultScopes, redirectUri }
  | _, _, _ => none

def getProviderOauthConfig (config : ApiConfig) : ConnectorProvider → Option ProviderOauthConfig
  | .hubspot =>
      providerOauthConfig config.HUBSPOT_CLIENT_ID config.HUBSPOT_CLIENT_SECRET
        config.HUBSPOT_REDIRECT_URI "https://app.hubspot.com/oauth/authorize"
        ["crm.objects.companies.read", "crm.objects.companies.write"]
  | .googleWorkspace =>
      providerOauthConfig config.GOOGLE_CLIENT_ID config.GOOGLE_CLIENT_SECRET
        config.GOOGLE_REDIRECT_URI "https://accounts.google.com/o/oauth2/v2/auth"
        ["https://www.googleapis.com/auth/calendar", "https://www.googleapis.com/auth/gmail.send"]
  | .microsoftGraph =>
      providerOauthConfig config.MICROSOFT_CLIENT_ID config.MICROSOFT_CLIENT_SECRET
        config.MICROSOFT_REDIRECT_URI
        "https://login.microsoftonline.com/common/oauth2/v2.0/authorize"
        ["offline_access", "Calendars.ReadWrite", "Mail.Send", "User.Read"]
  | _ => none

/-- A URL before its parameters are written. -/
structure AuthorizationUrl where
  base : String
  params : List (String × String)

/-- `none` when the provider is not supported. -/
def buildAuthorizationUrl (oauth : ProviderOauthConfig) (provider : ConnectorProvider)
    (scopes : List String) (state : String) : Option AuthorizationUrl :=
  let scope := " ".intercalate scopes
  let own :=
    match provider with
    | .hubspot => some [("scope", scope)]
    | .googleWorkspace =>
        some [("access_type", "offline"), ("prompt", "consent"), ("response_type", "code"),
          ("scope", scope)]
    | .microsoftGraph =>
        some [("response_type", "code"), ("response_mode", "query"), ("scope", scope)]
    | _ => none
  own.map fun params =>
    { base := oauth.authorizationUrl
      params := [("client_id", oauth.clientId), ("redirect_uri", oauth.redirectUri),
        ("state", state)] ++ params }

structure CreateConnectSessionInput where
  accountKey : Option String := none
  config : ApiConfig
  organizationId : String
  provider : ConnectorProvider
  requestId : String
  scopes : Option (List String) := none
  tenantId : String
  userId : String

structure ConnectSession where
  authorizationUrl : AuthorizationUrl
  connector : Option SanitizedConnector
  state : String

def CreateConnectSessionInput.fields (input : CreateConnectSessionInput) : OauthFields where
  accountKey := input.accountKey.getD "primary"
  organizationId := input.organizationId
  provider := input.provider
  requestId := input.requestId
  tenantId := input.tenantId
  userId := input.userId

/-- The metadata of an account that waits for its callback. -/
def pendingMetadata (state : String) (scopes : List String) : Json :=
  .object [("oauthState", .str state), ("requestedScopes", toScopes scopes)]

/-- The scopes that are asked for, or those of the provider. -/
def CreateConnectSessionInput.scopesOr (input : CreateConnectSessionInput)
    (defaultScopes : List String) : List String :=
  match input.scopes with
  | none | some [] => defaultScopes
  | some scopes => scopes

def CreateConnectSessionInput.created (input : CreateConnectSessionInput) (drawn : Drawn)
    (state : String) (scopes : List String) : ConnectorAccount where
  id := drawn.id
  accountKey := input.accountKey.getD "primary"
  authType := "oauth"
  metadata := some (pendingMetadata state scopes)
  organizationId := input.organizationId
  provider := input.provider
  scopes := some (toScopes scopes)
  status := "pending"
  tenantId := input.tenantId

/-- An account that a session was created for. -/
def ConnectorAccount.connecting (state : String) (scopes : List String)
    (account : ConnectorAccount) : ConnectorAccount :=
  { account with
    metadata := some (pendingMetadata state scopes)
    scopes := some (toScopes scopes)
    status := "pending" }

theorem ConnectorAccount.connecting_keys (state : String) (scopes : List String)
    (account : ConnectorAccount) :
    Schema.keys (account.connecting state scopes) = Schema.keys account := rfl

def createConnectSession (drawn : Drawn) (input : CreateConnectSessionInput)
    (accounts : Accounts) : Except ServiceError ConnectSession × Accounts :=
  match getProviderOauthConfig input.config input.provider with
  | none =>
      (.error (.problem {
        detail := "Provider '" ++ input.provider.text ++
          "' is not configured for OAuth in this environment."
        status := 409
        title := "Connector OAuth Not Configured" }), accounts)
  | some oauth =>
      let state := buildOauthState input.fields
      let scopes := input.scopesOr oauth.defaultScopes
      match upsertAccount accounts (input.created drawn state scopes)
          (ConnectorAccount.connecting state scopes) (ConnectorAccount.connecting_keys state scopes) with
      | .error error => (.error error, accounts)
      | .ok (account, accounts) =>
          match buildAuthorizationUrl oauth input.provider scopes state with
          | none => (.error (.unsupported ("Unsupported OAuth provider: " ++ input.provider.text)),
              accounts)
          | some authorizationUrl =>
              (.ok {
                authorizationUrl
                connector := (resolveConnectorAccount accounts (some account.accountKey)
                  input.organizationId input.provider).map sanitizeConnectorAccount
                state }, accounts)

structure FinalizeConnectSessionInput where
  accessToken : Option String := none
  accountKey : Option String := none
  code : Option String := none
  displayName : Option String := none
  expiresAt : Option String := none
  externalAccountId : Option String := none
  organizationId : String
  provider : ConnectorProvider
  refreshToken : Option String := none
  scopes : Option (List String) := none
  state : String
  tenantId : String

/-- The credentials that a callback brings. -/
def FinalizeConnectSessionInput.credentials (input : FinalizeConnectSessionInput) :
    ConnectorCredentialsRecord :=
  (truthyText input.code).toList.map (fun code => ("authorization_code", { value := code })) ++
  (truthyText input.accessToken).toList.map (fun accessToken =>
    ("access_token", { expiresAt := truthyText input.expiresAt, value := accessToken })) ++
  (truthyText input.refreshToken).toList.map (fun refreshToken =>
    ("refresh_token", { value := refreshToken }))

/-- The metadata of an account whose callback was received. -/
def FinalizeConnectSessionInput.metadata (input : FinalizeConnectSessionInput) (drawn : Drawn)
    (account : ConnectorAccount) : Json :=
  .object [("callbackReceivedAt", .str drawn.callbackReceivedAt),
    ("requestedScopes", match input.scopes with
      | some scopes => toScopes scopes
      | none =>
          match account.metadata.bind (·.member "requestedScopes") with
          | none | some .null => .array []
          | some requested => requested),
    ("stateValidated", .bool true)]

def FinalizeConnectSessionInput.updated (input : FinalizeConnectSessionInput) (drawn : Drawn)
    (account : ConnectorAccount) : ConnectorAccount :=
  { account with
    connectedAt := some drawn.connectedAt
    displayName := (truthyText input.displayName).or account.displayName
    externalAccountId := (truthyText input.externalAccountId).or account.externalAccountId
    metadata := some (input.metadata drawn account)
    scopes := (input.scopes.map toScopes).or account.scopes
    status :=
      if (truthyText input.accessToken).isSome ∨ (truthyText input.refreshToken).isSome then "active"
      else if (truthyText input.code).isSome then "pending_token_exchange"
      else "pending" }

theorem FinalizeConnectSessionInput.updated_keys (input : FinalizeConnectSessionInput)
    (drawn : Drawn) (account : ConnectorAccount) :
    Schema.keys (input.updated drawn account) = Schema.keys account := rfl

/-- `metadata.oauthState`, when it is a string. -/
def ConnectorAccount.oauthState (account : ConnectorAccount) : Option String :=
  account.metadata.bind fun metadata => stringMember metadata "oauthState"

def finalizeConnectSession (drawn : Drawn) (input : FinalizeConnectSessionInput)
    (accounts : Accounts) : Except ServiceError (Option SanitizedConnector) × Accounts :=
  match resolveConnectorAccount accounts input.accountKey input.organizationId input.provider with
  | none =>
      (.error (.problem {
        detail := "Connector account was not initialized for this callback."
        status := 404
        title := "Connector Not Found" }), accounts)
  | some account =>
      if account.oauthState ≠ some input.state then
        (.error (.problem {
          detail := "Connector OAuth state validation failed."
          status := 409
          title := "Connector State Mismatch" }), accounts)
      else
        let accounts := accounts.update (·.id == account.id) (input.updated drawn)
          (input.updated_keys drawn)
        let accounts :=
          if input.credentials ≠ [] then
            upsertCredentials cipher drawn accounts account.id input.credentials
          else accounts
        (.ok ((resolveConnectorAccount accounts (some account.accountKey) input.organizationId
          input.provider).map sanitizeConnectorAccount), accounts)

end Service

end Connectors
