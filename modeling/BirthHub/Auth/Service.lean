import BirthHub.Auth.Model

/-!
# The authentication service

The functions of the service as programs over the statements of `Auth.Model`, in the
order in which the source awaits them, and the system in which requests call them.
-/

namespace Auth

open Data Effect

/-- The part of the configuration that the service reads. -/
structure ApiConfig where
  API_AUTH_ROTATION_GRACE_HOURS : Nat := 24
  API_AUTH_SESSION_TTL_HOURS : Nat := 24
  API_AUTH_TOKEN_TTL_MINUTES : Nat := 15
  API_KEY_PREFIX : String := "bh360_live"
  AUTH_BCRYPT_SALT_ROUNDS : Nat := 12
  AUTH_MFA_CHALLENGE_TTL_SECONDS : Nat := 300
  AUTH_MFA_CLOCK_SKEW_WINDOWS : Nat := 1
  AUTH_MFA_ENCRYPTION_KEY : String

/-- Code the service calls and this development does not model: hashing, password hashes,
and one-time passwords. -/
structure Crypto where
  sha256 : String → String
  /-- `isValid` and `needsRehash`. -/
  verifyPasswordHash : (password storedHash : String) → (rounds : Nat) → Bool × Bool
  hashPassword : (password salt : String) → (rounds : Nat) → String
  decryptTotpSecret : (payload key : String) → Except AuthError String
  verifyTotpCode : (code secret : String) → (clockSkewWindows : Nat) → (now : Int) → Bool

section Service

variable (crypto : Crypto) (config : ApiConfig)

/-! ## Sessions -/

structure SessionTokens where
  csrfToken : String
  expiresAt : Int
  refreshToken : String
  token : String
deriving DecidableEq

/-- Where a request comes from. -/
structure Client where
  ipAddress : Option String := none
  userAgent : Option String := none

structure CreatedSession where
  sessionId : Nat
  tokens : SessionTokens

def createAccessToken : Prog AuthIface String := do
  let token : String ← await .randomToken
  pure ("atk_" ++ token)

def createRefreshToken : Prog AuthIface String := do
  let token : String ← await .randomToken
  pure ("rtk_" ++ token)

def nowPlusHours (hours : Nat) : Prog AuthIface Int := do
  let now : Int ← await .now
  pure (now + hours * 60 * 60 * 1000)

def nowPlusMinutes (minutes : Nat) : Prog AuthIface Int := do
  let now : Int ← await .now
  pure (now + minutes * 60 * 1000)

def createSession (client : Client) (organizationId tenantId userId : String) :
    Prog AuthIface CreatedSession := do
  let accessToken ← createAccessToken
  let refreshToken ← createRefreshToken
  let csrfToken : String ← await .randomToken
  let expiresAt ← nowPlusMinutes config.API_AUTH_TOKEN_TTL_MINUTES
  let refreshExpiresAt ← nowPlusHours config.API_AUTH_SESSION_TTL_HOURS
  let created : Session ← await (.createSession {
    csrfToken
    expiresAt
    ipAddress := client.ipAddress
    organizationId
    refreshExpiresAt
    refreshTokenHash := crypto.sha256 refreshToken
    tenantId
    token := crypto.sha256 accessToken
    userAgent := client.userAgent
    userId })
  pure ⟨created.id, ⟨csrfToken, expiresAt, refreshToken, accessToken⟩⟩

def revokeAllSessionsForIdentity (organizationId userId : String) : Prog AuthIface Nat := do
  let revokedAt : Int ← await .now
  await (.revokeSessions organizationId userId revokedAt)

/-- What signing in, passing a challenge and refreshing return about the session made. -/
structure SignedIn where
  organizationId : String
  sessionId : Nat
  tenantId : String
  tokens : SessionTokens
  userId : String
deriving DecidableEq

/-- `session` is `none` when the fields other than `breached` are `undefined`. -/
structure RefreshResult where
  breached : Bool
  session : Option SignedIn := none
deriving DecidableEq

/-- The end of `refreshSession`, once the current session has passed the checks. -/
def exchangeSession (client : Client) (current : Session) : Prog AuthIface RefreshResult := do
  let nextSession ← createSession crypto config client current.organizationId current.tenantId
    current.userId
  let revokedAt : Int ← await .now
  await (.replaceSession current.id nextSession.sessionId revokedAt)
  pure {
    breached := false
    session := some {
      organizationId := current.organizationId
      sessionId := nextSession.sessionId
      tenantId := current.tenantId
      tokens := nextSession.tokens
      userId := current.userId } }

def refreshSession (client : Client) (refreshToken : String) :
    Prog AuthIface RefreshResult := do
  let refreshTokenHash := crypto.sha256 refreshToken
  let current ← await (.findSessionByRefreshToken refreshTokenHash)
  match current with
  | none => do
      let revokedSession ← await (.findRevokedSession refreshTokenHash)
      match revokedSession with
      | some revokedSession => do
          let _ ← revokeAllSessionsForIdentity revokedSession.organizationId revokedSession.userId
          pure { breached := true }
      | none => pure { breached := false }
  | some current =>
      if current.revokedAt.isSome then pure { breached := false }
      else
        match current.refreshExpiresAt with
        | none => pure { breached := false }
        | some refreshExpiresAt => do
            let now : Int ← await .now
            if refreshExpiresAt < now then pure { breached := false }
            else exchangeSession crypto config client current

def revokeCurrentSession (sessionId : Nat) : Prog AuthIface Unit := do
  let revokedAt : Int ← await .now
  await (.revokeSession sessionId revokedAt)

def revokeAllSessions (organizationId userId : String) : Prog AuthIface Nat :=
  revokeAllSessionsForIdentity organizationId userId

def revokeSessionById (organizationId : String) (sessionId : Nat) (userId : String) :
    Prog AuthIface Nat := do
  let revokedAt : Int ← await .now
  await (.revokeSessionOf sessionId organizationId userId revokedAt)

/-! ## Signing in -/

def createNewDeviceAlert (client : Client) (organizationId userId : String) :
    Prog AuthIface Unit := do
  let latestSession ← await (.findLatestSession organizationId userId)
  match latestSession with
  | none => pure ()
  | some latestSession =>
      if latestSession.ipAddress ≠ client.ipAddress ∨ latestSession.userAgent ≠ client.userAgent then
        await .createLoginAlert
      else pure ()

structure LoginInput where
  client : Client := {}
  email : String
  organizationId : String
  password : String

inductive LoginResult
  | mfaRequired (challengeExpiresAt : Int) (challengeToken : String)
  | signedIn (session : SignedIn)
deriving DecidableEq

/-- `loginWithPassword` once the password has been checked. -/
def completeLogin (input : LoginInput) (membership : Membership) (user : User) :
    Prog AuthIface LoginResult := do
  createNewDeviceAlert input.client input.organizationId membership.userId
  if user.mfaEnabled then do
    let token : String ← await .randomToken
    let challengeToken := "mfa_" ++ token
    let now : Int ← await .now
    let challengeExpiresAt := now + config.AUTH_MFA_CHALLENGE_TTL_SECONDS * 1000
    await (.createMfaChallenge {
      expiresAt := challengeExpiresAt
      organizationId := input.organizationId
      tenantId := membership.tenantId
      tokenHash := crypto.sha256 challengeToken
      userId := membership.userId })
    pure (.mfaRequired challengeExpiresAt challengeToken)
  else do
    let session ← createSession crypto config input.client input.organizationId
      membership.tenantId membership.userId
    pure (.signedIn {
      organizationId := input.organizationId
      sessionId := session.sessionId
      tenantId := membership.tenantId
      tokens := session.tokens
      userId := membership.userId })

def loginWithPassword (input : LoginInput) : Prog AuthIface LoginResult := do
  let membership ← await (.findMembership input.organizationId input.email)
  match membership with
  | none => .throw (.message "INVALID_CREDENTIALS")
  | some (membership, user) =>
      if user.status = .SUSPENDED then .throw (.message "ACCOUNT_SUSPENDED")
      else
        let (isValid, needsRehash) := crypto.verifyPasswordHash input.password user.passwordHash
          config.AUTH_BCRYPT_SALT_ROUNDS
        if !isValid then .throw (.message "INVALID_CREDENTIALS")
        else if needsRehash then do
          let salt : String ← await .randomToken
          await (.updatePasswordHash membership.userId
            (crypto.hashPassword input.password salt config.AUTH_BCRYPT_SALT_ROUNDS))
          completeLogin crypto config input membership user
        else completeLogin crypto config input membership user

def hashRecoveryCode (code : String) : String := crypto.sha256 s!"recovery:{code}"

structure MfaInput where
  challengeToken : String
  client : Client := {}
  recoveryCode : Option String := none
  totpCode : Option String := none

/-- A string argument that is given and not empty. -/
def given (argument : Option String) : Option String := argument.filter (· ≠ "")

/-- Whether the one-time password of the input, if any, is right. -/
def verifyTotp (input : MfaInput) (mfaSecret : String) : Prog AuthIface Bool :=
  match given input.totpCode with
  | none => pure false
  | some totpCode => do
      let decryptedSecret ← Prog.ofExcept
        (crypto.decryptTotpSecret mfaSecret config.AUTH_MFA_ENCRYPTION_KEY)
      let now : Int ← await .now
      pure (crypto.verifyTotpCode totpCode decryptedSecret config.AUTH_MFA_CLOCK_SKEW_WINDOWS now)

/-- Use up the recovery code of the input, if any: whether there was one to use. -/
def redeemRecoveryCode (input : MfaInput) (userId : String) : Prog AuthIface Bool :=
  match given input.recoveryCode with
  | none => pure false
  | some code => do
      let recoveryCode ← await (.findRecoveryCode userId (hashRecoveryCode crypto code))
      match recoveryCode with
      | none => pure false
      | some recoveryCode => do
          let usedAt : Int ← await .now
          await (.useRecoveryCode recoveryCode.id usedAt)
          pure true

/-- The one-time password is tried first, and then the recovery code. -/
def verifyCode (input : MfaInput) (mfaSecret userId : String) : Prog AuthIface Bool := do
  let verified ← verifyTotp crypto config input mfaSecret
  if verified then pure true else redeemRecoveryCode crypto input userId

/-- The end of `verifyMfaChallenge`, once the code has been verified. -/
def completeMfaChallenge (input : MfaInput) (challenge : MfaChallenge) :
    Prog AuthIface SignedIn := do
  let consumedAt : Int ← await .now
  await (.consumeMfaChallenge challenge.id consumedAt)
  let createdSession ← createSession crypto config input.client challenge.organizationId
    challenge.tenantId challenge.userId
  pure {
    organizationId := challenge.organizationId
    sessionId := createdSession.sessionId
    tenantId := challenge.tenantId
    tokens := createdSession.tokens
    userId := challenge.userId }

/-- `verifyMfaChallenge` from an open challenge on. -/
def answerMfaChallenge (input : MfaInput) (challenge : MfaChallenge) :
    Prog AuthIface SignedIn := do
  let user ← await (.findUser challenge.userId)
  match given (user.bind (·.mfaSecret)) with
  | none => .throw (.message "MFA_NOT_CONFIGURED")
  | some mfaSecret => do
      let verified ← verifyCode crypto config input mfaSecret challenge.userId
      if !verified then .throw (.message "INVALID_MFA_CODE")
      else completeMfaChallenge crypto config input challenge

def verifyMfaChallenge (input : MfaInput) : Prog AuthIface SignedIn := do
  let challenge ← await (.findMfaChallenge (crypto.sha256 input.challengeToken))
  match challenge with
  | none => .throw (.message "INVALID_MFA_CHALLENGE")
  | some challenge =>
      if challenge.consumedAt.isSome then .throw (.message "MFA_CHALLENGE_EXPIRED")
      else do
        let now : Int ← await .now
        if challenge.expiresAt < now then .throw (.message "MFA_CHALLENGE_EXPIRED")
        else answerMfaChallenge crypto config input challenge

/-! ## API keys -/

structure GeneratedKey where
  hash : String
  key : String
  last4 : String
  keyPrefix : String

/-- `key.slice(-4)`. -/
def lastFour (key : String) : String := String.ofList (key.toList.drop (key.toList.length - 4))

def createApiKey (keyPrefix : String) : Prog AuthIface GeneratedKey := do
  let material : String ← await .randomToken
  let key := s!"{keyPrefix}_{material}"
  pure ⟨crypto.sha256 key, key, lastFour key, keyPrefix⟩

structure IssuedKey where
  id : Nat
  key : String
deriving DecidableEq

structure CreateKeyInput where
  label : String
  organizationId : String
  scopes : List String
  userId : String

def createTenantApiKey (input : CreateKeyInput) : Prog AuthIface IssuedKey := do
  let tenantId ← await (.findTenant input.organizationId)
  match given tenantId with
  | none => .throw (.message "TENANT_NOT_FOUND")
  | some tenantId => do
      let generated ← createApiKey crypto config.API_KEY_PREFIX
      let record : ApiKey ← await (.createApiKey {
        keyHash := generated.hash
        label := input.label
        last4 := generated.last4
        organizationId := input.organizationId
        keyPrefix := generated.keyPrefix
        scopes := input.scopes
        tenantId
        userId := input.userId })
      pure ⟨record.id, generated.key⟩

/-- A key, by its id and its owner. -/
structure KeyOf where
  id : Nat
  organizationId : String
  userId : String

def rotateTenantApiKey (input : KeyOf) : Prog AuthIface IssuedKey := do
  let current ← await (.findApiKey input.id input.organizationId input.userId)
  match current with
  | none => .throw (.message "API_KEY_NOT_FOUND")
  | some current => do
      let generated ← createApiKey crypto config.API_KEY_PREFIX
      let graceExpiresAt ← nowPlusHours config.API_AUTH_ROTATION_GRACE_HOURS
      let next : ApiKey ← await (.rotateApiKey current.id graceExpiresAt {
        keyHash := generated.hash
        label := current.label
        last4 := generated.last4
        organizationId := current.organizationId
        keyPrefix := current.keyPrefix
        rotatedFromId := some current.id
        scopes := current.scopes
        tenantId := current.tenantId
        userId := current.userId })
      pure ⟨next.id, generated.key⟩

def revokeTenantApiKey (input : KeyOf) : Prog AuthIface Unit := do
  let revokedAt : Int ← await .now
  await (.revokeApiKey input.id input.organizationId input.userId revokedAt)

structure Introspection where
  active : Bool
  apiKeyId : Option Nat
  scopes : List String
  tenantId : Option String
  userId : Option String
deriving DecidableEq

/-- The deadline is set and has passed. -/
def passed (deadline : Option Int) (now : Int) : Bool :=
  (deadline.map fun deadline => decide (deadline < now)).getD false

def ApiKey.revoked (k : ApiKey) : Bool := k.status = .REVOKED || k.revokedAt.isSome

def introspectApiKey (rawToken : String) : Prog AuthIface Introspection := do
  let apiKey ← await (.findApiKeyByHash (crypto.sha256 rawToken))
  match apiKey with
  | none => pure ⟨false, none, [], none, none⟩
  | some apiKey => do
      let now : Int ← await .now
      let expired := passed apiKey.expiresAt now || passed apiKey.graceExpiresAt now
      if expired || apiKey.revoked then pure ⟨false, some apiKey.id, [], none, none⟩
      else do
        let lastUsedAt : Int ← await .now
        await (.touchApiKey apiKey.id lastUsedAt)
        pure ⟨true, some apiKey.id, apiKey.scopes, some apiKey.tenantId, some apiKey.userId⟩

/-! ## Authentication -/

structure AuthenticatedContext where
  apiKeyId : Option Nat
  organizationId : String
  sessionId : Option Nat
  tenantId : String
  userId : String
deriving DecidableEq

def authenticateApiKey (apiKeyToken : String) :
    Prog AuthIface (Option AuthenticatedContext) := do
  let apiKey ← introspectApiKey crypto apiKeyToken
  match apiKey.active, given apiKey.userId, given apiKey.tenantId with
  | true, some userId, some tenantId => do
      let organization ← await (.findOrganization tenantId)
      match organization with
      | none => pure none
      | some organization => do
          let user ← await (.findUser userId)
          match user with
          | none => pure none
          | some user =>
              if user.status = .SUSPENDED then pure none
              else pure (some ⟨apiKey.apiKeyId, organization.id, none, tenantId, userId⟩)
  | _, _, _ => pure none

def authenticateSession (sessionToken : String) :
    Prog AuthIface (Option AuthenticatedContext) := do
  let session ← await (.findSessionByToken (crypto.sha256 sessionToken))
  match session with
  | none => pure none
  | some session =>
      if session.revokedAt.isSome then pure none
      else do
        let now : Int ← await .now
        if session.expiresAt < now then pure none
        else do
          let user ← await (.findUser session.userId)
          match user with
          | none => pure none
          | some user =>
              if user.status = .SUSPENDED then pure none
              else do
                let lastActivityAt : Int ← await .now
                await (.touchSession session.id lastActivityAt)
                pure (some
                  ⟨none, session.organizationId, some session.id, session.tenantId, session.userId⟩)

def authenticateRequest (apiKeyToken sessionToken : Option String) :
    Prog AuthIface (Option AuthenticatedContext) :=
  match given apiKeyToken, given sessionToken with
  | some apiKeyToken, _ => authenticateApiKey crypto apiKeyToken
  | none, some sessionToken => authenticateSession crypto sessionToken
  | none, none => pure none

/-! ## Suspension -/

def suspendUser (organizationId targetUserId : String) : Prog AuthIface Unit := do
  let before ← await (.findUser targetUserId)
  match before with
  | none => .throw (.message "USER_NOT_FOUND")
  | some _ => do
      let suspendedAt : Int ← await .now
      await (.suspendUser targetUserId suspendedAt)
      let _ ← await (.findTenant organizationId)
      await .createAuditLog

/-- What `POST /users/:userId/suspend` does once the actor may manage the target. -/
def suspend (organizationId targetUserId : String) : Prog AuthIface Unit := do
  suspendUser organizationId targetUserId
  let _ ← revokeAllSessions organizationId targetUserId
  let revokedAt : Int ← await .now
  await (.revokeApiKeys organizationId targetUserId revokedAt)

/-! ## Requests -/

inductive Request
  | login (input : LoginInput)
  | verifyMfa (input : MfaInput)
  | refresh (client : Client) (refreshToken : String)
  | revokeCurrent (sessionId : Nat)
  | revokeAll (organizationId userId : String)
  | revokeById (organizationId : String) (sessionId : Nat) (userId : String)
  | createKey (input : CreateKeyInput)
  | rotateKey (input : KeyOf)
  | revokeKey (input : KeyOf)
  | introspect (rawToken : String)
  | authenticate (apiKeyToken sessionToken : Option String)
  | suspend (organizationId targetUserId : String)

inductive Response
  | login (result : LoginResult)
  | verifyMfa (session : SignedIn)
  | refresh (result : RefreshResult)
  | issued (key : IssuedKey)
  | introspect (result : Introspection)
  | authenticate (context : Option AuthenticatedContext)
  /-- The number of rows revoked, or nothing. -/
  | done
deriving DecidableEq

def serveRequest : Request → Prog AuthIface Response
  | .login input => do
      let result ← loginWithPassword crypto config input
      pure (.login result)
  | .verifyMfa input => do
      let session ← verifyMfaChallenge crypto config input
      pure (.verifyMfa session)
  | .refresh client refreshToken => do
      let result ← refreshSession crypto config client refreshToken
      pure (.refresh result)
  | .revokeCurrent sessionId => do
      revokeCurrentSession sessionId
      pure .done
  | .revokeAll organizationId userId => do
      let _ ← revokeAllSessions organizationId userId
      pure .done
  | .revokeById organizationId sessionId userId => do
      let _ ← revokeSessionById organizationId sessionId userId
      pure .done
  | .createKey input => do
      let key ← createTenantApiKey crypto config input
      pure (.issued key)
  | .rotateKey input => do
      let key ← rotateTenantApiKey crypto config input
      pure (.issued key)
  | .revokeKey input => do
      revokeTenantApiKey input
      pure .done
  | .introspect rawToken => do
      let result ← introspectApiKey crypto rawToken
      pure (.introspect result)
  | .authenticate apiKeyToken sessionToken => do
      let context ← authenticateRequest crypto apiKeyToken sessionToken
      pure (.authenticate context)
  | .suspend organizationId targetUserId => do
      suspend organizationId targetUserId
      pure .done

/-- The service: requests arrive at any time, and each awaits its statements. -/
def service : System AuthIface Request Store Response where
  Choice := Choice
  handle o choice store := some (store.handle o choice)
  program := serveRequest crypto config
  Env := Request
  env request store _ := some { store, spawn := [request] }

end Service

/-! ## The statements each function awaits -/

/-- The statements that read a secret in order to exchange it, or that exchange one. -/
def AuthOp.isExchange : AuthOp → Bool
  | .findSessionByRefreshToken _ | .findMfaChallenge _ | .findRecoveryCode ..
  | .replaceSession .. | .consumeMfaChallenge .. | .useRecoveryCode .. | .rotateApiKey .. => true
  | _ => false

/-- The statements that create a session, a challenge or a key. -/
def AuthOp.isCreation : AuthOp → Bool
  | .createSession _ | .createMfaChallenge _ | .createApiKey _ => true
  | _ => false

section Awaited

variable {crypto : Crypto} {config : ApiConfig} {A : AuthOp → Prop} {α : Type}

theorem within_await {o : AuthOp} (within : A o) : (await o).Within A := Prog.Within.perform within

theorem within_await_bind {o : AuthOp} {f : o.Result → Prog AuthIface α} (within : A o)
    (rest : ∀ r, (f r).Within A) : (await o >>= f).Within A :=
  (within_await within).bind rest

section

variable (plain : ∀ o : AuthOp, o.isExchange = false → o.isCreation = false → A o)

include plain

theorem createSession_within {client : Client} {organizationId tenantId userId : String}
    (create : ∀ data : SessionData, data.organizationId = organizationId →
      data.tenantId = tenantId → data.userId = userId → A (.createSession data)) :
    (createSession crypto config client organizationId tenantId userId).Within A := by
  have random {f : String → String} :
      (await .randomToken >>= fun token => pure (f token) : Prog AuthIface String).Within A :=
    within_await_bind (plain _ rfl rfl) fun _ => trivial
  have later {f : Int → Int} :
      (await .now >>= fun now => pure (f now) : Prog AuthIface Int).Within A :=
    within_await_bind (plain _ rfl rfl) fun _ => trivial
  refine Prog.Within.bind random fun _ => ?_
  refine Prog.Within.bind random fun _ => ?_
  refine within_await_bind (plain _ rfl rfl) fun _ => ?_
  refine Prog.Within.bind later fun _ => ?_
  refine Prog.Within.bind later fun _ => ?_
  exact within_await_bind (create _ rfl rfl rfl) fun _ => trivial

theorem completeLogin_within {input : LoginInput} {membership : Membership} {user : User}
    (create : ∀ data : SessionData, data.organizationId = input.organizationId →
      data.tenantId = membership.tenantId → data.userId = membership.userId →
        A (.createSession data))
    (challenge : ∀ data : ChallengeData, data.organizationId = input.organizationId →
      data.tenantId = membership.tenantId → data.userId = membership.userId →
        A (.createMfaChallenge data)) :
    (completeLogin crypto config input membership user).Within A := by
  have alert {userId : String} :
      (createNewDeviceAlert input.client input.organizationId userId).Within A := by
    refine within_await_bind (plain _ rfl rfl) fun latestSession => ?_
    cases latestSession with
    | none => trivial
    | some latestSession => exact Prog.Within.ite (within_await (plain _ rfl rfl)) trivial
  refine Prog.Within.bind alert fun _ => ?_
  split
  · refine within_await_bind (plain _ rfl rfl) fun _ => ?_
    refine within_await_bind (plain _ rfl rfl) fun _ => ?_
    exact within_await_bind (challenge _ rfl rfl rfl) fun _ => trivial
  · exact Prog.Within.bind (createSession_within plain create) fun _ => trivial

theorem loginMember_within {input : LoginInput} {membership : Membership} {user : User}
    (complete : (completeLogin crypto config input membership user).Within A)
    {isValid needsRehash : Bool} {hash : String → String} :
    ((if !isValid then .throw (.message "INVALID_CREDENTIALS")
      else if needsRehash then do
        let salt : String ← await .randomToken
        await (.updatePasswordHash membership.userId (hash salt))
        completeLogin crypto config input membership user
      else completeLogin crypto config input membership user) : Prog AuthIface LoginResult).Within
        A := by
  refine Prog.Within.ite trivial (Prog.Within.ite ?_ complete)
  refine within_await_bind (plain _ rfl rfl) fun _ => ?_
  exact within_await_bind (plain _ rfl rfl) fun _ => complete

theorem loginWithPassword_within {input : LoginInput}
    (create : ∀ data, A (.createSession data)) (challenge : ∀ data, A (.createMfaChallenge data)) :
    (loginWithPassword crypto config input).Within A := by
  refine within_await_bind (plain _ rfl rfl) fun membership => ?_
  rcases membership with _ | ⟨membership, user⟩
  · trivial
  · refine Prog.Within.ite trivial (loginMember_within plain ?_)
    exact completeLogin_within plain (fun data _ _ _ => create data) fun data _ _ _ => challenge data

theorem verifyCode_within {input : MfaInput} {mfaSecret userId : String}
    (find : ∀ userId codeHash, A (.findRecoveryCode userId codeHash))
    (use : ∀ id usedAt, A (.useRecoveryCode id usedAt)) :
    (verifyCode crypto config input mfaSecret userId).Within A := by
  refine Prog.Within.bind ?_ fun verified => Prog.Within.ite trivial ?_
  · unfold verifyTotp
    split
    · trivial
    · exact Prog.Within.bind Prog.Within.ofExcept fun _ =>
        within_await_bind (plain _ rfl rfl) fun _ => trivial
  · unfold redeemRecoveryCode
    split
    · trivial
    · refine within_await_bind (find _ _) fun recoveryCode => ?_
      cases recoveryCode with
      | none => trivial
      | some recoveryCode =>
          refine within_await_bind (plain _ rfl rfl) fun _ => ?_
          exact within_await_bind (use _ _) fun _ => trivial

theorem createTenantApiKey_within {input : CreateKeyInput}
    (create : ∀ data : ApiKeyData, data.organizationId = input.organizationId →
      data.userId = input.userId → A (.createApiKey data)) :
    (createTenantApiKey crypto config input).Within A := by
  refine within_await_bind (plain _ rfl rfl) fun tenantId => ?_
  split
  · trivial
  · refine Prog.Within.bind (within_await_bind (plain _ rfl rfl) fun _ => trivial) fun _ => ?_
    exact within_await_bind (create _ rfl rfl) fun _ => trivial

theorem introspectApiKey_within {rawToken : String} :
    (introspectApiKey crypto rawToken).Within A := by
  refine within_await_bind (plain _ rfl rfl) fun apiKey => ?_
  cases apiKey with
  | none => trivial
  | some apiKey =>
      refine within_await_bind (plain _ rfl rfl) fun now => ?_
      dsimp only
      split
      · trivial
      · refine within_await_bind (plain _ rfl rfl) fun _ => ?_
        exact within_await_bind (plain _ rfl rfl) fun _ => trivial

theorem authenticateRequest_within {apiKeyToken sessionToken : Option String} :
    (authenticateRequest crypto apiKeyToken sessionToken).Within A := by
  unfold authenticateRequest
  split
  · refine Prog.Within.bind (introspectApiKey_within plain) fun apiKey => ?_
    split
    · refine within_await_bind (plain _ rfl rfl) fun organization => ?_
      cases organization with
      | none => trivial
      | some organization =>
          refine within_await_bind (plain _ rfl rfl) fun user => ?_
          cases user with
          | none => trivial
          | some user =>
              dsimp only
              split <;> trivial
    · trivial
  · refine within_await_bind (plain _ rfl rfl) fun session => ?_
    cases session with
    | none => trivial
    | some session =>
        dsimp only
        split
        · trivial
        · refine within_await_bind (plain _ rfl rfl) fun now => ?_
          split
          · trivial
          · refine within_await_bind (plain _ rfl rfl) fun user => ?_
            cases user with
            | none => trivial
            | some user =>
                dsimp only
                split
                · trivial
                · refine within_await_bind (plain _ rfl rfl) fun _ => ?_
                  exact within_await_bind (plain _ rfl rfl) fun _ => trivial
  · trivial

theorem suspend_within {organizationId targetUserId : String} :
    (suspend organizationId targetUserId).Within A := by
  have suspended : (suspendUser organizationId targetUserId).Within A := by
    refine within_await_bind (plain _ rfl rfl) fun before => ?_
    cases before with
    | none => trivial
    | some _ =>
        refine within_await_bind (plain _ rfl rfl) fun _ => ?_
        refine within_await_bind (plain _ rfl rfl) fun _ => ?_
        refine within_await_bind (plain _ rfl rfl) fun _ => ?_
        exact within_await (plain _ rfl rfl)
  refine Prog.Within.bind suspended fun _ => ?_
  refine Prog.Within.bind
    (within_await_bind (plain _ rfl rfl) fun _ => within_await (plain _ rfl rfl)) fun _ => ?_
  exact within_await_bind (plain _ rfl rfl) fun _ => within_await (plain _ rfl rfl)

end

/-- The requests that exchange secrets; all others await plain statements only. -/
def Request.isExchange : Request → Bool
  | .verifyMfa _ | .refresh .. | .rotateKey _ => true
  | _ => false

theorem serveRequest_within (plain : ∀ o : AuthOp, o.isExchange = false → A o) {request : Request}
    (other : request.isExchange = false) : (serveRequest crypto config request).Within A := by
  have uncreated : ∀ o : AuthOp, o.isExchange = false → o.isCreation = false → A o :=
    fun o exchange _ => plain o exchange
  cases request with
  | verifyMfa | refresh | rotateKey => cases other
  | login input =>
      refine Prog.Within.bind (loginWithPassword_within uncreated ?_ ?_) fun _ => trivial
      · exact fun _ => plain _ rfl
      · exact fun _ => plain _ rfl
  | createKey input =>
      refine Prog.Within.bind (createTenantApiKey_within uncreated ?_) fun _ => trivial
      exact fun _ _ _ => plain _ rfl
  | introspect rawToken =>
      exact Prog.Within.bind (introspectApiKey_within uncreated) fun _ => trivial
  | authenticate apiKeyToken sessionToken =>
      exact Prog.Within.bind (authenticateRequest_within uncreated) fun _ => trivial
  | suspend organizationId targetUserId =>
      exact Prog.Within.bind (suspend_within uncreated) fun _ => trivial
  | revokeCurrent | revokeAll | revokeById | revokeKey =>
      refine Prog.Within.bind ?_ fun _ => trivial
      exact within_await_bind (plain _ rfl) fun _ => within_await (plain _ rfl)

end Awaited

/-! ## Executions -/

section Executions

variable {crypto : Crypto} {config : ApiConfig} {α β : Type} {s s' : Store}

/-- A sequence that returns has gone on from what its first part returned. -/
theorem exec_bind_ok {p : Prog AuthIface α} {f : α → Prog AuthIface β} {b : β}
    (ran : (service crypto config).Exec (p >>= f) s (.ok b) s') :
    ∃ a s₁, (service crypto config).Exec p s (.ok a) s₁ ∧
      (service crypto config).Exec (f a) s₁ (.ok b) s' := by
  rcases System.exec_bind.mp ran with ⟨e, ended, _⟩ | rest
  · cases ended
  · exact rest

/-- A returning program that starts with a statement has gone on from its answer. -/
theorem exec_await_ok {o : AuthOp} {f : o.Result → Prog AuthIface β} {b : β}
    (ran : (service crypto config).Exec (await o >>= f) s (.ok b) s') :
    ∃ r choice s₁, s.handle o choice = (.ok r, s₁) ∧
      (service crypto config).Exec (f r) s₁ (.ok b) s' := by
  rcases System.exec_performBind.mp ran with ⟨e, _, ended, _⟩ | ⟨r, choice, s₁, answered, rest⟩
  · cases ended
  · exact ⟨r, choice, s₁, Option.some.inj answered, rest⟩

/-- A program that starts with a statement fails there without effect, or goes on from its
answer. -/
theorem exec_await {o : AuthOp} {f : o.Result → Prog AuthIface β} {x : Except AuthError β}
    (ran : (service crypto config).Exec (await o >>= f) s x s') :
    ((∃ e, x = .error e) ∧ s' = s) ∨ ∃ r choice s₁, s.handle o choice = (.ok r, s₁) ∧
      (service crypto config).Exec (f r) s₁ x s' := by
  rcases System.exec_performBind.mp ran with ⟨e, _, ended, failed⟩ | ⟨r, choice, s₁, answered, rest⟩
  · exact .inl ⟨⟨e, ended⟩, Store.handle_error (Option.some.inj failed)⟩
  · exact .inr ⟨r, choice, s₁, Option.some.inj answered, rest⟩

theorem exec_pure_ok {a b : β}
    (ran : (service crypto config).Exec (Pure.pure a : Prog AuthIface β) s (.ok b) s') :
    b = a ∧ s' = s := by
  obtain ⟨same, kept⟩ := System.exec_pure.mp ran
  exact ⟨Except.ok.inj same, kept⟩

/-- A session that `createSession` has made for a user. -/
structure NewSession (crypto : Crypto) (organizationId tenantId userId : String)
    (created : CreatedSession) (new : Session) : Prop where
  id : new.id = created.sessionId
  organizationId : new.organizationId = organizationId
  tenantId : new.tenantId = tenantId
  userId : new.userId = userId
  refreshTokenHash : new.refreshTokenHash = some (crypto.sha256 created.tokens.refreshToken)
  unrevoked : new.revokedAt = none

/-- `createSession` appends one session, whose tokens it returns. -/
theorem createSession_ok {client : Client} {organizationId tenantId userId : String}
    {created : CreatedSession}
    (ran : (service crypto config).Exec
      (createSession crypto config client organizationId tenantId userId) s (.ok created) s') :
    ∃ new sessions clock, NewSession crypto organizationId tenantId userId created new ∧
      new.id = s.ids ∧ s.sessions.insert new = some sessions ∧ s.clock ≤ clock ∧
      s' = { s with sessions, clock, ids := s.ids + 1 } := by
  obtain ⟨accessToken, s₁, ran₁, ran⟩ := exec_bind_ok ran
  obtain ⟨_, _, _, random₁, ran₁⟩ := exec_await_ok ran₁
  obtain ⟨rfl, rfl⟩ := exec_pure_ok ran₁
  cases Store.handle_randomToken random₁
  obtain ⟨refreshToken, s₂, ran₂, ran⟩ := exec_bind_ok ran
  obtain ⟨_, _, _, random₂, ran₂⟩ := exec_await_ok ran₂
  obtain ⟨rfl, rfl⟩ := exec_pure_ok ran₂
  cases Store.handle_randomToken random₂
  obtain ⟨csrfToken, _, _, random₃, ran⟩ := exec_await_ok ran
  cases Store.handle_randomToken random₃
  obtain ⟨expiresAt, s₃, ran₃, ran⟩ := exec_bind_ok ran
  obtain ⟨_, _, _, read₁, ran₃⟩ := exec_await_ok ran₃
  obtain ⟨rfl, rfl⟩ := exec_pure_ok ran₃
  obtain ⟨rfl, later₁⟩ := Store.handle_now read₁
  obtain ⟨refreshExpiresAt, s₄, ran₄, ran⟩ := exec_bind_ok ran
  obtain ⟨_, _, _, read₂, ran₄⟩ := exec_await_ok ran₄
  obtain ⟨rfl, rfl⟩ := exec_pure_ok ran₄
  obtain ⟨rfl, later₂⟩ := Store.handle_now read₂
  obtain ⟨row, _, _, inserts, ran⟩ := exec_await_ok ran
  obtain ⟨sessions, inserted, rfl, rfl⟩ := Store.handle_createSession inserts
  obtain ⟨rfl, rfl⟩ := exec_pure_ok ran
  exact ⟨_, sessions, _, ⟨rfl, rfl, rfl, rfl, rfl, rfl⟩, rfl, inserted, later₁.trans later₂, rfl⟩

end Executions

/-! ## Concrete runs -/

/-- Hashes that are the texts themselves, and a password check that compares them. -/
def plainCrypto : Crypto where
  sha256 text := text
  verifyPasswordHash password storedHash _ := (password == storedHash, false)
  hashPassword password _ _ := password
  decryptTotpSecret payload _ := .ok payload
  verifyTotpCode code secret _ _ := code == secret

def plainConfig : ApiConfig where
  AUTH_MFA_ENCRYPTION_KEY := "key"

/-- One member of one organization, without sessions. -/
def memberStore : Store where
  clock := 0
  ids := 0
  organizations := [⟨"org", "tenant", "slug"⟩]
  users := ⟨[{ id := "user", email := "user@org", passwordHash := "secret" }], List.pairwise_singleton _ _⟩
  memberships := [⟨"tenant", "org", "user", true⟩]
  sessions := .empty
  challenges := .empty
  recoveryCodes := .empty
  apiKeys := .empty

/-- `n` operations that go well and take no time. -/
def quiet (n : Nat) : List Choice := List.replicate n {}

end Auth
