import BirthHub.Data.Table
import BirthHub.Effect.Serial

/-!
# The authentication database

The rows that the authentication service keeps (sessions, multi-factor challenges and
recovery codes, API keys), the statements it awaits on them, and what each statement
does. A statement is atomic and may fail without effect. Ids made by `cuid()` are
numbered in the order in which they are made, and times are milliseconds.
-/

namespace Auth

open Data Effect

/-! ## Rows -/

structure Session where
  id : Nat
  tenantId : String
  /-- The hash of the access token. -/
  token : String
  refreshTokenHash : Option String
  csrfToken : Option String
  organizationId : String
  userId : String
  expiresAt : Int
  refreshExpiresAt : Option Int
  revokedAt : Option Int := none
  replacedBySessionId : Option Nat := none
  lastActivityAt : Option Int := none
  ipAddress : Option String
  userAgent : Option String
deriving DecidableEq

structure MfaChallenge where
  id : Nat
  tenantId : String
  organizationId : String
  userId : String
  tokenHash : String
  expiresAt : Int
  consumedAt : Option Int := none
deriving DecidableEq

structure MfaRecoveryCode where
  id : Nat
  tenantId : String
  userId : String
  codeHash : String
  usedAt : Option Int := none
deriving DecidableEq

inductive ApiKeyStatus
  | ACTIVE
  | REVOKED
deriving DecidableEq, Repr

structure ApiKey where
  id : Nat
  tenantId : String
  organizationId : String
  userId : String
  label : String
  /-- `prefix`. -/
  keyPrefix : String
  keyHash : String
  last4 : String
  scopes : List String
  status : ApiKeyStatus := .ACTIVE
  expiresAt : Option Int := none
  graceExpiresAt : Option Int := none
  rotatedFromId : Option Nat := none
  revokedAt : Option Int := none
  lastUsedAt : Option Int := none
deriving DecidableEq

inductive UserStatus
  | ACTIVE
  | SUSPENDED
deriving DecidableEq, Repr

structure User where
  id : String
  email : String
  passwordHash : String
  status : UserStatus := .ACTIVE
  suspendedAt : Option Int := none
  mfaEnabled : Bool := false
  mfaSecret : Option String := none
deriving DecidableEq

structure Membership where
  tenantId : String
  organizationId : String
  userId : String
  /-- `status` is `ACTIVE`. -/
  active : Bool
deriving DecidableEq

structure Organization where
  id : String
  tenantId : String
  slug : String
deriving DecidableEq

/-! ### Unique values -/

inductive SessionKey
  | id (id : Nat)
  | token (hash : String)
  | refreshTokenHash (hash : String)
deriving DecidableEq

instance : Schema Session where
  Key := SessionKey
  keys s := .id s.id :: .token s.token :: (s.refreshTokenHash.map SessionKey.refreshTokenHash).toList

inductive ChallengeKey
  | id (id : Nat)
  | tokenHash (hash : String)
deriving DecidableEq

instance : Schema MfaChallenge where
  Key := ChallengeKey
  keys c := [.id c.id, .tokenHash c.tokenHash]

inductive RecoveryCodeKey
  | id (id : Nat)
  | code (userId codeHash : String)
deriving DecidableEq

instance : Schema MfaRecoveryCode where
  Key := RecoveryCodeKey
  keys c := [.id c.id, .code c.userId c.codeHash]

inductive ApiKeyKey
  | id (id : Nat)
  | keyHash (hash : String)
deriving DecidableEq

instance : Schema ApiKey where
  Key := ApiKeyKey
  keys k := [.id k.id, .keyHash k.keyHash]

inductive UserKey
  | id (id : String)
  | email (email : String)
deriving DecidableEq

instance : Schema User where
  Key := UserKey
  keys u := [.id u.id, .email u.email]

section Keys

/-! Which row holds a unique value. -/

theorem Session.mem_id {s : Session} {id : Nat} :
    (SessionKey.id id : Schema.Key Session) ∈ Schema.keys s ↔ s.id = id := by
  show SessionKey.id id ∈ SessionKey.id s.id :: SessionKey.token s.token ::
    (s.refreshTokenHash.map SessionKey.refreshTokenHash).toList ↔ _
  simp [eq_comm]

theorem Session.mem_refreshTokenHash {s : Session} {hash : String} :
    (SessionKey.refreshTokenHash hash : Schema.Key Session) ∈ Schema.keys s ↔
      s.refreshTokenHash = some hash := by
  show SessionKey.refreshTokenHash hash ∈ SessionKey.id s.id :: SessionKey.token s.token ::
    (s.refreshTokenHash.map SessionKey.refreshTokenHash).toList ↔ _
  simp

theorem MfaChallenge.mem_id {c : MfaChallenge} {id : Nat} :
    (ChallengeKey.id id : Schema.Key MfaChallenge) ∈ Schema.keys c ↔ c.id = id := by
  show ChallengeKey.id id ∈ [ChallengeKey.id c.id, .tokenHash c.tokenHash] ↔ _
  simp [eq_comm]

theorem MfaChallenge.mem_tokenHash {c : MfaChallenge} {hash : String} :
    (ChallengeKey.tokenHash hash : Schema.Key MfaChallenge) ∈ Schema.keys c ↔ c.tokenHash = hash := by
  show ChallengeKey.tokenHash hash ∈ [ChallengeKey.id c.id, .tokenHash c.tokenHash] ↔ _
  simp [eq_comm]

theorem MfaRecoveryCode.mem_id {c : MfaRecoveryCode} {id : Nat} :
    (RecoveryCodeKey.id id : Schema.Key MfaRecoveryCode) ∈ Schema.keys c ↔ c.id = id := by
  show RecoveryCodeKey.id id ∈ [RecoveryCodeKey.id c.id, .code c.userId c.codeHash] ↔ _
  simp [eq_comm]

theorem MfaRecoveryCode.mem_code {c : MfaRecoveryCode} {userId codeHash : String} :
    (RecoveryCodeKey.code userId codeHash : Schema.Key MfaRecoveryCode) ∈ Schema.keys c ↔
      c.userId = userId ∧ c.codeHash = codeHash := by
  show RecoveryCodeKey.code userId codeHash ∈ [RecoveryCodeKey.id c.id, .code c.userId c.codeHash] ↔ _
  simp [eq_comm]

end Keys

/-! ## Statements -/

/-- The error of a failed call: an `Error` with a message, or one of the database. -/
inductive AuthError
  | message (text : String)
  | database (code : String)
deriving DecidableEq, Repr

instance : Inhabited AuthError := ⟨.database ""⟩

/-- `unique constraint failed`. -/
def uniqueViolation : AuthError := .database "P2002"

/-- `record to update not found`. -/
def recordNotFound : AuthError := .database "P2025"

/-- What a statement that creates a session is given. -/
structure SessionData where
  csrfToken : String
  expiresAt : Int
  ipAddress : Option String
  organizationId : String
  refreshExpiresAt : Int
  refreshTokenHash : String
  tenantId : String
  token : String
  userAgent : Option String
  userId : String

structure ChallengeData where
  expiresAt : Int
  organizationId : String
  tenantId : String
  tokenHash : String
  userId : String

structure ApiKeyData where
  keyHash : String
  label : String
  last4 : String
  organizationId : String
  keyPrefix : String
  rotatedFromId : Option Nat := none
  scopes : List String
  tenantId : String
  userId : String

inductive AuthOp
  /-- `Date.now()`, which does not fail. -/
  | now
  /-- `randomBytes`, which does not fail. -/
  | randomToken
  | findOrganization (reference : String)
  /-- The tenant of the organization with this id or tenant id. -/
  | findTenant (reference : String)
  | findMembership (organizationId email : String)
  | findUser (id : String)
  | updatePasswordHash (userId hash : String)
  | suspendUser (userId : String) (suspendedAt : Int)
  | createAuditLog
  | findLatestSession (organizationId userId : String)
  | createLoginAlert
  | createSession (data : SessionData)
  | findSessionByToken (hash : String)
  | findSessionByRefreshToken (hash : String)
  /-- A revoked session with this hash. -/
  | findRevokedSession (hash : String)
  | replaceSession (id next : Nat) (revokedAt : Int)
  | revokeSession (id : Nat) (revokedAt : Int)
  /-- The sessions of the user in the organization that are not revoked. -/
  | revokeSessions (organizationId userId : String) (revokedAt : Int)
  | revokeSessionOf (id : Nat) (organizationId userId : String) (revokedAt : Int)
  | touchSession (id : Nat) (lastActivityAt : Int)
  | createMfaChallenge (data : ChallengeData)
  | findMfaChallenge (tokenHash : String)
  | consumeMfaChallenge (id : Nat) (consumedAt : Int)
  /-- An unused code of the user with this hash. -/
  | findRecoveryCode (userId codeHash : String)
  | useRecoveryCode (id : Nat) (usedAt : Int)
  | createApiKey (data : ApiKeyData)
  | findApiKey (id : Nat) (organizationId userId : String)
  | findApiKeyByHash (keyHash : String)
  | touchApiKey (id : Nat) (lastUsedAt : Int)
  /-- The transaction that puts a key in its grace period and creates its successor. -/
  | rotateApiKey (id : Nat) (graceExpiresAt : Int) (next : ApiKeyData)
  | revokeApiKey (id : Nat) (organizationId userId : String) (revokedAt : Int)
  | revokeApiKeys (organizationId userId : String) (revokedAt : Int)

def AuthOp.Result : AuthOp → Type
  | .now => Int
  | .randomToken => String
  | .findOrganization _ => Option Organization
  | .findTenant _ => Option String
  | .findMembership .. => Option (Membership × User)
  | .findUser _ => Option User
  | .findLatestSession .. => Option Session
  | .createSession _ => Session
  | .findSessionByToken _ => Option Session
  | .findSessionByRefreshToken _ => Option Session
  | .findRevokedSession _ => Option Session
  | .revokeSessions .. => Nat
  | .revokeSessionOf .. => Nat
  | .findMfaChallenge _ => Option MfaChallenge
  | .findRecoveryCode .. => Option MfaRecoveryCode
  | .createApiKey _ => ApiKey
  | .findApiKey .. => Option ApiKey
  | .findApiKeyByHash _ => Option ApiKey
  | .rotateApiKey .. => ApiKey
  | .updatePasswordHash .. | .suspendUser .. | .createAuditLog | .createLoginAlert
  | .replaceSession .. | .revokeSession .. | .touchSession .. | .createMfaChallenge _
  | .consumeMfaChallenge .. | .useRecoveryCode .. | .touchApiKey .. | .revokeApiKey ..
  | .revokeApiKeys .. => Unit

abbrev AuthIface : Iface where
  Op := AuthOp
  Res := AuthOp.Result
  Err := AuthError

def await (o : AuthOp) : Prog AuthIface o.Result := Prog.perform (I := AuthIface) o

/-! ## The database -/

structure Store where
  clock : Int
  /-- The number of ids made so far. -/
  ids : Nat
  organizations : List Organization
  users : Table User
  memberships : List Membership
  sessions : Table Session
  challenges : Table MfaChallenge
  recoveryCodes : Table MfaRecoveryCode
  apiKeys : Table ApiKey

/-- What the outside decides about one operation. -/
structure Choice where
  /-- The operation fails without effect. -/
  fault : Option AuthError := none
  /-- How far the clock moves on. -/
  tick : Nat := 0
  /-- What the random source yields. -/
  token : String := ""

def Session.isOf (s : Session) (organizationId userId : String) : Bool :=
  s.organizationId = organizationId ∧ s.userId = userId

def ApiKey.isOf (k : ApiKey) (organizationId userId : String) : Bool :=
  k.organizationId = organizationId ∧ k.userId = userId

/-- The row created from `data`, with the defaults of its columns. -/
def SessionData.row (data : SessionData) (id : Nat) : Session where
  id := id
  tenantId := data.tenantId
  token := data.token
  refreshTokenHash := some data.refreshTokenHash
  csrfToken := some data.csrfToken
  organizationId := data.organizationId
  userId := data.userId
  expiresAt := data.expiresAt
  refreshExpiresAt := some data.refreshExpiresAt
  ipAddress := data.ipAddress
  userAgent := data.userAgent

def ChallengeData.row (data : ChallengeData) (id : Nat) : MfaChallenge where
  id := id
  tenantId := data.tenantId
  organizationId := data.organizationId
  userId := data.userId
  tokenHash := data.tokenHash
  expiresAt := data.expiresAt

def ApiKeyData.row (data : ApiKeyData) (id : Nat) : ApiKey where
  id := id
  tenantId := data.tenantId
  organizationId := data.organizationId
  userId := data.userId
  label := data.label
  keyPrefix := data.keyPrefix
  keyHash := data.keyHash
  last4 := data.last4
  scopes := data.scopes
  rotatedFromId := data.rotatedFromId

namespace Store

variable (store : Store)

def updateSessions (p : Session → Bool) (revokedAt : Int) : Store :=
  { store with
    sessions := store.sessions.update p (fun s => { s with revokedAt := some revokedAt })
      fun _ => rfl }

def updateApiKeys (p : ApiKey → Bool) (revokedAt : Int) : Store :=
  { store with
    apiKeys := store.apiKeys.update p
      (fun k => { k with revokedAt := some revokedAt, status := .REVOKED }) fun _ => rfl }

/-- A key put in its grace period. -/
def graceApiKey (id : Nat) (graceExpiresAt : Int) : Table ApiKey :=
  store.apiKeys.update (·.id = id)
    (fun k => { k with graceExpiresAt := some graceExpiresAt, revokedAt := none, status := .ACTIVE })
    fun _ => rfl

/-- An `update` by a unique value: `recordNotFound` when no row holds it. -/
def updating {α : Type} (found : Option α) (store' : Store) : Except AuthError Unit × Store :=
  match found with
  | some _ => (.ok (), store')
  | none => (.error recordNotFound, store)

/-- The result of an operation that does not fail by `fault`. -/
def perform (choice : Choice) : (o : AuthOp) → AuthIface.Answer o × Store
  | .now =>
      let now : Int := store.clock + choice.tick
      (.ok now, { store with clock := now })
  | .randomToken => (.ok choice.token, store)
  | .findOrganization reference =>
      (.ok (store.organizations.find? fun o =>
        o.id = reference ∨ o.slug = reference ∨ o.tenantId = reference), store)
  | .findTenant reference =>
      (.ok ((store.organizations.find? fun o =>
        o.id = reference ∨ o.tenantId = reference).map (·.tenantId)), store)
  | .findMembership organizationId email =>
      (.ok (store.memberships.findSome? fun m =>
        if m.organizationId = organizationId ∧ m.active then
          ((store.users.get (.id m.userId)).filter (·.email = email)).map (m, ·)
        else none), store)
  | .findUser id => (.ok (store.users.get (.id id)), store)
  | .updatePasswordHash userId hash =>
      store.updating (store.users.get (.id userId))
        { store with
          users := store.users.update (·.id = userId)
            (fun u => { u with passwordHash := hash }) fun _ => rfl }
  | .suspendUser userId suspendedAt =>
      store.updating (store.users.get (.id userId))
        { store with
          users := store.users.update (·.id = userId)
            (fun u => { u with status := .SUSPENDED, suspendedAt := some suspendedAt })
            fun _ => rfl }
  | .createAuditLog => (.ok (), store)
  | .findLatestSession organizationId userId =>
      (.ok (store.sessions.rows.reverse.find? (·.isOf organizationId userId)), store)
  | .createLoginAlert => (.ok (), store)
  | .createSession data =>
      match store.sessions.insert (data.row store.ids) with
      | some sessions => (.ok (data.row store.ids), { store with sessions, ids := store.ids + 1 })
      | none => (.error uniqueViolation, store)
  | .findSessionByToken hash => (.ok (store.sessions.get (.token hash)), store)
  | .findSessionByRefreshToken hash => (.ok (store.sessions.get (.refreshTokenHash hash)), store)
  | .findRevokedSession hash =>
      (.ok (store.sessions.rows.find? fun s =>
        s.refreshTokenHash = some hash ∧ s.revokedAt.isSome), store)
  | .replaceSession id next revokedAt =>
      store.updating (store.sessions.get (.id id))
        { store with
          sessions := store.sessions.update (·.id = id)
            (fun s => { s with replacedBySessionId := some next, revokedAt := some revokedAt })
            fun _ => rfl }
  | .revokeSession id revokedAt =>
      store.updating (store.sessions.get (.id id)) (store.updateSessions (·.id = id) revokedAt)
  | .revokeSessions organizationId userId revokedAt =>
      let p := fun s : Session => s.isOf organizationId userId && s.revokedAt.isNone
      (.ok (store.sessions.rows.countP p), store.updateSessions p revokedAt)
  | .revokeSessionOf id organizationId userId revokedAt =>
      let p := fun s : Session => s.id = id && s.isOf organizationId userId
      (.ok (store.sessions.rows.countP p), store.updateSessions p revokedAt)
  | .touchSession id lastActivityAt =>
      store.updating (store.sessions.get (.id id))
        { store with
          sessions := store.sessions.update (·.id = id)
            (fun s => { s with lastActivityAt := some lastActivityAt }) fun _ => rfl }
  | .createMfaChallenge data =>
      match store.challenges.insert (data.row store.ids) with
      | some challenges => (.ok (), { store with challenges, ids := store.ids + 1 })
      | none => (.error uniqueViolation, store)
  | .findMfaChallenge tokenHash => (.ok (store.challenges.get (.tokenHash tokenHash)), store)
  | .consumeMfaChallenge id consumedAt =>
      store.updating (store.challenges.get (.id id))
        { store with
          challenges := store.challenges.update (·.id = id)
            (fun c => { c with consumedAt := some consumedAt }) fun _ => rfl }
  | .findRecoveryCode userId codeHash =>
      (.ok ((store.recoveryCodes.get (.code userId codeHash)).filter (·.usedAt.isNone)), store)
  | .useRecoveryCode id usedAt =>
      store.updating (store.recoveryCodes.get (.id id))
        { store with
          recoveryCodes := store.recoveryCodes.update (·.id = id)
            (fun c => { c with usedAt := some usedAt }) fun _ => rfl }
  | .createApiKey data =>
      match store.apiKeys.insert (data.row store.ids) with
      | some apiKeys => (.ok (data.row store.ids), { store with apiKeys, ids := store.ids + 1 })
      | none => (.error uniqueViolation, store)
  | .findApiKey id organizationId userId =>
      (.ok ((store.apiKeys.get (.id id)).filter (·.isOf organizationId userId)), store)
  | .findApiKeyByHash keyHash => (.ok (store.apiKeys.get (.keyHash keyHash)), store)
  | .touchApiKey id lastUsedAt =>
      store.updating (store.apiKeys.get (.id id))
        { store with
          apiKeys := store.apiKeys.update (·.id = id)
            (fun k => { k with lastUsedAt := some lastUsedAt }) fun _ => rfl }
  | .rotateApiKey id graceExpiresAt next =>
      match store.apiKeys.get (.id id),
        (store.graceApiKey id graceExpiresAt).insert (next.row store.ids) with
      | none, _ => (.error recordNotFound, store)
      | some _, none => (.error uniqueViolation, store)
      | some _, some apiKeys =>
          (.ok (next.row store.ids), { store with apiKeys, ids := store.ids + 1 })
  | .revokeApiKey id organizationId userId revokedAt =>
      (.ok (), store.updateApiKeys (fun k => k.id = id && k.isOf organizationId userId) revokedAt)
  | .revokeApiKeys organizationId userId revokedAt =>
      (.ok (), store.updateApiKeys (·.isOf organizationId userId) revokedAt)

def handle (o : AuthOp) (choice : Choice) : AuthIface.Answer o × Store :=
  match o, choice.fault with
  | .now, _ => store.perform choice .now
  | .randomToken, _ => store.perform choice .randomToken
  | _, some e => (.error e, store)
  | o, none => store.perform choice o

/-! ### What the statements do -/

variable {store : Store} {store' : Store} {choice : Choice} {o : AuthOp}

theorem handle_error {e : AuthError} (answered : store.handle o choice = (.error e, store')) :
    store' = store := by
  rcases choice with ⟨_ | fault, tick, token⟩ <;> cases o <;>
    simp only [handle, perform, updating] at answered <;> (try split at answered) <;>
    first
    | exact (Prod.mk.inj answered).2.symm
    | cases (Prod.mk.inj answered).1

/-- The effect of an operation that succeeds is that of performing it. -/
theorem handle_ok {r : o.Result} (answered : store.handle o choice = (.ok r, store')) :
    store.perform choice o = (.ok r, store') := by
  rcases choice with ⟨_ | fault, tick, token⟩
  · cases o <;> exact answered
  · cases o <;> first
      | exact answered
      | cases (Prod.mk.inj answered).1

theorem updating_ok {α : Type} {found : Option α} {updated : Store} {r : Unit}
    (done : store.updating found updated = (.ok r, store')) : store' = updated := by
  cases found with
  | some _ => exact (Prod.mk.inj done).2.symm
  | none => cases (Prod.mk.inj done).1

theorem handle_now {r : Int} (answered : store.handle .now choice = (.ok r, store')) :
    store' = { store with clock := r } ∧ store.clock ≤ r := by
  obtain ⟨first, second⟩ := Prod.mk.inj (handle_ok (o := .now) answered)
  cases Except.ok.inj first
  exact ⟨second.symm, by omega⟩

theorem handle_randomToken {r : String}
    (answered : store.handle .randomToken choice = (.ok r, store')) : store' = store :=
  (Prod.mk.inj (handle_ok (o := .randomToken) answered)).2.symm

theorem handle_read {found r : o.Result}
    (reads : ∀ choice, store.perform choice o = (.ok found, store))
    (answered : store.handle o choice = (.ok r, store')) : r = found ∧ store' = store := by
  have same := (reads choice).symm.trans (handle_ok answered)
  exact ⟨(Except.ok.inj (Prod.mk.inj same).1).symm, (Prod.mk.inj same).2.symm⟩

theorem handle_createSession {data : SessionData} {r : Session}
    (answered : store.handle (.createSession data) choice = (.ok r, store')) :
    ∃ sessions, store.sessions.insert (data.row store.ids) = some sessions ∧
      r = data.row store.ids ∧ store' = { store with sessions, ids := store.ids + 1 } := by
  have performed := handle_ok (o := .createSession data) answered
  simp only [perform] at performed
  split at performed
  · rename_i sessions inserted
    obtain ⟨first, second⟩ := Prod.mk.inj performed
    exact ⟨sessions, inserted, (Except.ok.inj first).symm, second.symm⟩
  · cases (Prod.mk.inj performed).1

theorem handle_sessions {answer : AuthIface.Answer o}
    (answered : store.handle o choice = (answer, store')) :
    store'.sessions = store.sessions ∨
    (∃ data, o = .createSession data ∧
      store.sessions.insert (data.row store.ids) = some store'.sessions) ∨
    (∃ p revokedAt, store'.sessions = (store.updateSessions p revokedAt).sessions) ∨
    (∃ id next revokedAt, o = .replaceSession id next revokedAt ∧
      store'.sessions = store.sessions.update (·.id = id)
        (fun s => { s with replacedBySessionId := some next, revokedAt := some revokedAt })
        fun _ => rfl) ∨
    ∃ id lastActivityAt, store'.sessions = store.sessions.update (·.id = id)
      (fun s => { s with lastActivityAt := some lastActivityAt }) fun _ => rfl := by
  cases answer with
  | error e => exact .inl (handle_error answered ▸ rfl)
  | ok r =>
      have performed := handle_ok answered
      cases o with
      | createSession data =>
          simp only [perform] at performed
          split at performed
          · rename_i sessions inserted
            rw [← (Prod.mk.inj performed).2]
            exact .inr (.inl ⟨data, rfl, inserted⟩)
          · cases (Prod.mk.inj performed).1
      | replaceSession id next revokedAt =>
          rw [updating_ok performed]
          exact .inr (.inr (.inr (.inl ⟨id, next, revokedAt, rfl, rfl⟩)))
      | revokeSession id revokedAt =>
          rw [updating_ok performed]
          exact .inr (.inr (.inl ⟨_, revokedAt, rfl⟩))
      | revokeSessions organizationId userId revokedAt =>
          rw [← (Prod.mk.inj performed).2]
          exact .inr (.inr (.inl ⟨_, revokedAt, rfl⟩))
      | revokeSessionOf id organizationId userId revokedAt =>
          rw [← (Prod.mk.inj performed).2]
          exact .inr (.inr (.inl ⟨_, revokedAt, rfl⟩))
      | touchSession id lastActivityAt =>
          rw [updating_ok performed]
          exact .inr (.inr (.inr (.inr ⟨id, lastActivityAt, rfl⟩)))
      | _ =>
          refine .inl ?_
          simp only [perform, updating] at performed
          try split at performed
          all_goals exact (congrArg Store.sessions (Prod.mk.inj performed).2).symm

theorem handle_sessions_grow {answer : AuthIface.Answer o}
    (answered : store.handle o choice = (answer, store')) :
    store.sessions.Grows (fun row row' => row.revokedAt.isSome → row'.revokedAt.isSome)
      store'.sessions := by
  rcases handle_sessions answered with
    kept | ⟨data, _, inserted⟩ | ⟨p, revokedAt, updated⟩ | ⟨id, next, revokedAt, _, updated⟩ |
      ⟨id, lastActivityAt, updated⟩
  · rw [kept]
    exact .refl fun _ revoked => revoked
  · exact .insert (fun _ revoked => revoked) inserted
  · refine .update ?_ updated (fun _ revoked => revoked) fun _ _ => rfl
    exact fun _ => rfl
  · refine .update ?_ updated (fun _ revoked => revoked) fun _ _ => rfl
    exact fun _ => rfl
  · refine .update ?_ updated (fun _ revoked => revoked) fun _ revoked => revoked
    exact fun _ => rfl

theorem handle_challenges {answer : AuthIface.Answer o}
    (answered : store.handle o choice = (answer, store')) :
    store'.challenges = store.challenges ∨
    (∃ data, o = .createMfaChallenge data ∧
      store.challenges.insert (data.row store.ids) = some store'.challenges) ∨
    ∃ id consumedAt, o = .consumeMfaChallenge id consumedAt ∧
      store'.challenges = store.challenges.update (·.id = id)
        (fun c => { c with consumedAt := some consumedAt }) fun _ => rfl := by
  cases answer with
  | error e => exact .inl (handle_error answered ▸ rfl)
  | ok r =>
      have performed := handle_ok answered
      cases o with
      | createMfaChallenge data =>
          simp only [perform] at performed
          split at performed
          · rename_i challenges inserted
            rw [← (Prod.mk.inj performed).2]
            exact .inr (.inl ⟨data, rfl, inserted⟩)
          · cases (Prod.mk.inj performed).1
      | consumeMfaChallenge id consumedAt =>
          rw [updating_ok performed]
          exact .inr (.inr ⟨id, consumedAt, rfl, rfl⟩)
      | _ =>
          refine .inl ?_
          simp only [perform, updating] at performed
          try split at performed
          all_goals exact (congrArg Store.challenges (Prod.mk.inj performed).2).symm

theorem handle_challenges_grow {answer : AuthIface.Answer o}
    (answered : store.handle o choice = (answer, store')) :
    store.challenges.Grows (fun row row' => row.consumedAt.isSome → row'.consumedAt.isSome)
      store'.challenges := by
  rcases handle_challenges answered with kept | ⟨data, _, inserted⟩ | ⟨id, consumedAt, _, updated⟩
  · rw [kept]
    exact .refl fun _ consumed => consumed
  · exact .insert (fun _ consumed => consumed) inserted
  · refine .update ?_ updated (fun _ consumed => consumed) fun _ _ => rfl
    exact fun _ => rfl

theorem handle_recoveryCodes_grow {answer : AuthIface.Answer o}
    (answered : store.handle o choice = (answer, store')) :
    store.recoveryCodes.Grows (fun row row' => row.usedAt.isSome → row'.usedAt.isSome)
      store'.recoveryCodes := by
  have unchanged (same : store'.recoveryCodes = store.recoveryCodes) : store.recoveryCodes.Grows
      (fun row row' => row.usedAt.isSome → row'.usedAt.isSome) store'.recoveryCodes :=
    same ▸ .refl fun _ used => used
  cases answer with
  | error e => exact unchanged (handle_error answered ▸ rfl)
  | ok r =>
      have performed := handle_ok answered
      cases o with
      | useRecoveryCode id usedAt =>
          refine .update ?_ (congrArg Store.recoveryCodes (updating_ok performed))
            (fun _ used => used) fun _ _ => rfl
          exact fun _ => rfl
      | _ =>
          refine unchanged ?_
          simp only [perform, updating] at performed
          try split at performed
          all_goals exact (congrArg Store.recoveryCodes (Prod.mk.inj performed).2).symm

/-- No operation changes the organizations, and ids are not given again. -/
theorem handle_organizations {answer : AuthIface.Answer o}
    (answered : store.handle o choice = (answer, store')) :
    store'.organizations = store.organizations ∧ store.ids ≤ store'.ids := by
  cases answer with
  | error e => rw [handle_error answered]; exact ⟨rfl, le_rfl⟩
  | ok r =>
      have performed := handle_ok answered
      cases o <;>
        simp only [perform, updating] at performed <;>
        (try split at performed) <;>
        rw [← (Prod.mk.inj performed).2] <;>
        exact ⟨rfl, by first | exact le_rfl | exact Nat.le_succ _⟩

end Store

end Auth
