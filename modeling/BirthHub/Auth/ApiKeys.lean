import BirthHub.Auth.Service

/-!
# Revocation and rotation of API keys

An API key is refused when it is revoked, or when a deadline of it has passed. Rotation
sets the deadline of the old key and makes it active, whatever state it was in: on a
revoked key it takes the revocation back, and on a key that was rotated before it moves
the deadline. In every history that rotates only keys that are neither revoked nor
rotated, `retiredKey_refused` holds.
-/

namespace Auth

open Data Effect

section

variable {crypto : Crypto} {config : ApiConfig} {s s' s₁ s₂ s₃ s₄ : Store} {k : ApiKey}

/-! ## What the statements do to the keys -/

theorem Store.handle_apiKeys {o : AuthOp} {choice : Choice} {answer : AuthIface.Answer o}
    (answered : s.handle o choice = (answer, s')) :
    s'.apiKeys = s.apiKeys ∨
    (∃ data, o = .createApiKey data ∧ s.apiKeys.insert (data.row s.ids) = some s'.apiKeys) ∨
    (∃ id lastUsedAt, s'.apiKeys = s.apiKeys.update (·.id = id)
      (fun k => { k with lastUsedAt := some lastUsedAt }) fun _ => rfl) ∨
    (∃ p revokedAt, s'.apiKeys = (s.updateApiKeys p revokedAt).apiKeys) ∨
    ∃ id graceExpiresAt next, o = .rotateApiKey id graceExpiresAt next ∧
      (s.graceApiKey id graceExpiresAt).insert (next.row s.ids) = some s'.apiKeys := by
  cases answer with
  | error e => exact .inl (handle_error answered ▸ rfl)
  | ok r =>
      have performed := handle_ok answered
      cases o with
      | createApiKey data =>
          simp only [perform] at performed
          split at performed
          · rename_i apiKeys inserted
            rw [← (Prod.mk.inj performed).2]
            exact .inr (.inl ⟨data, rfl, inserted⟩)
          · cases (Prod.mk.inj performed).1
      | touchApiKey id lastUsedAt =>
          rw [updating_ok performed]
          exact .inr (.inr (.inl ⟨id, lastUsedAt, rfl⟩))
      | revokeApiKey id organizationId userId revokedAt =>
          rw [← (Prod.mk.inj performed).2]
          exact .inr (.inr (.inr (.inl ⟨_, revokedAt, rfl⟩)))
      | revokeApiKeys organizationId userId revokedAt =>
          rw [← (Prod.mk.inj performed).2]
          exact .inr (.inr (.inr (.inl ⟨_, revokedAt, rfl⟩)))
      | rotateApiKey id graceExpiresAt next =>
          simp only [perform] at performed
          split at performed
          · cases (Prod.mk.inj performed).1
          · cases (Prod.mk.inj performed).1
          · rename_i apiKeys _ inserted
            rw [← (Prod.mk.inj performed).2]
            exact .inr (.inr (.inr (.inr ⟨id, graceExpiresAt, next, rfl, inserted⟩)))
      | _ =>
          refine .inl ?_
          simp only [perform, updating] at performed
          try split at performed
          all_goals exact (congrArg Store.apiKeys (Prod.mk.inj performed).2).symm

theorem get_rotated {id : Nat} {graceExpiresAt : Int} {new row : ApiKey} {apiKeys : Table ApiKey}
    {key : ApiKeyKey} (inserted : (s.graceApiKey id graceExpiresAt).insert new = some apiKeys)
    (found : s.apiKeys.get key = some row) :
    apiKeys.get key = some (if row.id = id then
      { row with graceExpiresAt := some graceExpiresAt, revokedAt := none, status := .ACTIVE }
    else row) := by
  have graced : (s.graceApiKey id graceExpiresAt).get key = some (if row.id = id then
      { row with graceExpiresAt := some graceExpiresAt, revokedAt := none, status := .ACTIVE }
      else row) := by
    simp [Store.graceApiKey, Table.get_update, found]
  obtain ⟨there, held⟩ := Table.get_eq_some.mp graced
  rw [Table.get_insert inserted, if_neg ((Table.insert_eq_some.mp inserted).2 _ there held), graced]

/-! ## Retired keys -/

/-- What every statement keeps of a key, and what all but its rotation keep. -/
structure Kept (o : AuthOp) (row row' : ApiKey) : Prop where
  id : row'.id = row.id
  organizationId : row'.organizationId = row.organizationId
  userId : row'.userId = row.userId
  retired : (∀ graceExpiresAt next, o ≠ .rotateApiKey row.id graceExpiresAt next) →
    (row.revoked = true → row'.revoked = true) ∧ row'.graceExpiresAt = row.graceExpiresAt

theorem Store.handle_key {o : AuthOp} {choice : Choice} {answer : AuthIface.Answer o} {hash : String}
    {row : ApiKey} (found : s.apiKeys.get (.keyHash hash) = some row)
    (answered : s.handle o choice = (answer, s')) :
    ∃ row', s'.apiKeys.get (.keyHash hash) = some row' ∧ Kept o row row' := by
  obtain ⟨there, key⟩ := Table.get_eq_some.mp found
  have unchanged : Kept o row row := ⟨rfl, rfl, rfl, fun _ => ⟨id, rfl⟩⟩
  rcases handle_apiKeys answered with
    kept | ⟨data, _, inserted⟩ | ⟨id, lastUsedAt, updated⟩ | ⟨p, revokedAt, updated⟩ |
      ⟨id, graceExpiresAt, next, rfl, inserted⟩
  · exact ⟨row, by rw [kept, found], unchanged⟩
  · have apart := (Table.insert_eq_some.mp inserted).2 row there key
    exact ⟨row, by rw [Table.get_insert inserted, if_neg apart, found], unchanged⟩
  · refine ⟨_, by rw [updated, Table.get_update, found]; rfl, ?_⟩
    dsimp only
    split
    · exact ⟨rfl, rfl, rfl, fun _ => ⟨fun revoked => revoked, rfl⟩⟩
    · exact unchanged
  · refine ⟨_, by rw [updated, updateApiKeys, Table.get_update, found]; rfl, ?_⟩
    dsimp only
    split
    · exact ⟨rfl, rfl, rfl, fun _ => ⟨fun _ => rfl, rfl⟩⟩
    · exact unchanged
  · refine ⟨_, get_rotated inserted found, ?_⟩
    split
    · rename_i target
      exact ⟨rfl, rfl, rfl, fun other => (other graceExpiresAt next (by rw [target])).elim⟩
    · exact unchanged

/-- The row of key `k`, which keeps its id and its hash, is revoked, or ends at
`deadline`. -/
def Retiring (k : ApiKey) (deadline : Int) (s : Store) : Prop :=
  ∃ row, s.apiKeys.get (.keyHash k.keyHash) = some row ∧ row.id = k.id ∧
    (row.revoked = true ∨ row.graceExpiresAt = some deadline)

/-- Only the rotation of a key takes its revocation back or moves its deadline. -/
theorem Retiring.handle {deadline : Int} {o : AuthOp} {choice : Choice}
    {answer : AuthIface.Answer o} (retiring : Retiring k deadline s)
    (other : ∀ graceExpiresAt next, o ≠ .rotateApiKey k.id graceExpiresAt next)
    (answered : s.handle o choice = (answer, s')) : Retiring k deadline s' := by
  obtain ⟨row, found, same, retired⟩ := retiring
  obtain ⟨row', found', kept⟩ := Store.handle_key found answered
  obtain ⟨revoked, grace⟩ := kept.retired (by rwa [same])
  refine ⟨row', found', kept.id.trans same, ?_⟩
  rcases retired with retired | deadline
  · exact .inl (revoked retired)
  · exact .inr (grace.trans deadline)

/-- The row of key `k` is there, and belongs to the same user of the same organization. -/
def Owned (k : ApiKey) (organizationId userId : String) (s : Store) : Prop :=
  ∃ row, s.apiKeys.get (.keyHash k.keyHash) = some row ∧ row.id = k.id ∧
    row.organizationId = organizationId ∧ row.userId = userId

theorem Owned.handle {organizationId userId : String} {o : AuthOp} {choice : Choice}
    {answer : AuthIface.Answer o} (owned : Owned k organizationId userId s)
    (answered : s.handle o choice = (answer, s')) : Owned k organizationId userId s' := by
  obtain ⟨row, found, id, organization, user⟩ := owned
  obtain ⟨row', found', kept⟩ := Store.handle_key found answered
  exact ⟨row', found', kept.id.trans id, kept.organizationId.trans organization,
    kept.userId.trans user⟩

/-- A statement other than the rotation of a key. -/
def AuthOp.isNoRotation : AuthOp → Prop
  | .rotateApiKey .. => False
  | _ => True

theorem within_noRotation {request : Request} (other : ∀ input, request ≠ .rotateKey input) :
    (serveRequest crypto config request).Within AuthOp.isNoRotation := by
  have plain : ∀ o : AuthOp, o.isExchange = false → o.isNoRotation := by
    intro o exchange
    cases o <;> trivial
  have created {client : Client} {organizationId tenantId userId : String} :
      (createSession crypto config client organizationId tenantId userId).Within
        AuthOp.isNoRotation :=
    createSession_within (fun o exchange _ => plain o exchange) fun _ _ _ _ => trivial
  cases request with
  | rotateKey input => exact (other input rfl).elim
  | refresh client refreshToken =>
      refine Prog.Within.bind ?_ fun _ => trivial
      refine within_await_bind trivial fun current => ?_
      cases current with
      | none =>
          refine within_await_bind trivial fun revokedSession => ?_
          cases revokedSession with
          | none => trivial
          | some revokedSession =>
              exact Prog.Within.bind (within_await_bind trivial fun _ => within_await trivial)
                fun _ => trivial
      | some current =>
          refine Prog.Within.ite trivial ?_
          split
          · trivial
          · refine within_await_bind trivial fun now => ?_
            split
            · trivial
            · refine Prog.Within.bind created fun _ => ?_
              exact within_await_bind trivial fun _ => within_await_bind trivial fun _ => trivial
  | verifyMfa input =>
      refine Prog.Within.bind ?_ fun _ => trivial
      refine within_await_bind trivial fun challenge => ?_
      cases challenge with
      | none => trivial
      | some challenge =>
          refine Prog.Within.ite trivial (within_await_bind trivial fun now => ?_)
          split
          · trivial
          refine within_await_bind trivial fun user => ?_
          split
          · trivial
          · refine Prog.Within.bind (verifyCode_within (fun o exchange _ => plain o exchange)
              (fun _ _ => trivial) fun _ _ => trivial) fun verified => ?_
            refine Prog.Within.ite trivial ?_
            refine within_await_bind trivial fun _ => within_await_bind trivial fun _ => ?_
            exact Prog.Within.bind created fun _ => trivial
  | login | revokeCurrent | revokeAll | revokeById | createKey | revokeKey | introspect
  | authenticate | suspend => exact serveRequest_within plain rfl

/-! ## Rotation -/

/-- A rotation fails and changes nothing, or puts the key of its owner in its grace
period, whatever state the key is in, and adds a successor. -/
theorem rotateTenantApiKey_exec {input : KeyOf} {x : Except AuthError IssuedKey}
    (ran : (service crypto config).Exec (rotateTenantApiKey crypto config input) s x s') :
    ((∃ e, x = .error e) ∧ s'.apiKeys = s.apiKeys) ∨
    ∃ row new, s.apiKeys.get (.id input.id) = some row ∧
      row.isOf input.organizationId input.userId = true ∧
      (s.graceApiKey row.id (s'.clock + config.API_AUTH_ROTATION_GRACE_HOURS * 60 * 60 * 1000)).insert
        new = some s'.apiKeys := by
  rcases exec_await ran with ⟨failed, rfl⟩ | ⟨current, _, s₁, finds, ran⟩
  · exact .inl ⟨failed, rfl⟩
  obtain ⟨known, rfl⟩ := Store.handle_read (fun _ => rfl) finds
  cases current with
  | none =>
      obtain ⟨rfl, rfl⟩ := System.exec_throw.mp ran
      exact .inl ⟨⟨_, rfl⟩, rfl⟩
  | some row =>
      obtain ⟨found, owned⟩ := Option.filter_eq_some_iff.mp known.symm
      rcases System.exec_bind.mp ran with ⟨e, ended, fails⟩ | ⟨generated, s₂, generates, ran₂⟩
      · rcases exec_await fails with ⟨_, rfl⟩ | ⟨_, _, _, _, returns⟩
        · exact .inl ⟨⟨e, ended⟩, rfl⟩
        · cases (System.exec_pure.mp returns).1
      obtain ⟨_, _, _, random, generated'⟩ := exec_await_ok generates
      cases Store.handle_randomToken random
      obtain ⟨rfl, rfl⟩ := exec_pure_ok generated'
      rcases System.exec_bind.mp ran₂ with ⟨e, ended, fails⟩ | ⟨graceExpiresAt, s₃, reads, ran₃⟩
      · rcases exec_await fails with ⟨_, rfl⟩ | ⟨_, _, _, _, returns⟩
        · exact .inl ⟨⟨e, ended⟩, rfl⟩
        · cases (System.exec_pure.mp returns).1
      obtain ⟨now, _, _, read, read'⟩ := exec_await_ok reads
      obtain ⟨rfl, _⟩ := Store.handle_now read
      obtain ⟨rfl, rfl⟩ := exec_pure_ok read'
      rcases exec_await ran₃ with ⟨failed, rfl⟩ | ⟨next, choice, s₄, rotates, ran₄⟩
      · exact .inl ⟨failed, rfl⟩
      obtain ⟨_, rfl⟩ := System.exec_pure.mp ran₄
      have performed := Store.handle_ok rotates
      simp only [Store.perform] at performed
      split at performed
      · cases (Prod.mk.inj performed).1
      · cases (Prod.mk.inj performed).1
      · rename_i apiKeys _ inserted
        obtain ⟨_, rfl⟩ := Prod.mk.inj performed
        exact .inr ⟨row, _, found, owned, inserted⟩

/-- The keys that a request may rotate: neither revoked, nor rotated before. -/
def RotatesFresh (s : Store) : Request → Prop
  | .rotateKey input => ∀ row, s.apiKeys.get (.id input.id) = some row →
      row.isOf input.organizationId input.userId → row.revoked = false ∧ row.graceExpiresAt = none
  | _ => True

/-- A request that rotates no retiring key leaves them retiring. -/
theorem Retiring.served {deadline : Int} {request : Request} {x : Except AuthError Response}
    (retiring : Retiring k deadline s) (fresh : RotatesFresh s request)
    (ran : (service crypto config).Exec (serveRequest crypto config request) s x s') :
    Retiring k deadline s' := by
  by_cases rotates : ∃ input, request = .rotateKey input
  · obtain ⟨input, rfl⟩ := rotates
    obtain ⟨row, found, same, retired⟩ := retiring
    have kept {t : Store} {y : Except AuthError IssuedKey}
        (ran : (service crypto config).Exec (rotateTenantApiKey crypto config input) s y t) :
        Retiring k deadline t := by
      rcases rotateTenantApiKey_exec ran with ⟨_, kept⟩ | ⟨other, new, target, owned, inserted⟩
      · exact ⟨row, by rw [kept, found], same, retired⟩
      · refine ⟨_, get_rotated inserted found, ?_⟩
        split
        · rename_i target'
          have there := (Table.get_eq_some.mp found).1
          obtain ⟨other', _⟩ := Table.get_eq_some.mp target
          have eq : row = other := Table.eq_of_keys there other'
            (k := ApiKeyKey.id row.id) (by simp [Schema.keys]) (by simp [Schema.keys, target'])
          subst eq
          obtain ⟨unrevoked, unrotated⟩ := fresh row target owned
          rw [unrevoked, unrotated] at retired
          rcases retired with revoked | rotated
          · cases revoked
          · cases rotated
        · exact ⟨same, retired⟩
    rcases System.exec_bind.mp ran with ⟨_, _, ran⟩ | ⟨_, _, ran, done⟩
    · exact kept ran
    · obtain ⟨_, rfl⟩ := System.exec_pure.mp done
      exact kept ran
  · refine System.Exec.keeps_within (A := AuthOp.isNoRotation) (fun {o} _ _ _ _ plain retiring answered =>
      retiring.handle (fun _ _ eq => ?_) (Option.some.inj answered)) (within_noRotation
        fun input eq => rotates ⟨input, eq⟩) retiring ran
    subst eq
    exact plain

/-! ## Retired keys are refused -/

/-- A request that ended at `done` retires key `k` for requests made at `s`: a revocation
or a suspension of its user at once, a rotation when the grace period has elapsed. -/
def RetiredBy (config : ApiConfig) (k : ApiKey) (done s : Store) : Request → Prop
  | .revokeKey input => k.id = input.id ∧ k.isOf input.organizationId input.userId
  | .suspend organizationId userId => k.isOf organizationId userId
  | .rotateKey input => k.id = input.id ∧
      done.clock + config.API_AUTH_ROTATION_GRACE_HOURS * 60 * 60 * 1000 < s.clock
  | _ => False

/-- The request presents `token` as the secret of an API key. -/
def Request.presentsKey (token : String) : Request → Prop
  | .introspect rawToken => rawToken = token
  | .authenticate apiKeyToken _ => apiKeyToken = some token
  | _ => False

def Response.acceptsKey : Response → Bool
  | .introspect result => result.active
  | .authenticate (some context) => context.apiKeyId.isSome
  | _ => false

theorem revokeApiKeys_retiring {p : ApiKey → Bool} {revokedAt deadline : Int} {row : ApiKey}
    (found : s.apiKeys.get (.keyHash k.keyHash) = some row) (same : row.id = k.id)
    (hit : p row = true) : Retiring k deadline (s.updateApiKeys p revokedAt) := by
  refine ⟨{ row with revokedAt := some revokedAt, status := .REVOKED }, ?_, same, .inl rfl⟩
  rw [Store.updateApiKeys, Table.get_update, found]
  simp [hit]

theorem RetiredBy.retiring {request : Request} {answer : Response}
    (retired : RetiredBy config k s₂ s₃ request) (held : k ∈ s₁.apiKeys.rows)
    (ran : (service crypto config).Exec (serveRequest crypto config request) s₁ (.ok answer) s₂) :
    ∃ deadline < s₃.clock, Retiring k deadline s₂ := by
  have found : s₁.apiKeys.get (.keyHash k.keyHash) = some k :=
    Table.get_eq_some.mpr ⟨held, by simp [Schema.keys]⟩
  cases request with
  | revokeKey input =>
      obtain ⟨same, owned⟩ := retired
      obtain ⟨_, t, revokes, done⟩ := exec_bind_ok ran
      obtain ⟨_, rfl⟩ := exec_pure_ok done
      obtain ⟨revokedAt, _, t, read, revokes'⟩ := exec_await_ok revokes
      obtain ⟨rfl, _⟩ := Store.handle_now read
      obtain ⟨choice, answered⟩ := System.exec_perform.mp revokes'
      have effect := (Prod.mk.inj (Store.handle_ok (Option.some.inj answered))).2
      subst effect
      exact ⟨s₃.clock - 1, by omega, revokeApiKeys_retiring found rfl (by simp [same, owned])⟩
  | suspend organizationId userId =>
      obtain ⟨_, t, suspends, done⟩ := exec_bind_ok ran
      obtain ⟨_, rfl⟩ := exec_pure_ok done
      obtain ⟨_, t₁, first, rest⟩ := exec_bind_ok suspends
      obtain ⟨_, t₂, second, rest'⟩ := exec_bind_ok rest
      obtain ⟨revokedAt, _, t₃, read, revokes⟩ := exec_await_ok rest'
      obtain ⟨choice, answered⟩ := System.exec_perform.mp revokes
      have effect := (Prod.mk.inj (Store.handle_ok (Option.some.inj answered))).2
      subst effect
      have owner : k.organizationId = organizationId ∧ k.userId = userId := by
        simpa [RetiredBy, ApiKey.isOf] using retired
      have owned : Owned k organizationId userId s₁ := ⟨k, found, rfl, owner⟩
      -- the statements before the revocation leave the key with its owner
      have each {o : AuthOp} {choice : Choice} {t t' : Store} {answer : AuthIface.Answer o}
          (owned : Owned k organizationId userId t)
          (answered : some (t.handle o choice) = some (answer, t')) :
          Owned k organizationId userId t' := owned.handle (Option.some.inj answered)
      have owned₁ := System.Exec.keeps each owned first
      have owned₂ := System.Exec.keeps each owned₁ second
      obtain ⟨row, found', same, organization, user⟩ := owned₂.handle read
      exact ⟨s₃.clock - 1, by omega,
        revokeApiKeys_retiring found' same (by simp [ApiKey.isOf, organization, user])⟩
  | rotateKey input =>
      obtain ⟨same, elapsed⟩ := retired
      obtain ⟨_, t, rotates, done⟩ := exec_bind_ok ran
      obtain ⟨_, rfl⟩ := exec_pure_ok done
      rcases rotateTenantApiKey_exec rotates with ⟨⟨_, failed⟩, _⟩ | ⟨row, new, target, _, inserted⟩
      · cases failed
      · obtain ⟨there, key⟩ := Table.get_eq_some.mp target
        have eq : row = k := Table.eq_of_keys there held key (by simp [Schema.keys, same])
        subst eq
        exact ⟨_, elapsed, _, get_rotated inserted found, by simp, .inr (by simp)⟩
  | _ => exact retired.elim

/-- A retiring key is not active once its deadline has passed. -/
theorem introspectApiKey_retiring {token : String} {deadline : Int} {result : Introspection}
    (retiring : Retiring k deadline s) (late : deadline < s.clock)
    (secret : crypto.sha256 token = k.keyHash)
    (ran : (service crypto config).Exec (introspectApiKey crypto token) s (.ok result) s') :
    result.active = false := by
  obtain ⟨row, found, _, retired⟩ := retiring
  obtain ⟨apiKey, _, t, finds, ran₁⟩ := exec_await_ok ran
  obtain ⟨known, rfl⟩ := Store.handle_read (fun _ => rfl) finds
  cases known.trans (secret ▸ found)
  obtain ⟨now, _, t', read, ran₂⟩ := exec_await_ok ran₁
  obtain ⟨rfl, later⟩ := Store.handle_now read
  have refused : ((passed row.expiresAt now || passed row.graceExpiresAt now) || row.revoked) =
      true := by
    rcases retired with revoked | grace
    · simp [revoked]
    · have passes : passed row.graceExpiresAt now = true := by
        simp only [grace, passed, Option.map_some, Option.getD_some, decide_eq_true_eq]
        exact lt_of_lt_of_le late later
      simp [passes]
  simp only [refused, if_true] at ran₂
  obtain ⟨rfl, _⟩ := exec_pure_ok ran₂
  rfl

/-- A session is authenticated without a key. -/
theorem authenticateSession_key {sessionToken : String} {context : AuthenticatedContext}
    (ran : (service crypto config).Exec (authenticateSession crypto sessionToken) s
      (.ok (some context)) s') : context.apiKeyId = none := by
  obtain ⟨session, _, t, _, ran₁⟩ := exec_await_ok ran
  cases session with
  | none => cases (exec_pure_ok ran₁).1
  | some session =>
      dsimp only at ran₁
      split at ran₁
      · cases (exec_pure_ok ran₁).1
      obtain ⟨now, _, t, _, ran₂⟩ := exec_await_ok ran₁
      split at ran₂
      · cases (exec_pure_ok ran₂).1
      obtain ⟨user, _, t, _, ran₃⟩ := exec_await_ok ran₂
      cases user with
      | none => cases (exec_pure_ok ran₃).1
      | some user =>
          dsimp only at ran₃
          split at ran₃
          · cases (exec_pure_ok ran₃).1
          obtain ⟨_, _, t, _, ran₄⟩ := exec_await_ok ran₃
          obtain ⟨_, _, t, _, ran₅⟩ := exec_await_ok ran₄
          cases (exec_pure_ok ran₅).1
          rfl

/-- No request is authenticated by a retiring key once its deadline has passed. -/
theorem authenticateRequest_retiring {token : String} {sessionToken : Option String}
    {deadline : Int} {context : Option AuthenticatedContext} (retiring : Retiring k deadline s)
    (late : deadline < s.clock) (secret : crypto.sha256 token = k.keyHash)
    (ran : (service crypto config).Exec (authenticateRequest crypto (some token) sessionToken) s
      (.ok context) s') : (Response.authenticate context).acceptsKey = false := by
  cases context with
  | none => rfl
  | some context =>
      unfold authenticateRequest at ran
      split at ran
      · rename_i _ _ token' presented
        have same : token' = token := by
          unfold given at presented
          exact (Option.some.inj (Option.filter_eq_some_iff.mp presented).1).symm
        subst same
        obtain ⟨result, t, introspects, ran₁⟩ := exec_bind_ok ran
        have inactive := introspectApiKey_retiring retiring late secret introspects
        rw [inactive] at ran₁
        cases (exec_pure_ok ran₁).1
      · simp [Response.acceptsKey, authenticateSession_key ran]
      · cases (exec_pure_ok ran).1

/-- A key that was revoked, or whose user was suspended, or whose grace period has elapsed
since a rotation, is never accepted again, as long as only keys that are neither revoked
nor rotated are rotated. -/
theorem retiredKey_refused {request presents : Request} {answer answer' : Response}
    {calls : List (Call AuthIface Request Response)} {token : String}
    (held : k ∈ s₁.apiKeys.rows)
    (ran : (service crypto config).Exec (serveRequest crypto config request) s₁ (.ok answer) s₂)
    (served : (service crypto config).Serves RotatesFresh s₂ calls s₃)
    (retired : RetiredBy config k s₂ s₃ request)
    (secret : crypto.sha256 token = k.keyHash) (presented : presents.presentsKey token)
    (ran' : (service crypto config).Exec (serveRequest crypto config presents) s₃ (.ok answer') s₄) :
    answer'.acceptsKey = false := by
  obtain ⟨deadline, late, retiring⟩ := retired.retiring held ran
  have retiring' : Retiring k deadline s₃ :=
    System.Serves.invariant (fun retiring fresh ran => Retiring.served retiring fresh ran)
      retiring served
  cases presents with
  | introspect rawToken =>
      cases presented
      obtain ⟨result, t, introspects, done⟩ := exec_bind_ok ran'
      obtain ⟨rfl, rfl⟩ := exec_pure_ok done
      exact introspectApiKey_retiring retiring' late secret introspects
  | authenticate apiKeyToken sessionToken =>
      cases presented
      obtain ⟨context, t, authenticates, done⟩ := exec_bind_ok ran'
      obtain ⟨rfl, rfl⟩ := exec_pure_ok done
      exact authenticateRequest_retiring retiring' late secret authenticates
  | _ => exact presented.elim

end

/-! ### A revoked key that is rotated -/

def memberKey : ApiKey where
  id := 0
  tenantId := "tenant"
  organizationId := "org"
  userId := "user"
  label := "ci"
  keyPrefix := "bh360_live"
  keyHash := "bh360_live_k"
  last4 := "ve_k"
  scopes := ["agents:read"]

/-- The member has issued one key. -/
def keyStore : Store :=
  { memberStore with ids := 1, apiKeys := ⟨[memberKey], List.pairwise_singleton _ _⟩ }

def ownKey : KeyOf := ⟨0, "org", "user"⟩

abbrev plainService : System AuthIface Request Store Response := service plainCrypto plainConfig

def revocation : Except AuthError Response × Store :=
  (plainService.alone (serveRequest plainCrypto plainConfig (.revokeKey ownKey)) (quiet 2)
    keyStore).get (by decide)

def revival : List (Call AuthIface Request Response) × Store :=
  (plainService.serve (fun _ _ => true) revocation.2
    [(.rotateKey ownKey, quiet 1 ++ [{ token := "n" }] ++ quiet 2)]).get (by decide)

def revivedUse : Except AuthError Response × Store :=
  (plainService.alone (serveRequest plainCrypto plainConfig (.introspect "bh360_live_k")) (quiet 4)
    revival.2).get (by decide)

/-- Rotating a revoked key makes its secret accepted again. -/
theorem revokedKey_revived :
    ∃ (s₁ s₂ s₃ s₄ : Store) (k : ApiKey) (answer answer' : Response)
      (calls : List (Call AuthIface Request Response)) (token : String),
      k ∈ s₁.apiKeys.rows ∧
      plainService.Exec (serveRequest plainCrypto plainConfig (.revokeKey ownKey)) s₁ (.ok answer) s₂ ∧
      plainService.Serves (fun _ _ => True) s₂ calls s₃ ∧
      RetiredBy plainConfig k s₂ s₃ (.revokeKey ownKey) ∧
      plainCrypto.sha256 token = k.keyHash ∧
      plainService.Exec (serveRequest plainCrypto plainConfig (.introspect token)) s₃ (.ok answer') s₄ ∧
      answer'.acceptsKey = true := by
  have revoked : plainService.Exec (serveRequest plainCrypto plainConfig (.revokeKey ownKey)) keyStore
      revocation.1 revocation.2 := .of_alone_get _
  have used : plainService.Exec (serveRequest plainCrypto plainConfig (.introspect "bh360_live_k"))
      revival.2 revivedUse.1 revivedUse.2 := .of_alone_get _
  have served : plainService.Serves (fun _ _ => True) revocation.2 revival.1 revival.2 :=
    .of_serve_get (fun _ _ _ => trivial) _
  have done : revocation.1 = .ok .done := by decide
  have accepted : revivedUse.1 =
      .ok (.introspect ⟨true, some 0, ["agents:read"], some "tenant", some "user"⟩) := by decide
  rw [done] at revoked
  rw [accepted] at used
  exact ⟨keyStore, _, _, _, memberKey, _, _, _, "bh360_live_k", List.mem_singleton.mpr rfl, revoked,
    served, ⟨rfl, rfl⟩, rfl, used, rfl⟩

/-! ### A rotated key after its grace period -/

def graced : Except AuthError Response × Store :=
  (plainService.alone (serveRequest plainCrypto plainConfig (.rotateKey ownKey))
    (quiet 1 ++ [{ token := "n" }] ++ quiet 2) keyStore).get (by decide)

/-- No key is rotated. -/
def Request.isIntrospection : Request → Bool
  | .introspect _ => true
  | _ => false

/-- A day and an hour go by in a request with the old secret. -/
def dayLater : List (Call AuthIface Request Response) × Store :=
  (plainService.serve (fun _ request => request.isIntrospection) graced.2
    [(.introspect "bh360_live_k", quiet 1 ++ [{ tick := 25 * 60 * 60 * 1000 }])]).get
    (by decide)

def lateUse : Except AuthError Response × Store :=
  (plainService.alone (serveRequest plainCrypto plainConfig (.introspect "bh360_live_k")) (quiet 2)
    dayLater.2).get (by decide)

/-- The old secret of a rotated key is refused after the grace period. -/
theorem gracedKey_refused :
    ∃ answer s', plainService.Exec
        (serveRequest plainCrypto plainConfig (.introspect "bh360_live_k")) dayLater.2 (.ok answer) s' ∧
      answer.acceptsKey = false := by
  have rotated : plainService.Exec (serveRequest plainCrypto plainConfig (.rotateKey ownKey)) keyStore
      graced.1 graced.2 := .of_alone_get _
  have served : plainService.Serves RotatesFresh graced.2 dayLater.1 dayLater.2 := by
    refine .of_serve_get (fun _ request passes => ?_) _
    cases request <;> trivial
  have used : plainService.Exec (serveRequest plainCrypto plainConfig (.introspect "bh360_live_k"))
      dayLater.2 lateUse.1 lateUse.2 := .of_alone_get _
  have issued : graced.1 = .ok (.issued ⟨1, "bh360_live_n"⟩) := by decide
  have answered : lateUse.1 = .ok (.introspect ⟨false, some 0, [], none, none⟩) := by decide
  have elapsed : graced.2.clock + plainConfig.API_AUTH_ROTATION_GRACE_HOURS * 60 * 60 * 1000 <
      dayLater.2.clock := by decide
  have presented : (Request.introspect "bh360_live_k").presentsKey "bh360_live_k" := rfl
  rw [issued] at rotated
  rw [answered] at used
  exact ⟨_, _, used, retiredKey_refused (k := memberKey) (List.mem_singleton.mpr rfl) rotated served
    ⟨rfl, elapsed⟩ rfl presented used⟩

end Auth
