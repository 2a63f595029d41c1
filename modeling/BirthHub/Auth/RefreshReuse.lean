import BirthHub.Auth.Service

/-!
# Reuse of a rotated refresh token

`refreshSession` looks the session up by the hash of the presented token before it asks
whether that session is revoked. Rotation keeps the row, so a rotated token is found,
is revoked, and is refused like an expired one: the branch that revokes every session
of the identity is reached only when no session has the hash, and then no revoked
session has it either. `Refreshed` says all that a returning call can do, and
`detectsTheft_iff` for which tokens that is what theft detection promises.
-/

namespace Auth

open Data Effect

section

variable {crypto : Crypto} {config : ApiConfig} {s s' s'' : Store} {refreshToken : String}
  {result : RefreshResult} {client : Client}

/-- The session of a refresh token. -/
def Store.sessionOf (s : Store) (crypto : Crypto) (refreshToken : String) : Option Session :=
  s.sessions.get (.refreshTokenHash (crypto.sha256 refreshToken))

/-- A session that has been replaced by another. -/
def Session.replaced (row : Session) (next : Nat) (revokedAt : Int) : Session :=
  { row with replacedBySessionId := some next, revokedAt := some revokedAt }

/-- `row` is revoked in favour of one new session, the one that the caller gets. -/
def ExchangedFor (crypto : Crypto) (s s' : Store) (row : Session) (signedIn : SignedIn) : Prop :=
  ∃ new revokedAt,
    NewSession crypto row.organizationId row.tenantId row.userId
      ⟨signedIn.sessionId, signedIn.tokens⟩ new ∧
    s'.sessions.rows =
      s.sessions.rows.map (fun r => if r.id = row.id then r.replaced new.id revokedAt else r) ++ [new]

/-- All that a call of `refreshSession` that returns can do. -/
inductive Refreshed (crypto : Crypto) (refreshToken : String) (s : Store) :
    RefreshResult → Store → Prop
  | unknown (absent : s.sessionOf crypto refreshToken = none) :
      Refreshed crypto refreshToken s ⟨false, none⟩ s
  | revoked {row : Session} (found : s.sessionOf crypto refreshToken = some row)
      (revoked : row.revokedAt.isSome) : Refreshed crypto refreshToken s ⟨false, none⟩ s
  | expired {row : Session} {clock : Int} (found : s.sessionOf crypto refreshToken = some row)
      (expired : ∀ refreshExpiresAt, row.refreshExpiresAt = some refreshExpiresAt →
        refreshExpiresAt < clock) :
      Refreshed crypto refreshToken s ⟨false, none⟩ { s with clock }
  | exchanged {row : Session} {signedIn : SignedIn} {s' : Store}
      (found : s.sessionOf crypto refreshToken = some row) (unrevoked : row.revokedAt = none)
      (exchanged : ExchangedFor crypto s s' row signedIn) :
      Refreshed crypto refreshToken s ⟨false, some signedIn⟩ s'

/-- When no session has the hash of a token, no revoked session has it: the reuse branch
of `refreshSession` is never entered. -/
theorem findRevokedSession_none {hash : String} {choice : Choice} {r : Option Session}
    (absent : s.sessions.get (.refreshTokenHash hash) = none)
    (answered : s.handle (.findRevokedSession hash) choice = (.ok r, s')) : r = none ∧ s' = s := by
  obtain ⟨rfl, rfl⟩ := Store.handle_read (o := .findRevokedSession hash) (fun _ => rfl) answered
  refine ⟨List.find?_eq_none.mpr fun row there matching => ?_, rfl⟩
  have key : SessionKey.refreshTokenHash hash ∈ Schema.keys row := by
    simp only [decide_eq_true_eq] at matching
    simp [Schema.keys, matching.1]
  exact Table.get_eq_none.mp absent row there key

theorem exchangeSession_ok {row : Session}
    (ran : (service crypto config).Exec (exchangeSession crypto config client row) s (.ok result) s')
    (held : s.sessions.get (.id row.id) = some row) :
    ∃ signedIn, result = ⟨false, some signedIn⟩ ∧ ExchangedFor crypto s s' row signedIn := by
  obtain ⟨created, s₁, creates, ran⟩ := exec_bind_ok ran
  obtain ⟨new, sessions, clock, made, _, inserted, _, rfl⟩ := createSession_ok creates
  obtain ⟨revokedAt, _, s₂, read, ran⟩ := exec_await_ok ran
  obtain ⟨rfl, _⟩ := Store.handle_now read
  obtain ⟨_, _, s₃, replaces, ran⟩ := exec_await_ok ran
  cases Store.updating_ok (Store.handle_ok replaces)
  obtain ⟨rfl, rfl⟩ := exec_pure_ok ran
  refine ⟨_, rfl, new, revokedAt, made, ?_⟩
  obtain ⟨rows, apart⟩ := Table.insert_eq_some.mp inserted
  obtain ⟨there, _⟩ := Table.get_eq_some.mp held
  -- the new session has an id of its own, so the update leaves it alone
  have other : new.id ≠ row.id := by
    intro same
    have key : SessionKey.id row.id ∈ Schema.keys new := by simp [Schema.keys, same]
    exact apart row there (by simp [Schema.keys]) key
  have appended : (if new.id = row.id then new.replaced new.id revokedAt else new) = new :=
    if_neg other
  have updated : (sessions.update (·.id = row.id)
      (fun r => r.replaced new.id revokedAt) fun _ => rfl).rows =
      sessions.rows.map fun r => if r.id = row.id then r.replaced new.id revokedAt else r := by
    simp [Table.update]
  show (sessions.update (·.id = row.id) (fun r => r.replaced created.sessionId revokedAt)
    fun _ => rfl).rows = _
  rw [← made.id, updated, rows, List.map_append, List.map_singleton, appended]

theorem refreshSession_ok
    (ran : (service crypto config).Exec (refreshSession crypto config client refreshToken) s
      (.ok result) s') : Refreshed crypto refreshToken s result s' := by
  obtain ⟨current, _, s₁, finds, ran⟩ := exec_await_ok ran
  obtain ⟨known, rfl⟩ := Store.handle_read (fun _ => rfl) finds
  have found : s₁.sessionOf crypto refreshToken = current := known.symm
  cases current with
  | none =>
      obtain ⟨revokedSession, _, s₂, finds', ran⟩ := exec_await_ok ran
      obtain ⟨none, rfl⟩ := findRevokedSession_none found finds'
      subst none
      obtain ⟨rfl, rfl⟩ := exec_pure_ok ran
      exact .unknown found
  | some row =>
      simp only at ran
      split at ran
      · rename_i revoked
        obtain ⟨rfl, rfl⟩ := exec_pure_ok ran
        exact .revoked found revoked
      rename_i unrevoked
      split at ran
      · rename_i unlimited
        obtain ⟨rfl, rfl⟩ := exec_pure_ok ran
        exact .expired found (by simp [unlimited])
      rename_i refreshExpiresAt limited
      obtain ⟨now, _, s₂, read, ran⟩ := exec_await_ok ran
      obtain ⟨rfl, _⟩ := Store.handle_now read
      split at ran
      · rename_i expired
        obtain ⟨rfl, rfl⟩ := exec_pure_ok ran
        refine .expired found fun limit same => ?_
        rw [limited] at same
        exact Option.some.inj same ▸ expired
      · have held : s₁.sessions.get (.id row.id) = some row :=
          Table.get_eq_some.mpr ⟨(Table.get_eq_some.mp found).1, by simp [Schema.keys]⟩
        obtain ⟨signedIn, rfl, exchanged⟩ := exchangeSession_ok ran held
        exact .exchanged found (by simpa using unrevoked) exchanged

theorem serveRefresh_ok
    (ran : (service crypto config).Exec (serveRequest crypto config (.refresh client refreshToken)) s
      (.ok (.refresh result)) s') : Refreshed crypto refreshToken s result s' := by
  obtain ⟨returned, s₁, refreshes, ran⟩ := exec_bind_ok ran
  obtain ⟨same, rfl⟩ := exec_pure_ok ran
  cases Response.refresh.inj same
  exact refreshSession_ok refreshes

/-! ## Rotated tokens -/

/-- The session of the token is revoked. -/
def Spent (crypto : Crypto) (refreshToken : String) (s : Store) : Prop :=
  ∃ row, s.sessionOf crypto refreshToken = some row ∧ row.revokedAt.isSome

/-- No statement deletes a session, changes its tokens or takes its revocation back. -/
theorem Spent.handle {o : AuthOp} {choice : Choice} {answer : AuthIface.Answer o}
    (spent : Spent crypto refreshToken s) (answered : s.handle o choice = (answer, s')) :
    Spent crypto refreshToken s' := by
  obtain ⟨row, found, revoked⟩ := spent
  unfold Store.sessionOf at found
  rcases Store.handle_sessions answered with
    kept | ⟨data, _, inserted⟩ | ⟨p, revokedAt, updated⟩ | ⟨id, next, revokedAt, _, updated⟩ |
      ⟨id, lastActivityAt, updated⟩
  · exact ⟨row, by rw [Store.sessionOf, kept, found], revoked⟩
  · obtain ⟨there, key⟩ := Table.get_eq_some.mp found
    have apart := (Table.insert_eq_some.mp inserted).2 row there key
    exact ⟨row, by rw [Store.sessionOf, Table.get_insert inserted, if_neg apart, found], revoked⟩
  · refine ⟨_, by rw [Store.sessionOf, updated, Store.updateSessions, Table.get_update, found]; rfl, ?_⟩
    dsimp only
    split
    · rfl
    · exact revoked
  · refine ⟨_, by rw [Store.sessionOf, updated, Table.get_update, found]; rfl, ?_⟩
    dsimp only
    split
    · rfl
    · exact revoked
  · refine ⟨_, by rw [Store.sessionOf, updated, Table.get_update, found]; rfl, ?_⟩
    dsimp only
    split <;> exact revoked

/-- The token that an exchange was for is spent. -/
theorem ExchangedFor.spent {row : Session} {signedIn : SignedIn}
    (exchanged : ExchangedFor crypto s s' row signedIn)
    (found : s.sessionOf crypto refreshToken = some row) : Spent crypto refreshToken s' := by
  obtain ⟨new, revokedAt, _, rows⟩ := exchanged
  obtain ⟨there, key⟩ := Table.get_eq_some.mp found
  have kept : row.replaced new.id revokedAt ∈ s'.sessions.rows := by
    rw [rows]
    exact List.mem_append_left _ (List.mem_map.mpr ⟨row, there, if_pos rfl⟩)
  exact ⟨_, Table.get_eq_some.mpr ⟨kept, key⟩, rfl⟩

/-- One of the calls has exchanged the token for a new session. -/
def Rotated (calls : List (Call AuthIface Request Response)) (refreshToken : String) : Prop :=
  ∃ call ∈ calls, ∃ client result, call.request = .refresh client refreshToken ∧
    call.result = .ok (.refresh result) ∧ result.session.isSome

/-- The call exchanged the token for a new session. -/
def rotates (refreshToken : String) (call : Call AuthIface Request Response) : Bool :=
  match call.request, call.result with
  | .refresh _ presented, .ok (.refresh result) =>
      presented = refreshToken && result.session.isSome
  | _, _ => false

theorem rotated_iff {calls : List (Call AuthIface Request Response)} :
    Rotated calls refreshToken ↔ calls.any (rotates refreshToken) = true := by
  rw [List.any_eq_true]
  refine exists_congr fun call => and_congr_right fun _ => ?_
  rcases call with ⟨request, answer⟩
  constructor
  · rintro ⟨client, result, rfl, rfl, exchanged⟩
    simpa [rotates] using exchanged
  · intro rotates
    unfold Auth.rotates at rotates
    split at rotates
    · rename_i client presented result requested returned
      obtain ⟨rfl, exchanged⟩ := by simpa using rotates
      exact ⟨client, result, requested, returned, exchanged⟩
    · cases rotates

instance {calls : List (Call AuthIface Request Response)} : Decidable (Rotated calls refreshToken) :=
  decidable_of_iff _ rotated_iff.symm

theorem Rotated.spent {guard : Store → Request → Prop}
    {calls : List (Call AuthIface Request Response)}
    (rotated : Rotated calls refreshToken)
    (served : (service crypto config).Serves guard s calls s') : Spent crypto refreshToken s' := by
  induction served with
  | refl =>
      obtain ⟨_, there, _⟩ := rotated
      cases there
  | call before allowed ran ih =>
      obtain ⟨call, there, client, result, requested, returned, exchanged⟩ := rotated
      rcases List.mem_append.mp there with earlier | last
      · have spent := ih ⟨call, earlier, client, result, requested, returned, exchanged⟩
        exact System.Exec.keeps
          (fun spent answered => spent.handle (Option.some.inj answered)) spent ran
      · cases List.mem_singleton.mp last
        cases requested
        cases returned
        cases serveRefresh_ok ran with
        | exchanged found _ exchange => exact exchange.spent found
        | _ => cases exchanged

/-- A rotated token is refused, and nothing else happens. -/
theorem refresh_of_rotated {guard : Store → Request → Prop} {start : Store}
    {calls : List (Call AuthIface Request Response)}
    (served : (service crypto config).Serves guard start calls s)
    (rotated : Rotated calls refreshToken)
    (refreshed : Refreshed crypto refreshToken s result s') :
    result = ⟨false, none⟩ ∧ s'.sessions = s.sessions := by
  obtain ⟨row, found, revoked⟩ := rotated.spent served
  cases refreshed with
  | unknown _ => exact ⟨rfl, rfl⟩
  | revoked _ _ => exact ⟨rfl, rfl⟩
  | expired _ _ => exact ⟨rfl, rfl⟩
  | exchanged found' unrevoked _ =>
      cases Option.some.inj (found.symm.trans found')
      rw [unrevoked] at revoked
      cases revoked

/-! ## Theft detection -/

/-- What theft detection promises of a call of `refreshSession` after `calls`: a token
that has been rotated is reported and ends every session of its identity; the token of
an unrevoked session that does not expire before the call ends is exchanged for one new
session. -/
structure DetectsTheft (crypto : Crypto) (calls : List (Call AuthIface Request Response))
    (refreshToken : String) (s : Store) (result : RefreshResult) (s' : Store) : Prop where
  reuse : Rotated calls refreshToken → result.breached = true ∧
    ∀ row, s.sessionOf crypto refreshToken = some row → ∀ other ∈ s'.sessions.rows,
      other.isOf row.organizationId row.userId → other.revokedAt.isSome
  exchange : ∀ row refreshExpiresAt, s.sessionOf crypto refreshToken = some row →
    row.revokedAt = none → row.refreshExpiresAt = some refreshExpiresAt →
    s'.clock ≤ refreshExpiresAt →
    ∃ signedIn, result = ⟨false, some signedIn⟩ ∧ ExchangedFor crypto s s' row signedIn

/-- Theft detection works exactly for the tokens that have not been rotated. -/
theorem detectsTheft_iff {guard : Store → Request → Prop} {start : Store}
    {calls : List (Call AuthIface Request Response)}
    (served : (service crypto config).Serves guard start calls s)
    (ran : (service crypto config).Exec (serveRequest crypto config (.refresh client refreshToken)) s
      (.ok (.refresh result)) s') :
    DetectsTheft crypto calls refreshToken s result s' ↔ ¬ Rotated calls refreshToken := by
  have refreshed := serveRefresh_ok ran
  constructor
  · intro detects rotated
    have breached := (detects.reuse rotated).1
    rw [(refresh_of_rotated served rotated refreshed).1] at breached
    cases breached
  · intro fresh
    refine ⟨fun rotated => (fresh rotated).elim, fun row limit found unrevoked expires inTime => ?_⟩
    cases refreshed with
    | unknown absent => rw [absent] at found; cases found
    | revoked found' revoked =>
        cases Option.some.inj (found'.symm.trans found)
        rw [unrevoked] at revoked
        cases revoked
    | expired found' expired =>
        cases Option.some.inj (found'.symm.trans found)
        have late := expired limit expires
        exact (Int.not_lt.mpr inTime late).elim
    | exchanged found' _ exchanged =>
        cases Option.some.inj (found'.symm.trans found)
        exact ⟨_, rfl, exchanged⟩

end

/-! ### A rotated token presented again -/

def memberLogin : Request := .login {
  email := "user@org"
  organizationId := "org"
  password := "secret" }

/-- The choices of `createSession` when the random source yields `random` three times. -/
def sessionChoices (random : String) : List Choice :=
  List.replicate 3 { token := random } ++ quiet 3

/-- A login, and a refresh with the token it returned. -/
def rotation : List (Request × List Choice) :=
  [(memberLogin, quiet 2 ++ sessionChoices "a"),
   (.refresh {} "rtk_a", quiet 2 ++ sessionChoices "b" ++ quiet 2)]

def rotationRun : List (Call AuthIface Request Response) × Store :=
  ((service plainCrypto plainConfig).serve (fun _ _ => true) memberStore rotation).get
    (by decide)

theorem rotationRun_served : (service plainCrypto plainConfig).Serves (fun _ _ => True) memberStore
    rotationRun.1 rotationRun.2 :=
  .of_serve_get (fun _ _ _ => trivial) _

def replay : Except AuthError Response × Store :=
  ((service plainCrypto plainConfig).alone (serveRequest plainCrypto plainConfig (.refresh {} "rtk_a"))
    (quiet 1) rotationRun.2).get (by decide)

/-- The rotated token is presented again: nothing is reported, and its successor lives on. -/
theorem replay_undetected :
    ∃ (calls : List (Call AuthIface Request Response)) (s s' : Store) (result : RefreshResult),
      (service plainCrypto plainConfig).Serves (fun _ _ => True) memberStore calls s ∧
      (service plainCrypto plainConfig).Exec
        (serveRequest plainCrypto plainConfig (.refresh {} "rtk_a")) s (.ok (.refresh result)) s' ∧
      Rotated calls "rtk_a" ∧ result.breached = false ∧
      (∃ row ∈ s'.sessions.rows, row.isOf "org" "user" ∧ row.revokedAt = none) ∧
      ¬ DetectsTheft plainCrypto calls "rtk_a" s result s' := by
  have rotated : Rotated rotationRun.1 "rtk_a" := by decide
  have answered : replay.1 = .ok (.refresh ⟨false, none⟩) := by decide
  have alive : ∃ row ∈ replay.2.sessions.rows, row.isOf "org" "user" ∧ row.revokedAt = none := by
    decide
  have ran : (service plainCrypto plainConfig).Exec
      (serveRequest plainCrypto plainConfig (.refresh {} "rtk_a")) rotationRun.2 replay.1 replay.2 :=
    .of_alone_get _
  rw [answered] at ran
  refine ⟨_, _, _, _, rotationRun_served, ran, rotated, rfl, alive, fun detects => ?_⟩
  cases (detects.reuse rotated).1

/-- The token that is current after the rotation is exchanged as promised. -/
theorem successor_detectsTheft :
    ∃ (s' : Store) (result : RefreshResult),
      (service plainCrypto plainConfig).Exec
        (serveRequest plainCrypto plainConfig (.refresh {} "rtk_b")) rotationRun.2
        (.ok (.refresh result)) s' ∧
      result.session.isSome ∧
      DetectsTheft plainCrypto rotationRun.1 "rtk_b" rotationRun.2 result s' := by
  let second := ((service plainCrypto plainConfig).alone
    (serveRequest plainCrypto plainConfig (.refresh {} "rtk_b"))
    (quiet 2 ++ sessionChoices "c" ++ quiet 2) rotationRun.2).get (by decide)
  have ran : (service plainCrypto plainConfig).Exec
      (serveRequest plainCrypto plainConfig (.refresh {} "rtk_b")) rotationRun.2 second.1 second.2 :=
    .of_alone_get _
  have answered : ∃ result, second.1 = .ok (.refresh result) ∧ result.session.isSome := by
    have exchanged : (match second.1 with
        | .ok (.refresh result) => result.session.isSome
        | _ => false) = true := by decide
    split at exchanged
    · exact ⟨_, by assumption, exchanged⟩
    · cases exchanged
  obtain ⟨result, returned, exchanged⟩ := answered
  rw [returned] at ran
  exact ⟨_, result, ran, exchanged,
    (detectsTheft_iff rotationRun_served ran).mpr (by decide)⟩

end Auth
