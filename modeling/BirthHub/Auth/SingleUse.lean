import BirthHub.Auth.Exchange
import BirthHub.Auth.RefreshReuse

/-!
# Secrets that are used once

A request reads the row of a secret and spends the secret later, by an update that does
not look at the row again, so two requests that read it one after the other both spend
it. When a request reads a secret only while no other request is between reading and
spending that same secret, every secret is spent at most once: `Exclusive` is the
invariant of such runs.
-/

namespace Auth

open Data Effect

/-! ## Secrets in the database -/

namespace Store

/-- The secret can be seen to be spent. -/
def spent (s : Store) : Secret → Prop
  | ⟨.session, id⟩ => ∃ row, s.sessions.get (.id id) = some row ∧ row.revokedAt.isSome
  | ⟨.challenge, id⟩ => ∃ row, s.challenges.get (.id id) = some row ∧ row.consumedAt.isSome
  | ⟨.code, id⟩ => ∃ row, s.recoveryCodes.get (.id id) = some row ∧ row.usedAt.isSome

/-- The lookup that finds the row of the secret. -/
def lookupOf (s : Store) : Secret → Option AuthOp
  | ⟨.session, id⟩ => do
      let row ← s.sessions.get (.id id)
      let hash ← row.refreshTokenHash
      pure (.findSessionByRefreshToken hash)
  | ⟨.challenge, id⟩ => do
      let row ← s.challenges.get (.id id)
      pure (.findMfaChallenge row.tokenHash)
  | ⟨.code, id⟩ => do
      let row ← s.recoveryCodes.get (.id id)
      pure (.findRecoveryCode row.userId row.codeHash)

variable {s s' : Store} {o o' : AuthOp} {choice : Choice} {answer : AuthIface.Answer o}
  {secret secret' : Secret}

theorem lookupOf_session {id : Nat} : s.lookupOf ⟨.session, id⟩ = some o ↔
    ∃ row hash, s.sessions.get (.id id) = some row ∧ row.refreshTokenHash = some hash ∧
      o = .findSessionByRefreshToken hash := by
  simp only [lookupOf, bind, pure, Option.bind_eq_some_iff, Option.some.injEq]
  constructor
  · rintro ⟨row, found, hash, same, rfl⟩
    exact ⟨row, hash, found, same, rfl⟩
  · rintro ⟨row, hash, found, same, rfl⟩
    exact ⟨row, found, hash, same, rfl⟩

theorem lookupOf_challenge {id : Nat} : s.lookupOf ⟨.challenge, id⟩ = some o ↔
    ∃ row, s.challenges.get (.id id) = some row ∧ o = .findMfaChallenge row.tokenHash := by
  simp only [lookupOf, bind, pure, Option.bind_eq_some_iff, Option.some.injEq]
  exact exists_congr fun _ => and_congr_right fun _ => eq_comm

theorem lookupOf_code {id : Nat} : s.lookupOf ⟨.code, id⟩ = some o ↔
    ∃ row, s.recoveryCodes.get (.id id) = some row ∧
      o = .findRecoveryCode row.userId row.codeHash := by
  simp only [lookupOf, bind, pure, Option.bind_eq_some_iff, Option.some.injEq]
  exact exists_congr fun _ => and_congr_right fun _ => eq_comm

theorem lookupOf_injective (finds : s.lookupOf secret = some o) (finds' : s.lookupOf secret' = some o) :
    secret = secret' := by
  rcases secret with ⟨_ | _ | _, id⟩ <;> rcases secret' with ⟨_ | _ | _, id'⟩
  case session.session =>
    obtain ⟨row, hash, found, same, rfl⟩ := lookupOf_session.mp finds
    obtain ⟨row', hash', found', same', equal⟩ := lookupOf_session.mp finds'
    cases equal
    obtain ⟨there, key⟩ := Table.get_eq_some.mp found
    obtain ⟨there', key'⟩ := Table.get_eq_some.mp found'
    have one := Table.eq_of_keys there there' (Session.mem_refreshTokenHash.mpr same)
      (Session.mem_refreshTokenHash.mpr same')
    rw [← Session.mem_id.mp key, ← Session.mem_id.mp key', one]
  case challenge.challenge =>
    obtain ⟨row, found, rfl⟩ := lookupOf_challenge.mp finds
    obtain ⟨row', found', equal⟩ := lookupOf_challenge.mp finds'
    obtain ⟨there, key⟩ := Table.get_eq_some.mp found
    obtain ⟨there', key'⟩ := Table.get_eq_some.mp found'
    have one := Table.eq_of_keys there there' (MfaChallenge.mem_tokenHash.mpr rfl)
      (MfaChallenge.mem_tokenHash.mpr (AuthOp.findMfaChallenge.inj equal).symm)
    rw [← MfaChallenge.mem_id.mp key, ← MfaChallenge.mem_id.mp key', one]
  case code.code =>
    obtain ⟨row, found, rfl⟩ := lookupOf_code.mp finds
    obtain ⟨row', found', equal⟩ := lookupOf_code.mp finds'
    obtain ⟨there, key⟩ := Table.get_eq_some.mp found
    obtain ⟨there', key'⟩ := Table.get_eq_some.mp found'
    obtain ⟨user, hash⟩ := AuthOp.findRecoveryCode.inj equal
    have one := Table.eq_of_keys there there' (MfaRecoveryCode.mem_code.mpr ⟨rfl, rfl⟩)
      (MfaRecoveryCode.mem_code.mpr ⟨user.symm, hash.symm⟩)
    rw [← MfaRecoveryCode.mem_id.mp key, ← MfaRecoveryCode.mem_id.mp key', one]
  all_goals
    simp only [lookupOf_session, lookupOf_challenge, lookupOf_code] at finds finds'
    grind

/-- What a lookup is for stays, and so does what is spent. -/
theorem handle_secret (answered : s.handle o choice = (answer, s')) :
    (∀ {o'}, s.lookupOf secret = some o' → s'.lookupOf secret = some o') ∧
      (s.spent secret → s'.spent secret) := by
  rcases secret with ⟨_ | _ | _, id⟩
  · have grows := handle_sessions_grow answered
    constructor
    · intro o' finds
      obtain ⟨row, hash, found, same, rfl⟩ := lookupOf_session.mp finds
      obtain ⟨row', found', keys, _⟩ := grows _ row found
      have key := Session.mem_refreshTokenHash.mpr same
      rw [← keys] at key
      exact lookupOf_session.mpr ⟨row', hash, found', Session.mem_refreshTokenHash.mp key, rfl⟩
    · rintro ⟨row, found, revoked⟩
      obtain ⟨row', found', _, kept⟩ := grows _ row found
      exact ⟨row', found', kept revoked⟩
  · have grows := handle_challenges_grow answered
    constructor
    · intro o' finds
      obtain ⟨row, found, rfl⟩ := lookupOf_challenge.mp finds
      obtain ⟨row', found', keys, _⟩ := grows _ row found
      have key := MfaChallenge.mem_tokenHash.mpr (rfl : row.tokenHash = row.tokenHash)
      rw [← keys] at key
      exact lookupOf_challenge.mpr ⟨row', found', by rw [MfaChallenge.mem_tokenHash.mp key]⟩
    · rintro ⟨row, found, consumed⟩
      obtain ⟨row', found', _, kept⟩ := grows _ row found
      exact ⟨row', found', kept consumed⟩
  · have grows := handle_recoveryCodes_grow answered
    constructor
    · intro o' finds
      obtain ⟨row, found, rfl⟩ := lookupOf_code.mp finds
      obtain ⟨row', found', keys, _⟩ := grows _ row found
      have key := MfaRecoveryCode.mem_code.mpr
        (⟨rfl, rfl⟩ : row.userId = row.userId ∧ row.codeHash = row.codeHash)
      rw [← keys] at key
      obtain ⟨user, hash⟩ := MfaRecoveryCode.mem_code.mp key
      exact lookupOf_code.mpr ⟨row', found', by rw [user, hash]⟩
    · rintro ⟨row, found, used⟩
      obtain ⟨row', found', _, kept⟩ := grows _ row found
      exact ⟨row', found', kept used⟩

/-- An unrevoked session that the lookup answers is unspent, and found by that lookup. -/
theorem finds_session {hash : String} {row : Session} (unrevoked : row.revokedAt = none)
    (answered : s.handle (.findSessionByRefreshToken hash) choice = (.ok (some row), s')) :
    s.lookupOf ⟨.session, row.id⟩ = some (.findSessionByRefreshToken hash) ∧
      ¬ s.spent ⟨.session, row.id⟩ := by
  obtain ⟨found, _⟩ := handle_read (o := .findSessionByRefreshToken hash) (fun _ => rfl) answered
  obtain ⟨there, key⟩ := Table.get_eq_some.mp found.symm
  have held : s.sessions.get (.id row.id) = some row :=
    Table.get_eq_some.mpr ⟨there, Session.mem_id.mpr rfl⟩
  refine ⟨lookupOf_session.mpr ⟨row, hash, held, Session.mem_refreshTokenHash.mp key, rfl⟩, ?_⟩
  rintro ⟨row', held', revoked⟩
  cases Option.some.inj (held.symm.trans held')
  rw [unrevoked] at revoked
  cases revoked

/-- An open challenge that the lookup answers is unspent, and found by that lookup. -/
theorem finds_challenge {hash : String} {row : MfaChallenge} (unconsumed : row.consumedAt = none)
    (answered : s.handle (.findMfaChallenge hash) choice = (.ok (some row), s')) :
    row.tokenHash = hash ∧ s.lookupOf ⟨.challenge, row.id⟩ = some (.findMfaChallenge hash) ∧
      ¬ s.spent ⟨.challenge, row.id⟩ := by
  obtain ⟨found, _⟩ := handle_read (o := .findMfaChallenge hash) (fun _ => rfl) answered
  obtain ⟨there, key⟩ := Table.get_eq_some.mp found.symm
  have same := MfaChallenge.mem_tokenHash.mp key
  have held : s.challenges.get (.id row.id) = some row :=
    Table.get_eq_some.mpr ⟨there, MfaChallenge.mem_id.mpr rfl⟩
  refine ⟨same, lookupOf_challenge.mpr ⟨row, held, by rw [same]⟩, ?_⟩
  rintro ⟨row', held', consumed⟩
  cases Option.some.inj (held.symm.trans held')
  rw [unconsumed] at consumed
  cases consumed

/-- A recovery code that the lookup answers is unspent, and found by that lookup. -/
theorem finds_code {userId codeHash : String} {row : MfaRecoveryCode}
    (answered : s.handle (.findRecoveryCode userId codeHash) choice = (.ok (some row), s')) :
    (row.userId = userId ∧ row.codeHash = codeHash) ∧
      s.lookupOf ⟨.code, row.id⟩ = some (.findRecoveryCode userId codeHash) ∧
      ¬ s.spent ⟨.code, row.id⟩ := by
  obtain ⟨found, _⟩ := handle_read (o := .findRecoveryCode userId codeHash) (fun _ => rfl) answered
  obtain ⟨found, unused⟩ := Option.filter_eq_some_iff.mp found.symm
  obtain ⟨there, key⟩ := Table.get_eq_some.mp found
  have same := MfaRecoveryCode.mem_code.mp key
  have held : s.recoveryCodes.get (.id row.id) = some row :=
    Table.get_eq_some.mpr ⟨there, MfaRecoveryCode.mem_id.mpr rfl⟩
  refine ⟨same, lookupOf_code.mpr ⟨row, held, by rw [same.1, same.2]⟩, ?_⟩
  rintro ⟨row', held', used⟩
  cases Option.some.inj (held.symm.trans held')
  rw [Option.isNone_iff_eq_none] at unused
  rw [unused] at used
  cases used

/-- What a statement spends is spent after it. -/
theorem handle_spends {r : o.Result} (spends : o.spends = some secret)
    (answered : s.handle o choice = (.ok r, s')) : s'.spent secret := by
  have performed := handle_ok answered
  cases o <;> try cases spends
  case replaceSession id next revokedAt =>
    cases found : s.sessions.get (.id id) with
    | none =>
        simp only [perform, updating, found] at performed
        cases (Prod.mk.inj performed).1
    | some row =>
        rw [updating_ok performed]
        have same := Session.mem_id.mp (Table.get_eq_some.mp found).2
        exact ⟨_, by rw [Table.get_update, found]; rfl, by simp [same]⟩
  case consumeMfaChallenge id consumedAt =>
    cases found : s.challenges.get (.id id) with
    | none =>
        simp only [perform, updating, found] at performed
        cases (Prod.mk.inj performed).1
    | some row =>
        rw [updating_ok performed]
        have same := MfaChallenge.mem_id.mp (Table.get_eq_some.mp found).2
        exact ⟨_, by rw [Table.get_update, found]; rfl, by simp [same]⟩
  case useRecoveryCode id usedAt =>
    cases found : s.recoveryCodes.get (.id id) with
    | none =>
        simp only [perform, updating, found] at performed
        cases (Prod.mk.inj performed).1
    | some row =>
        rw [updating_ok performed]
        have same := MfaRecoveryCode.mem_id.mp (Table.get_eq_some.mp found).2
        exact ⟨_, by rw [Table.get_update, found]; rfl, by simp [same]⟩

end Store

/-! ## Secrets in the trace -/

/-- The event has spent the secret. -/
def Spends (secret : Secret) (event : Event AuthIface) : Bool :=
  event.op.spends = some secret && event.answer.isOk

namespace Spends

variable {o : AuthOp} {answer : AuthIface.Answer o} {r : o.Result} {secret secret' : Secret} {i : Nat}

theorem of_none (spends : o.spends = none) : Spends secret ⟨i, o, answer⟩ = false := by
  simp [Spends, spends]

theorem of_ok (spends : o.spends = some secret) : Spends secret ⟨i, o, .ok r⟩ = true := by
  simp [Spends, spends, Except.isOk, Except.toBool]

theorem same (spending : Spends secret ⟨i, o, answer⟩ = true)
    (spends : o.spends = some secret') : secret = secret' := by
  simp only [Spends, spends, Bool.and_eq_true, decide_eq_true_eq] at spending
  exact (Option.some.inj spending.1).symm

end Spends

/-- How often the secret has been spent. -/
def timesSpent (trace : List (Event AuthIface)) (secret : Secret) : Nat :=
  trace.countP (Spends secret)

@[simp] theorem timesSpent_cons {trace : List (Event AuthIface)} {secret : Secret}
    {event : Event AuthIface} :
    timesSpent (event :: trace) secret =
      timesSpent trace secret + if Spends secret event then 1 else 0 :=
  List.countP_cons ..

/-- Two requests that have each spent a secret that was spent once are one request. -/
theorem spender_unique {trace : List (Event AuthIface)} {secret : Secret}
    {event event' : Event AuthIface} (once : timesSpent trace secret ≤ 1)
    (there : event ∈ trace) (spends : Spends secret event = true) (there' : event' ∈ trace)
    (spends' : Spends secret event' = true) : event.actor = event'.actor := by
  rw [timesSpent, List.countP_eq_length_filter] at once
  have inFilter : event ∈ trace.filter (Spends secret) := List.mem_filter.mpr ⟨there, spends⟩
  have inFilter' : event' ∈ trace.filter (Spends secret) := List.mem_filter.mpr ⟨there', spends'⟩
  generalize trace.filter (Spends secret) = spending at once inFilter inFilter'
  rcases spending with _ | ⟨only, _ | ⟨second, rest⟩⟩
  · cases inFilter
  · rw [List.mem_singleton.mp inFilter, List.mem_singleton.mp inFilter']
  · simp at once

/-- The kind of secret that a statement spends. -/
def AuthOp.spendsKind (o : AuthOp) : Option SecretKind := o.spends.map Secret.kind

/-- The event has looked a secret up and found it. -/
def Finds (o : AuthOp) (event : Event AuthIface) : Prop :=
  event.op = o ∧ match event.op, event.answer with
    | .findSessionByRefreshToken _, .ok (some _) => True
    | .findMfaChallenge _, .ok (some _) => True
    | .findRecoveryCode .., .ok (some _) => True
    | _, _ => False

/-! ## The invariant -/

/-- The lookup of the secret by which a request identifies itself. -/
def Request.reads (crypto : Crypto) : Request → Option AuthOp
  | .refresh _ refreshToken => some (.findSessionByRefreshToken (crypto.sha256 refreshToken))
  | .verifyMfa input => some (.findMfaChallenge (crypto.sha256 input.challengeToken))
  | _ => none

namespace Stage

/-- The same lookup, once it has found an unspent secret. -/
def primary : Stage → Option AuthOp
  | .holding hash _ => some (.findSessionByRefreshToken hash)
  | .verifying challenge | .redeeming challenge _ | .consuming challenge | .creating challenge =>
      some (.findMfaChallenge challenge.tokenHash)
  | _ => none

/-- A request that holds a secret is running, and may still spend it. -/
theorem of_holds {s : Stage} {secret : Secret} {o : AuthOp} (held : (secret, o) ∈ s.holds) :
    s.progress = .running ∧ secret.kind ∈ s.unspent := by
  cases s with
  | holding hash row =>
      cases List.mem_singleton.mp held
      exact ⟨rfl, List.mem_cons_self⟩
  | verifying challenge | consuming challenge =>
      cases List.mem_singleton.mp held
      exact ⟨rfl, List.mem_cons_self⟩
  | redeeming challenge code =>
      refine ⟨rfl, ?_⟩
      rcases List.mem_cons.mp held with first | second
      · cases first
        exact List.mem_cons_self
      · cases List.mem_singleton.mp second
        exact List.mem_cons_of_mem _ List.mem_cons_self
  | _ => cases held

/-- The request has spent the secret by which it identifies itself. -/
def isWon : Stage → Bool
  | .creating _ | .returned true => true
  | _ => false

end Stage

abbrev StageWorld : Type := World AuthIface Request Store Stage

/-- What holds when no request reads a secret that another one is about to spend. -/
structure Exclusive (crypto : Crypto) (a : StageWorld) : Prop where
  actors : ∀ event ∈ a.trace, event.actor < a.threads.length
  unspent : ∀ {i : Nat} {u : Thread Request Stage}, a.threads[i]? = some u → ∀ kind ∈ u.body.unspent, ∀ event ∈ a.trace,
    event.actor = i → event.op.spendsKind ≠ some kind
  /-- A secret that is held was found by the lookup that the holder made, and is unspent. -/
  held : ∀ {i : Nat} {u : Thread Request Stage} {secret : Secret} {o : AuthOp},
    a.threads[i]? = some u → (secret, o) ∈ u.body.holds → a.store.lookupOf secret = some o ∧
      (∃ event ∈ a.trace, event.actor = i ∧ Finds o event) ∧ timesSpent a.trace secret = 0
  sole : ∀ {i j : Nat} {u v : Thread Request Stage} {secret : Secret} {o o' : AuthOp},
    a.threads[i]? = some u → a.threads[j]? = some v → (secret, o) ∈ u.body.holds →
    (secret, o') ∈ v.body.holds → i = j
  once : ∀ secret, timesSpent a.trace secret ≤ 1
  spent : ∀ {secret}, timesSpent a.trace secret ≠ 0 → a.store.spent secret
  primary : ∀ {i : Nat} {u : Thread Request Stage} {o : AuthOp}, a.threads[i]? = some u →
    u.body.primary = some o → u.tag.reads crypto = some o
  won : ∀ {i : Nat} {u : Thread Request Stage}, a.threads[i]? = some u → u.body.isWon = true →
    u.tag.reads crypto ≠ none → ∃ o secret, u.tag.reads crypto = some o ∧
      a.store.lookupOf secret = some o ∧ ∃ event ∈ a.trace, event.actor = i ∧ Spends secret event = true

section Invariant

variable {crypto : Crypto} {config : ApiConfig} {a : StageWorld} {i : Nat}
  {u : Thread Request Stage} {o : AuthOp} {choice : Choice} {answer : AuthIface.Answer o}
  {store' : Store} {s' : Stage}

/-- A step keeps the invariant when each secret held after it was held and is not spent by
it, or is read by it while nobody else holds it, and when it spends only what was held. -/
theorem Exclusive.advance (inv : Exclusive crypto a) (found : a.threads[i]? = some u)
    (answered : a.store.handle o choice = (answer, store'))
    (unspent : ∀ kind ∈ s'.unspent, kind ∈ u.body.unspent ∧ o.spendsKind ≠ some kind)
    (held : ∀ secret o', (secret, o') ∈ s'.holds →
      ((secret, o') ∈ u.body.holds ∧ Spends secret ⟨i, o, answer⟩ = false) ∨
      (o' = o ∧ o.spends = none ∧ Finds o ⟨i, o, answer⟩ ∧ a.store.lookupOf secret = some o ∧
        timesSpent a.trace secret = 0 ∧
        ∀ j v o'', j ≠ i → a.threads[j]? = some v → (secret, o'') ∉ v.body.holds))
    (spends : ∀ secret, Spends secret ⟨i, o, answer⟩ = true →
      (∃ o', (secret, o') ∈ u.body.holds) ∧ store'.spent secret)
    (primary : ∀ o', s'.primary = some o' → u.tag.reads crypto = some o')
    (won : s'.isWon = true → u.body.isWon = true ∨ u.tag.reads crypto = none ∨
      ∃ o' secret, u.tag.reads crypto = some o' ∧ (secret, o') ∈ u.body.holds ∧
        Spends secret ⟨i, o, answer⟩ = true) :
    Exclusive crypto (a.advance i s' store' ⟨i, o, answer⟩) := by
  have kept : ∀ {secret o'}, a.store.lookupOf secret = some o' → store'.lookupOf secret = some o' :=
    fun finds => (Store.handle_secret answered).1 finds
  constructor
  · intro event there
    rw [World.advance_length]
    rcases List.mem_cons.mp there with rfl | before
    · exact (List.getElem?_eq_some_iff.mp found).1
    · exact inv.actors event before
  · intro j v after kind there event inTrace own
    rcases World.advance_cases found after with ⟨rfl, rfl⟩ | ⟨other, same⟩
    · rcases List.mem_cons.mp inTrace with rfl | before
      · exact (unspent kind there).2
      · exact inv.unspent found kind (unspent kind there).1 event before own
    · rcases List.mem_cons.mp inTrace with rfl | before
      · exact (other own.symm).elim
      · exact inv.unspent same kind there event before own
  · intro j v secret o' after there
    rcases World.advance_cases found after with ⟨rfl, rfl⟩ | ⟨other, same⟩
    · rcases held secret o' there with ⟨before, unspends⟩ | ⟨rfl, unspends, reads, finds, none, _⟩
      · obtain ⟨finds, ⟨event, inTrace, own, op⟩, none⟩ := inv.held found before
        refine ⟨kept finds, ⟨event, List.mem_cons_of_mem _ inTrace, own, op⟩, ?_⟩
        simp [none, unspends]
      · refine ⟨kept finds, ⟨_, List.mem_cons_self, rfl, reads⟩, ?_⟩
        simp [none, Spends, unspends]
    · obtain ⟨finds, ⟨event, inTrace, own, op⟩, none⟩ := inv.held same there
      refine ⟨kept finds, ⟨event, List.mem_cons_of_mem _ inTrace, own, op⟩, ?_⟩
      have unspends : Spends secret ⟨i, o, answer⟩ = false := by
        rw [Bool.eq_false_iff]
        intro spending
        obtain ⟨⟨o'', mine⟩, _⟩ := spends secret spending
        exact other (inv.sole same found there mine)
      simp [none, unspends]
  · intro j k v w secret o₁ o₂ after after' there there'
    rcases World.advance_cases found after with ⟨rfl, rfl⟩ | ⟨other, same⟩ <;>
      rcases World.advance_cases found after' with ⟨rfl, rfl⟩ | ⟨other', same'⟩
    · rfl
    · rcases held secret o₁ there with ⟨before, _⟩ | ⟨_, _, _, _, _, alone⟩
      · exact inv.sole found same' before there'
      · exact (alone k w o₂ other' same' there').elim
    · rcases held secret o₂ there' with ⟨before, _⟩ | ⟨_, _, _, _, _, alone⟩
      · exact inv.sole same found there before
      · exact (alone j v o₁ other same there).elim
    · exact inv.sole same same' there there'
  · intro secret
    rw [World.advance_trace, timesSpent_cons]
    split
    · rename_i spending
      obtain ⟨⟨o', mine⟩, _⟩ := spends secret spending
      rw [(inv.held found mine).2.2]
    · exact inv.once secret
  · intro secret some
    rw [World.advance_trace, timesSpent_cons] at some
    by_cases spending : Spends secret ⟨i, o, answer⟩ = true
    · exact (spends secret spending).2
    · rw [if_neg spending] at some
      exact (Store.handle_secret answered).2 (inv.spent some)
  · intro j v o' after is
    rcases World.advance_cases found after with ⟨rfl, rfl⟩ | ⟨other, same⟩
    · exact primary o' is
    · exact inv.primary same is
  · intro j v after is reads
    rcases World.advance_cases found after with ⟨rfl, rfl⟩ | ⟨other, same⟩
    · rcases won is with before | none | ⟨o', secret, read, mine, spending⟩
      · obtain ⟨o', secret, read, finds, event, there, own, spends⟩ := inv.won found before reads
        exact ⟨o', secret, read, kept finds, event, List.mem_cons_of_mem _ there, own, spends⟩
      · exact (reads none).elim
      · exact ⟨o', secret, read, kept (inv.held found mine).1, _, List.mem_cons_self, rfl, spending⟩
    · obtain ⟨o', secret, read, finds, event, there, own, spends⟩ := inv.won same is reads
      exact ⟨o', secret, read, kept finds, event, List.mem_cons_of_mem _ there, own, spends⟩

/-- A statement that spends nothing, and leaves the request with what it had. -/
theorem Exclusive.keep (inv : Exclusive crypto a) (found : a.threads[i]? = some u)
    (answered : a.store.handle o choice = (answer, store'))
    (unspends : ∀ secret, Spends secret ⟨i, o, answer⟩ = false)
    (unspent : ∀ kind ∈ s'.unspent, kind ∈ u.body.unspent ∧ o.spendsKind ≠ some kind)
    (held : s'.holds ⊆ u.body.holds)
    (primary : ∀ o', s'.primary = some o' → u.body.primary = some o')
    (won : s'.isWon = true → u.body.isWon = true) :
    Exclusive crypto (a.advance i s' store' ⟨i, o, answer⟩) := by
  refine inv.advance found answered unspent (fun secret o' there => .inl ⟨held there, unspends secret⟩)
    (fun secret spending => ?_) (fun o' is => inv.primary found (primary o' is))
    fun is => .inl (won is)
  rw [unspends] at spending
  cases spending

theorem Exclusive.start (inv : Exclusive crypto a) {request : Request} {c : Change Request Store}
    (spawns : c = { store := a.store, spawn := [request] }) :
    Exclusive crypto (a.change (startOf crypto config) c) := by
  subst spawns
  have starts : (startOf crypto config request).holds = [] ∧
      (startOf crypto config request).primary = none ∧
      (startOf crypto config request).isWon = false := by
    cases request <;> simp only [startOf] <;> first
      | exact ⟨rfl, rfl, rfl⟩
      | cases serveRequest crypto config _ <;> exact ⟨rfl, rfl, rfl⟩
  obtain ⟨holds, primary, won⟩ := starts
  -- a thread was there before, or is the new one, which is at its start
  have threads {j : Nat} {v : Thread Request Stage}
      (after : (a.change (startOf crypto config) { store := a.store, spawn := [request] }).threads[j]? =
        some v) :
      (∃ t, a.threads[j]? = some t ∧ v.tag = t.tag ∧ v.body = t.body) ∨
      (a.threads.length ≤ j ∧ v.body = startOf crypto config request) := by
    rcases World.change_cases after with ⟨t, before, rfl⟩ | ⟨tag, beyond, spawned, rfl⟩
    · exact .inl ⟨t, before, rfl, rfl⟩
    · refine .inr ⟨beyond, ?_⟩
      obtain ⟨_, same⟩ := List.getElem?_eq_some_iff.mp spawned
      simp only [List.getElem_singleton] at same
      rw [same]
  constructor
  · intro event there
    have before := inv.actors event there
    rw [World.change_length]
    exact Nat.lt_add_right _ before
  · intro j v after kind there event inTrace own
    rcases threads after with ⟨t, before, _, body⟩ | ⟨beyond, _⟩
    · exact inv.unspent before kind (body ▸ there) event inTrace own
    · have earlier := inv.actors event inTrace
      omega
  · intro j v secret o after there
    rcases threads after with ⟨t, before, _, body⟩ | ⟨_, body⟩
    · exact inv.held before (body ▸ there)
    · rw [body, holds] at there
      cases there
  · intro j k v w secret o o' after after' there there'
    rcases threads after with ⟨t, before, _, body⟩ | ⟨_, body⟩
    · rcases threads after' with ⟨t', before', _, body'⟩ | ⟨_, body'⟩
      · exact inv.sole before before' (body ▸ there) (body' ▸ there')
      · rw [body', holds] at there'
        cases there'
    · rw [body, holds] at there
      cases there
  · exact inv.once
  · exact inv.spent
  · intro j v o after is
    rcases threads after with ⟨t, before, tag, body⟩ | ⟨_, body⟩
    · exact tag ▸ inv.primary before (body ▸ is)
    · rw [body, primary] at is
      cases is
  · intro j v after is reads
    rcases threads after with ⟨t, before, tag, body⟩ | ⟨_, body⟩
    · rw [tag] at reads ⊢
      exact inv.won before (body ▸ is) reads
    · rw [body, won] at is
      cases is

/-- A request between finding a secret by the lookup `o` and spending one of its kind. -/
def Between (w : World AuthIface Request Store (Prog AuthIface Response)) (j : Nat) (o : AuthOp) :
    Prop :=
  (∃ t, w.threads[j]? = some t ∧ t.body.outcome = .running) ∧
    (∃ event ∈ w.trace, event.actor = j ∧ Finds o event) ∧
    ∀ event ∈ w.trace, event.actor = j → event.op.spendsKind ≠ o.lookup

/-- A request reads a secret only while no other request is between reading and spending
it. -/
def OneAtATime (w : World AuthIface Request Store (Prog AuthIface Response)) :
    Act Choice Request → Prop
  | .run i _ => ∀ t o k, w.threads[i]? = some t → t.body = .op o k → o.lookup.isSome →
      ∀ j, j ≠ i → ¬ Between w j o
  | .env _ => True

/-- A secret that a request is about to read is held by no other request. -/
theorem Exclusive.unheld {w : World AuthIface Request Store (Prog AuthIface Response)}
    {t : Thread Request (Prog AuthIface Response)} {k : AuthIface.Answer o → Prog AuthIface Response}
    {secret : Secret} (inv : Exclusive crypto a) (refines : (exchanges crypto config).Refines w a)
    (allowed : OneAtATime w (.run i choice)) (there : w.threads[i]? = some t)
    (pending : t.body = .op o k) (finds : a.store.lookupOf secret = some o)
    (lookup : o.lookup = some secret.kind) :
    ∀ j v o', j ≠ i → a.threads[j]? = some v → (secret, o') ∉ v.body.holds := by
  intro j v o' other found held
  obtain ⟨finds', ⟨event, inTrace, own, op⟩, _⟩ := inv.held found held
  cases Option.some.inj (finds.symm.trans finds')
  obtain ⟨t', there', _, _, follows⟩ := refines.thread_of_stage found
  refine allowed t o k there pending (by simp [lookup]) j other
    ⟨⟨t', there', ?_⟩, ⟨event, refines.trace ▸ inTrace, own, op⟩, fun event' inTrace' own' => ?_⟩
  · rw [← Discipline.progress_eq (D := exchanges crypto config) follows]
    exact (Stage.of_holds held).1
  · have kind := (Stage.of_holds held).2
    rw [lookup]
    exact inv.unspent found _ kind event' (refines.trace.symm ▸ inTrace') own'

/-- Every step of a run that reads one secret at a time keeps the invariant. -/
theorem Exclusive.run {w : World AuthIface Request Store (Prog AuthIface Response)}
    {t : Thread Request (Prog AuthIface Response)} {k : AuthIface.Answer o → Prog AuthIface Response}
    (inv : Exclusive crypto a) (refines : (exchanges crypto config).Refines w a)
    (allowed : OneAtATime w (.run i choice)) (there : w.threads[i]? = some t)
    (pending : t.body = .op o k) (found : a.threads[i]? = some u)
    (answered : a.store.handle o choice = (answer, store'))
    (step : Stage.Step crypto u.tag u.body o answer s') :
    Exclusive crypto (a.advance i s' store' ⟨i, o, answer⟩) := by
  have unread {secret : Secret} (unspent : ¬ a.store.spent secret) :
      timesSpent a.trace secret = 0 := by
    by_contra some
    exact unspent (inv.spent some)
  rcases u with ⟨tag, stage, settled⟩
  cases step with
  | stay running neutral =>
      refine inv.keep found answered (fun _ => Spends.of_none neutral.2) (fun kind there => ⟨there, ?_⟩)
        (fun _ there => there) (fun _ is => is) fun is => is
      simp [AuthOp.spendsKind, neutral.2]
  | fail running =>
      refine inv.keep found answered (fun secret => ?_) (by simp [Stage.unspent])
        (by simp [Stage.holds]) (by simp [Stage.primary]) (by simp [Stage.isWon])
      simp [Spends, Except.isOk, Except.toBool]
  | refuse running spends =>
      exact inv.keep found answered (fun _ => Spends.of_none spends) (by simp [Stage.unspent])
        (by simp [Stage.holds]) (by simp [Stage.primary]) (by simp [Stage.isWon])
  | reject running spends =>
      exact inv.keep found answered (fun _ => Spends.of_none spends) (by simp [Stage.unspent])
        (by simp [Stage.holds]) (by simp [Stage.primary]) (by simp [Stage.isWon])
  | miss =>
      exact inv.keep found answered (fun _ => Spends.of_none rfl) (by simp [Stage.unspent])
        (by simp [Stage.holds]) (by simp [Stage.primary]) (by simp [Stage.isWon])
  | hold unrevoked =>
      obtain ⟨finds, unspent⟩ := Store.finds_session unrevoked answered
      refine inv.advance found answered (fun kind here => ⟨here, by simp [AuthOp.spendsKind, AuthOp.spends]⟩)
        (fun secret o' here => ?_) (fun secret spending => ?_) (fun o' is => is) (by simp [Stage.isWon])
      · cases List.mem_singleton.mp here
        exact .inr ⟨rfl, rfl, ⟨rfl, trivial⟩, finds, unread unspent,
          inv.unheld refines allowed there pending finds rfl⟩
      · rw [Spends.of_none rfl] at spending
        cases spending
  | @replace _ hash row next revokedAt =>
      have mine : ((⟨.session, row.id⟩, .findSessionByRefreshToken hash) : Secret × AuthOp) ∈
          (Stage.holding hash row).holds := List.mem_singleton.mpr rfl
      refine inv.advance found answered (by simp [Stage.unspent]) (by simp [Stage.holds])
        (fun secret spending => ?_) (by simp [Stage.primary]) fun _ => .inr (.inr ?_)
      · cases Spends.same spending rfl
        exact ⟨⟨_, mine⟩, Store.handle_spends rfl answered⟩
      · exact ⟨_, _, inv.primary found rfl, mine, Spends.of_ok rfl⟩
  | @challenge input challenge unconsumed =>
      obtain ⟨same, finds, unspent⟩ := Store.finds_challenge unconsumed answered
      refine inv.advance found answered (fun kind here => ⟨here, by simp [AuthOp.spendsKind, AuthOp.spends]⟩)
        (fun secret o' here => ?_) (fun secret spending => ?_) (fun o' is => ?_) (by simp [Stage.isWon])
      · cases List.mem_singleton.mp here
        rw [same]
        exact .inr ⟨rfl, rfl, ⟨rfl, trivial⟩, finds, unread unspent,
          inv.unheld refines allowed there pending finds rfl⟩
      · rw [Spends.of_none rfl] at spending
        cases spending
      · rw [← is]
        simp only [Stage.primary, Request.reads, same]
  | verify neutral =>
      refine inv.keep found answered (fun _ => Spends.of_none neutral.2) (fun kind there => ?_)
        (fun _ there => there) (fun _ is => is) (by simp [Stage.isWon])
      refine ⟨?_, by simp [AuthOp.spendsKind, neutral.2]⟩
      simp_all [Stage.unspent]
  | @code _ challenge userId codeHash code =>
      obtain ⟨⟨user, hash⟩, finds, unspent⟩ := Store.finds_code answered
      refine inv.advance found answered (fun kind here => ⟨here, by simp [AuthOp.spendsKind, AuthOp.spends]⟩)
        (fun secret o' here => ?_) (fun secret spending => ?_) (fun o' is => inv.primary found is)
        (by simp [Stage.isWon])
      · rcases List.mem_cons.mp here with first | second
        · exact .inl ⟨List.mem_singleton.mpr first, Spends.of_none rfl⟩
        · cases List.mem_singleton.mp second
          rw [user, hash]
          exact .inr ⟨rfl, rfl, ⟨rfl, trivial⟩, finds, unread unspent,
            inv.unheld refines allowed there pending finds rfl⟩
      · rw [Spends.of_none rfl] at spending
        cases spending
  | @redeem _ challenge code usedAt =>
      have mine : ((⟨.code, code.id⟩, .findRecoveryCode code.userId code.codeHash) :
          Secret × AuthOp) ∈ (Stage.redeeming challenge code).holds :=
        List.mem_cons_of_mem _ List.mem_cons_self
      refine inv.advance found answered (fun kind here => ?_) (fun secret o' here => ?_)
        (fun secret spending => ?_) (fun o' is => inv.primary found is) (by simp [Stage.isWon])
      · cases List.mem_singleton.mp here
        exact ⟨List.mem_cons_self, by simp [AuthOp.spendsKind, AuthOp.spends]⟩
      · cases List.mem_singleton.mp here
        exact .inl ⟨List.mem_cons_self, by simp [Spends, AuthOp.spends]⟩
      · cases Spends.same spending rfl
        exact ⟨⟨_, mine⟩, Store.handle_spends rfl answered⟩
  | @consume _ challenge consumedAt =>
      have mine : ((⟨.challenge, challenge.id⟩, .findMfaChallenge challenge.tokenHash) :
          Secret × AuthOp) ∈ (Stage.consuming challenge).holds := List.mem_singleton.mpr rfl
      refine inv.advance found answered (by simp [Stage.unspent]) (by simp [Stage.holds])
        (fun secret spending => ?_) (fun o' is => inv.primary found is) fun _ => .inr (.inr ?_)
      · cases Spends.same spending rfl
        exact ⟨⟨_, mine⟩, Store.handle_spends rfl answered⟩
      · exact ⟨_, _, inv.primary found rfl, mine, Spends.of_ok rfl⟩
  | finish neutral =>
      exact inv.keep found answered (fun _ => Spends.of_none neutral.2) (by simp [Stage.unspent])
        (by simp [Stage.holds]) (by simp [Stage.primary]) fun _ => rfl

end Invariant

/-! ## Single use -/

/-- Thread `i` has handed out the session of an exchange, for a request that satisfies
`presents`. -/
def HandedOut (w : World AuthIface Request Store (Prog AuthIface Response))
    (presents : Request → Prop) (i : Nat) : Prop :=
  ∃ t response, w.threads[i]? = some t ∧ presents t.tag ∧ t.body = .pure response ∧
    response.exchanged = true

/-- No refresh token and no challenge has led two requests to a session, and no recovery
code has been accepted twice. -/
structure SingleUse (w : World AuthIface Request Store (Prog AuthIface Response)) : Prop where
  refreshToken : ∀ {refreshToken : String} {i j : Nat},
    HandedOut w (fun request => ∃ client, request = .refresh client refreshToken) i →
    HandedOut w (fun request => ∃ client, request = .refresh client refreshToken) j → i = j
  challenge : ∀ {challengeToken : String} {i j : Nat},
    HandedOut w (fun request => ∃ input, request = .verifyMfa input ∧
      input.challengeToken = challengeToken) i →
    HandedOut w (fun request => ∃ input, request = .verifyMfa input ∧
      input.challengeToken = challengeToken) j → i = j
  recoveryCode : ∀ id, timesSpent w.trace ⟨.code, id⟩ ≤ 1

/-- The service before the first request. -/
def idle (store : Store) : World AuthIface Request Store (Prog AuthIface Response) :=
  ⟨store, [], []⟩

section SingleUse

variable {crypto : Crypto} {config : ApiConfig} {a : StageWorld} {store : Store}
  {w : World AuthIface Request Store (Prog AuthIface Response)}

theorem exclusive_idle : Exclusive crypto ⟨store, [], []⟩ where
  actors := by simp
  unspent found := by simp at found
  held found := by simp at found
  sole found := by simp at found
  once secret := by simp [timesSpent]
  spent some := by simp [timesSpent] at some
  primary found := by simp at found
  won found := by simp at found

/-- Two requests that have handed out a session after the same lookup are one. -/
theorem Exclusive.winner_unique (inv : Exclusive crypto a)
    (refines : (exchanges crypto config).Refines w a) {presents : Request → Prop} {o : AuthOp}
    (reads : ∀ request, presents request → request.reads crypto = some o) {i j : Nat}
    (first : HandedOut w presents i) (second : HandedOut w presents j) : i = j := by
  have winner {i : Nat} (handed : HandedOut w presents i) :
      ∃ secret, a.store.lookupOf secret = some o ∧
        ∃ event ∈ a.trace, event.actor = i ∧ Spends secret event = true := by
    obtain ⟨t, response, there, presented, returned, exchanged⟩ := handed
    obtain ⟨u, found, tag, _, ends⟩ := refines.stage_of_thread there
    rw [returned] at ends
    have stage : u.body = .returned true := exchanged ▸ ends
    have read := reads _ (tag ▸ presented)
    obtain ⟨o', secret, read', finds, spender⟩ := inv.won found (by rw [stage]; rfl) (by simp [read])
    cases Option.some.inj (read.symm.trans read')
    exact ⟨secret, finds, spender⟩
  obtain ⟨secret, finds, event, there, rfl, spends⟩ := winner first
  obtain ⟨secret', finds', event', there', rfl, spends'⟩ := winner second
  cases Store.lookupOf_injective finds finds'
  exact spender_unique (inv.once secret) there spends there' spends'

/-- While each secret is read by one request at a time, every secret is used once. -/
theorem singleUse_of_oneAtATime
    (reached : (service crypto config).Run OneAtATime (idle store) w) : SingleUse w := by
  have first : (exchanges crypto config).Refines (idle store) ⟨store, [], []⟩ :=
    ⟨rfl, rfl, rfl, by simp [idle]⟩
  obtain ⟨a, refines, inv⟩ : ∃ a, (exchanges crypto config).Refines w a ∧ Exclusive crypto a := by
    refine System.Run.invariant serveRequest_follows
      (fun inv refines allowed there pending found answered step => ?_)
      (fun inv _ _ change => ?_) first exclusive_idle reached
    · exact inv.run refines allowed there pending found (Option.some.inj answered) step
    · exact inv.start (Option.some.inj change).symm
  constructor
  · intro refreshToken i j
    apply inv.winner_unique refines (o := .findSessionByRefreshToken (crypto.sha256 refreshToken))
    rintro _ ⟨client, rfl⟩
    rfl
  · intro challengeToken i j
    apply inv.winner_unique refines (o := .findMfaChallenge (crypto.sha256 challengeToken))
    rintro _ ⟨input, rfl, rfl⟩
    rfl
  · intro id
    rw [← refines.trace]
    exact inv.once _

end SingleUse

/-! ### Two refreshes with one token -/

/-- The member of `memberStore` after a login, whose refresh token is `rtk_a`. -/
def signedInStore : Store :=
  (((service plainCrypto plainConfig).serve (fun _ _ => true) memberStore
    [(memberLogin, quiet 2 ++ sessionChoices "a")]).get (by decide)).2

/-- Thread `i` awaits its next operations with the given choices. -/
def awaits (i : Nat) (choices : List Choice) : List (Act Choice Request) :=
  choices.map (.run i)

def refreshesTokenA (request : Request) : Prop := ∃ client, request = .refresh client "rtk_a"

/-- Evaluates `HandedOut` for a refresh with the token. -/
def handsOut (w : World AuthIface Request Store (Prog AuthIface Response)) (i : Nat) : Bool :=
  match w.threads[i]? with
  | some ⟨.refresh _ refreshToken, .pure response, _⟩ =>
      decide (refreshToken = "rtk_a") && response.exchanged
  | _ => false

theorem handedOut_of_handsOut {w : World AuthIface Request Store (Prog AuthIface Response)} {i : Nat}
    (hands : handsOut w i = true) : HandedOut w refreshesTokenA i := by
  unfold handsOut at hands
  split at hands
  · rename_i client refreshToken response settled there
    rw [Bool.and_eq_true, decide_eq_true_eq] at hands
    exact ⟨_, response, there, ⟨client, by rw [← hands.1]⟩, rfl, hands.2⟩
  · cases hands

/-- Both requests read the session before either replaces it. -/
def crossed : List (Act Choice Request) :=
  [.env (.refresh {} "rtk_a"), .env (.refresh {} "rtk_a")] ++ awaits 0 (quiet 1) ++
    awaits 1 (quiet 1) ++ awaits 0 (quiet 1 ++ sessionChoices "b" ++ quiet 2) ++
    awaits 1 (quiet 1 ++ sessionChoices "c" ++ quiet 2)

/-- One refresh token is exchanged for two sessions. -/
theorem crossed_not_singleUse : ∃ w,
    (service plainCrypto plainConfig).Run (fun _ _ => True) (idle signedInStore) w ∧
      ¬ SingleUse w := by
  have evaluated : ((service plainCrypto plainConfig).execute (fun _ _ => true) (idle signedInStore)
      crossed).any (fun w => handsOut w 0 && handsOut w 1) = true := by decide
  obtain ⟨w, ran, both⟩ := System.Run.exists_of_execute (fun _ _ _ => trivial) evaluated
  rw [Bool.and_eq_true] at both
  refine ⟨w, ran, fun single => ?_⟩
  have same : (0 : Nat) = 1 :=
    single.refreshToken (handedOut_of_handsOut both.1) (handedOut_of_handsOut both.2)
  cases same

/-- No other request is running when a request moves. -/
def alone (w : World AuthIface Request Store (Prog AuthIface Response)) : Act Choice Request → Bool
  | .run i _ => w.threads.zipIdx.all fun (t, j) => decide (j = i) || decide (t.body.outcome ≠ .running)
  | .env _ => true

theorem oneAtATime_of_alone (w : World AuthIface Request Store (Prog AuthIface Response))
    (act : Act Choice Request) (passes : alone w act = true) : OneAtATime w act := by
  cases act with
  | env => trivial
  | run i choice =>
      rintro t o k there pending lookup j other ⟨⟨t', there', running⟩, _⟩
      have idle := List.all_eq_true.mp passes (t', j) (List.mk_mem_zipIdx_iff_getElem?.mpr there')
      simp [other, running] at idle

/-- The second request comes after the first has replaced the session. -/
def queued : List (Act Choice Request) :=
  [.env (.refresh {} "rtk_a")] ++ awaits 0 (quiet 2 ++ sessionChoices "b" ++ quiet 2) ++
    [.env (.refresh {} "rtk_a")] ++ awaits 1 (quiet 1)

theorem queued_singleUse : ∃ w,
    (service plainCrypto plainConfig).Run OneAtATime (idle signedInStore) w ∧
      HandedOut w refreshesTokenA 0 ∧ ¬ HandedOut w refreshesTokenA 1 ∧ SingleUse w := by
  have evaluated : ((service plainCrypto plainConfig).execute alone (idle signedInStore)
      queued).any (handsOut · 0) = true := by decide
  obtain ⟨w, ran, first⟩ := System.Run.exists_of_execute oneAtATime_of_alone evaluated
  have single := singleUse_of_oneAtATime ran
  refine ⟨w, ran, handedOut_of_handsOut first, fun second => ?_, single⟩
  have same : (0 : Nat) = 1 := single.refreshToken (handedOut_of_handsOut first) second
  cases same

end Auth
