import BirthHub.Auth.Service

/-!
# The stages of an exchange

A refresh exchanges a session for its successor, and the answer to a multi-factor
challenge exchanges the challenge, and perhaps a recovery code, for a session: each
reads the row of a secret, awaits other statements, and then spends it by an update
that does not look at the row again. The stages of `serveRequest` say which secrets a
request has read and not yet spent.
-/

namespace Auth

open Data Effect

/-- The kinds of secrets that are used once. -/
inductive SecretKind
  | session
  | challenge
  | code
deriving DecidableEq

/-- A secret: a row of one of the tables. -/
structure Secret where
  kind : SecretKind
  id : Nat
deriving DecidableEq

/-- The kind of the secret that a statement reads in order to spend it. -/
def AuthOp.lookup : AuthOp → Option SecretKind
  | .findSessionByRefreshToken _ => some .session
  | .findMfaChallenge _ => some .challenge
  | .findRecoveryCode .. => some .code
  | _ => none

/-- The secret that a statement spends. -/
def AuthOp.spends : AuthOp → Option Secret
  | .replaceSession id _ _ => some ⟨.session, id⟩
  | .consumeMfaChallenge id _ => some ⟨.challenge, id⟩
  | .useRecoveryCode id _ => some ⟨.code, id⟩
  | _ => none

/-- A statement that neither reads a secret nor spends one. -/
def AuthOp.isNeutral (o : AuthOp) : Prop := o.lookup = none ∧ o.spends = none

inductive Stage
  /-- A request that exchanges nothing, or nothing any more. -/
  | plain
  | refreshing
  /-- The session of the presented token, by its hash, is unrevoked. -/
  | holding (hash : String) (row : Session)
  | challenging
  /-- The challenge is open, and its code is not verified. -/
  | verifying (challenge : MfaChallenge)
  | redeeming (challenge : MfaChallenge) (code : MfaRecoveryCode)
  /-- The code of the challenge is verified. -/
  | consuming (challenge : MfaChallenge)
  /-- The challenge is consumed. -/
  | creating (challenge : MfaChallenge)
  | returned (exchanged : Bool)
  | threw

namespace Stage

def progress : Stage → Outcome
  | .returned _ => .returned
  | .threw => .threw
  | _ => .running

/-- The secrets that a request has read and not spent, with the statement that read each. -/
def holds : Stage → List (Secret × AuthOp)
  | .holding hash row => [(⟨.session, row.id⟩, .findSessionByRefreshToken hash)]
  | .verifying challenge | .consuming challenge =>
      [(⟨.challenge, challenge.id⟩, .findMfaChallenge challenge.tokenHash)]
  | .redeeming challenge code =>
      [(⟨.challenge, challenge.id⟩, .findMfaChallenge challenge.tokenHash),
       (⟨.code, code.id⟩, .findRecoveryCode code.userId code.codeHash)]
  | _ => []

/-- The kinds of secrets that a request may still spend. -/
def unspent : Stage → List SecretKind
  | .refreshing | .holding .. => [.session]
  | .challenging | .verifying _ | .redeeming .. => [.challenge, .code]
  | .consuming _ => [.challenge]
  | _ => []

/-- What a request does at a stage. -/
inductive Step (crypto : Crypto) :
    Request → Stage → (o : AuthOp) → AuthIface.Answer o → Stage → Prop
  | stay {tag : Request} {s : Stage} {o : AuthOp} {answer : AuthIface.Answer o}
      (running : s.progress = .running) (neutral : o.isNeutral) : Step crypto tag s o answer s
  | fail {tag : Request} {s : Stage} {o : AuthOp} {e : AuthError}
      (running : s.progress = .running) : Step crypto tag s o (.error e) .threw
  /-- The request throws after an answer. -/
  | refuse {tag : Request} {s : Stage} {o : AuthOp} {answer : AuthIface.Answer o}
      (running : s.progress = .running) (spends : o.spends = none) : Step crypto tag s o answer .threw
  /-- The request returns without an exchange. -/
  | reject {tag : Request} {s : Stage} {o : AuthOp} {answer : AuthIface.Answer o}
      (running : s.progress = .running) (spends : o.spends = none) :
      Step crypto tag s o answer (.returned false)
  | miss {tag : Request} {hash : String} :
      Step crypto tag .refreshing (.findSessionByRefreshToken hash) (.ok none) .plain
  | hold {client : Client} {refreshToken : String} {row : Session} (unrevoked : row.revokedAt = none) :
      Step crypto (.refresh client refreshToken) .refreshing
        (.findSessionByRefreshToken (crypto.sha256 refreshToken)) (.ok (some row))
        (.holding (crypto.sha256 refreshToken) row)
  | replace {tag : Request} {hash : String} {row : Session} {next : Nat} {revokedAt : Int} :
      Step crypto tag (.holding hash row) (.replaceSession row.id next revokedAt) (.ok ())
        (.returned true)
  | challenge {input : MfaInput} {challenge : MfaChallenge} (unconsumed : challenge.consumedAt = none) :
      Step crypto (.verifyMfa input) .challenging
        (.findMfaChallenge (crypto.sha256 input.challengeToken)) (.ok (some challenge))
        (.verifying challenge)
  | verify {tag : Request} {challenge : MfaChallenge} {o : AuthOp} {answer : AuthIface.Answer o}
      (neutral : o.isNeutral) : Step crypto tag (.verifying challenge) o answer (.consuming challenge)
  | code {tag : Request} {challenge : MfaChallenge} {userId codeHash : String}
      {code : MfaRecoveryCode} :
      Step crypto tag (.verifying challenge) (.findRecoveryCode userId codeHash) (.ok (some code))
        (.redeeming challenge code)
  | redeem {tag : Request} {challenge : MfaChallenge} {code : MfaRecoveryCode} {usedAt : Int} :
      Step crypto tag (.redeeming challenge code) (.useRecoveryCode code.id usedAt) (.ok ())
        (.consuming challenge)
  | consume {tag : Request} {challenge : MfaChallenge} {consumedAt : Int} :
      Step crypto tag (.consuming challenge) (.consumeMfaChallenge challenge.id consumedAt) (.ok ())
        (.creating challenge)
  | finish {tag : Request} {challenge : MfaChallenge} {o : AuthOp} {answer : AuthIface.Answer o}
      (neutral : o.isNeutral) : Step crypto tag (.creating challenge) o answer (.returned true)

variable {crypto : Crypto} {tag : Request} {s s' : Stage} {o : AuthOp} {answer : AuthIface.Answer o}

theorem Step.running (step : Step crypto tag s o answer s') : s.progress = .running := by
  cases step <;> first
    | rfl
    | assumption

end Stage

/-- Whether a response hands out the session of an exchange. -/
def Response.exchanged : Response → Bool
  | .refresh result => result.session.isSome
  | .verifyMfa _ => true
  | _ => false

/-- Where a request ends. -/
def Ends (_ : Request) : Except AuthError Response → Stage → Prop
  | .ok response, s => s = .returned response.exchanged
  | .error _, s => s = .threw

/-! ## Programs that exchange nothing -/

section Follows

variable {crypto : Crypto} {config : ApiConfig} {tag : Request} {s : Stage} {α : Type}

/-- The stage of a part of a program that exchanges nothing: it throws, or goes on at `s`. -/
def stageAfter (s : Stage) : Prog AuthIface α → Stage
  | .throw _ => .threw
  | _ => s

/-- The exit of a part that exchanges nothing. -/
def exitAt (s : Stage) : Except AuthError α → Stage → Prop
  | .ok _, s' => s' = s
  | .error _, s' => s' = .threw

theorem follows_neutral {p : Prog AuthIface α} (within : p.Within AuthOp.isNeutral)
    (running : s.progress = .running) :
    p.Follows (Stage.Step crypto tag) (exitAt s) (stageAfter s p) := by
  induction p with
  | pure a => exact rfl
  | throw e => exact rfl
  | op o k ih =>
      intro r
      refine ⟨stageAfter s (k r), ?_, ih r (within.2 r)⟩
      cases k r with
      | throw e => exact .refuse running within.1.2
      | pure a => exact .stay running within.1
      | op o' k' => exact .stay running within.1

/-- The stage of a part at whose end the request returns. -/
def stageBefore (s : Stage) (exchanged : Bool) : Prog AuthIface α → Stage
  | .pure _ => .returned exchanged
  | .throw _ => .threw
  | .op _ _ => s

theorem follows_last {p : Prog AuthIface α} {exchanged : Bool}
    {Q : Except AuthError α → Stage → Prop} (within : p.Within AuthOp.isNeutral)
    (running : s.progress = .running)
    (last : ∀ {o : AuthOp} {answer : AuthIface.Answer o}, o.isNeutral →
      Stage.Step crypto tag s o answer (.returned exchanged))
    (returns : ∀ a, Q (.ok a) (.returned exchanged)) (throws : ∀ e, Q (.error e) .threw) :
    p.Follows (Stage.Step crypto tag) Q (stageBefore s exchanged p) := by
  induction p with
  | pure a => exact returns a
  | throw e => exact throws e
  | op o k ih =>
      intro r
      refine ⟨stageBefore s exchanged (k r), ?_, ih r (within.2 r)⟩
      cases k r with
      | pure a => exact last within.1
      | throw e => exact .refuse running within.1.2
      | op o' k' => exact .stay running within.1

/-- A statement whose failure ends the request. -/
theorem follows_await_bind {o : AuthOp} {f : o.Result → Prog AuthIface α}
    {Q : Except AuthError α → Stage → Prop} (running : s.progress = .running)
    (throws : ∀ e, Q (.error e) .threw)
    (answered : ∀ r, ∃ s', Stage.Step crypto tag s o (.ok r) s' ∧
      (f r).Follows (Stage.Step crypto tag) Q s') :
    (await o >>= f).Follows (Stage.Step crypto tag) Q s :=
  Prog.Follows.performBind answered fun e => ⟨.threw, .fail running, throws e⟩

/-- A part that exchanges nothing, and then the rest at the same stage. -/
theorem follows_neutral_bind {p : Prog AuthIface α} {β : Type} {f : α → Prog AuthIface β}
    {Q : Except AuthError β → Stage → Prop} (within : p.Within AuthOp.isNeutral)
    (running : s.progress = .running) (throws : ∀ e, Q (.error e) .threw)
    (rest : ∀ a, (f a).Follows (Stage.Step crypto tag) Q s) :
    (p >>= f).Follows (Stage.Step crypto tag) Q (stageAfter s p) := by
  refine Prog.Follows.bind (Prog.Follows.mono (fun x s' exit => ?_) (follows_neutral within running))
  cases x with
  | ok a => exact (show s' = s from exit) ▸ rest a
  | error e => exact (show s' = .threw from exit) ▸ throws e

theorem AuthOp.neutral_of_plain (o : AuthOp) (plain : o.isExchange = false) : o.isNeutral := by
  cases o <;> first
    | exact ⟨rfl, rfl⟩
    | cases plain

/-! ## The programs follow the stages -/

theorem createSession_neutral {client : Client} {organizationId tenantId userId : String} :
    (createSession crypto config client organizationId tenantId userId).Within AuthOp.isNeutral :=
  createSession_within (fun o exchange _ => o.neutral_of_plain exchange) fun _ _ _ _ => ⟨rfl, rfl⟩

/-- The exit of a function whose result the request returns. -/
abbrev exitOf (crypto : Crypto) (tag : Request) (f : α → Response) :
    Except AuthError α → Stage → Prop :=
  Prog.bindPost (I := AuthIface) (Stage.Step crypto tag) (Ends tag) fun a => .pure (f a)

theorem exchangeSession_follows {client : Client} {hash : String} {row : Session} :
    (exchangeSession crypto config client row).Follows (Stage.Step crypto tag)
      (exitOf crypto tag .refresh) (.holding hash row) := by
  refine follows_neutral_bind createSession_neutral rfl (fun _ => rfl) fun created => ?_
  refine follows_await_bind rfl (fun _ => rfl) fun revokedAt => ⟨_, .stay rfl ⟨rfl, rfl⟩, ?_⟩
  exact follows_await_bind rfl (fun _ => rfl) fun _ => ⟨_, .replace, rfl⟩

theorem refreshSession_follows {client : Client} {refreshToken : String} :
    (serveRequest crypto config (.refresh client refreshToken)).Follows
      (Stage.Step crypto (.refresh client refreshToken)) (Ends (.refresh client refreshToken))
      .refreshing := by
  refine Prog.Follows.bind ?_
  refine follows_await_bind rfl (fun _ => rfl) fun current => ?_
  cases current with
  | none =>
      refine ⟨_, .miss, follows_await_bind rfl (fun _ => rfl) fun revokedSession => ?_⟩
      cases revokedSession with
      | none => exact ⟨_, .reject rfl rfl, rfl⟩
      | some revokedSession =>
          refine ⟨_, .stay rfl ⟨rfl, rfl⟩, ?_⟩
          refine Prog.Follows.bind (follows_await_bind rfl (fun _ => rfl) fun revokedAt => ?_)
          refine ⟨_, .stay rfl ⟨rfl, rfl⟩, Prog.Follows.perform fun answer => ?_⟩
          cases answer with
          | error e => exact ⟨_, .fail rfl, rfl⟩
          | ok _ => exact ⟨_, .reject rfl rfl, rfl⟩
  | some row =>
      dsimp only
      split
      · exact ⟨_, .reject rfl rfl, rfl⟩
      rename_i unrevoked
      split
      · exact ⟨_, .reject rfl rfl, rfl⟩
      refine ⟨_, .hold (by simpa using unrevoked), ?_⟩
      refine follows_await_bind rfl (fun _ => rfl) fun now => ?_
      split
      · exact ⟨_, .reject rfl rfl, rfl⟩
      · exact ⟨_, .stay rfl ⟨rfl, rfl⟩, exchangeSession_follows⟩

theorem completeMfaChallenge_follows {input : MfaInput} {challenge : MfaChallenge} :
    (completeMfaChallenge crypto config input challenge).Follows (Stage.Step crypto tag)
      (exitOf crypto tag .verifyMfa) (.consuming challenge) := by
  refine follows_await_bind rfl (fun _ => rfl) fun consumedAt => ⟨_, .stay rfl ⟨rfl, rfl⟩, ?_⟩
  refine follows_await_bind rfl (fun _ => rfl) fun _ => ⟨_, .consume, ?_⟩
  exact Prog.Follows.bind
    (follows_last createSession_neutral rfl .finish (fun _ => rfl) fun _ => rfl)

/-- What follows the verification of a code. -/
def afterCode (crypto : Crypto) (config : ApiConfig) (input : MfaInput) (challenge : MfaChallenge)
    (verified : Bool) : Prog AuthIface SignedIn :=
  if !verified then .throw (.message "INVALID_MFA_CODE")
  else completeMfaChallenge crypto config input challenge

/-- The exit of a function whose result says whether the code is verified. -/
abbrev exitOfCode (crypto : Crypto) (config : ApiConfig) (tag : Request) (input : MfaInput)
    (challenge : MfaChallenge) : Except AuthError Bool → Stage → Prop :=
  Prog.bindPost (I := AuthIface) (Stage.Step crypto tag) (exitOf crypto tag .verifyMfa)
    (afterCode crypto config input challenge)

/-- A request whose input has a recovery code goes on to redeem it; any other fails. -/
theorem redeemRecoveryCode_follows {input : MfaInput} {challenge : MfaChallenge} :
    (redeemRecoveryCode crypto input challenge.userId).Follows (Stage.Step crypto tag)
      (exitOfCode crypto config tag input challenge)
      (if (given input.recoveryCode).isSome then .verifying challenge else .threw) := by
  unfold redeemRecoveryCode
  cases given input.recoveryCode with
  | none => exact rfl
  | some code =>
      refine follows_await_bind rfl (fun _ => rfl) fun found => ?_
      cases found with
      | none => exact ⟨_, .refuse rfl rfl, rfl⟩
      | some recoveryCode =>
          refine ⟨_, .code, ?_⟩
          refine follows_await_bind rfl (fun _ => rfl) fun usedAt => ⟨_, .stay rfl ⟨rfl, rfl⟩, ?_⟩
          exact follows_await_bind rfl (fun _ => rfl) fun _ =>
            ⟨_, .redeem, completeMfaChallenge_follows⟩

theorem answerMfaChallenge_follows {input : MfaInput} {challenge : MfaChallenge} :
    (answerMfaChallenge crypto config input challenge).Follows (Stage.Step crypto tag)
      (exitOf crypto tag .verifyMfa) (.verifying challenge) := by
  -- where a request goes that has no right one-time password
  have redeems : ∃ s', (∀ {o : AuthOp} {answer : AuthIface.Answer o}, o.isNeutral →
        Stage.Step crypto tag (.verifying challenge) o answer s') ∧
      (redeemRecoveryCode crypto input challenge.userId).Follows (Stage.Step crypto tag)
        (exitOfCode crypto config tag input challenge) s' := by
    refine ⟨_, fun neutral => ?_, redeemRecoveryCode_follows⟩
    split
    · exact .stay rfl neutral
    · exact .refuse rfl neutral.2
  obtain ⟨s', redeem, redeems⟩ := redeems
  refine follows_await_bind rfl (fun _ => rfl) fun user => ?_
  split
  · exact ⟨_, .refuse rfl rfl, rfl⟩
  rename_i mfaSecret _
  suffices verifies : ∃ s', Stage.Step crypto tag (.verifying challenge)
      (.findUser challenge.userId) (.ok user) s' ∧
      (verifyCode crypto config input mfaSecret challenge.userId).Follows (Stage.Step crypto tag)
        (exitOfCode crypto config tag input challenge) s' by
    obtain ⟨s', taken, follows⟩ := verifies
    exact ⟨s', taken, Prog.Follows.bind follows⟩
  unfold verifyCode verifyTotp
  split
  · exact ⟨s', redeem ⟨rfl, rfl⟩, redeems⟩
  rename_i totpCode _
  cases crypto.decryptTotpSecret mfaSecret config.AUTH_MFA_ENCRYPTION_KEY with
  | error e => exact ⟨_, .refuse rfl rfl, rfl⟩
  | ok decryptedSecret =>
      refine ⟨_, .stay rfl ⟨rfl, rfl⟩, Prog.Follows.bind (follows_await_bind rfl (fun _ => rfl) ?_)⟩
      intro now
      cases right : crypto.verifyTotpCode totpCode decryptedSecret
        config.AUTH_MFA_CLOCK_SKEW_WINDOWS now with
      | true => exact ⟨_, .verify ⟨rfl, rfl⟩, completeMfaChallenge_follows⟩
      | false => exact ⟨s', redeem ⟨rfl, rfl⟩, redeems⟩

theorem verifyMfaChallenge_follows {input : MfaInput} :
    (serveRequest crypto config (.verifyMfa input)).Follows
      (Stage.Step crypto (.verifyMfa input)) (Ends (.verifyMfa input)) .challenging := by
  refine Prog.Follows.bind ?_
  refine follows_await_bind rfl (fun _ => rfl) fun challenge => ?_
  cases challenge with
  | none => exact ⟨_, .refuse rfl rfl, rfl⟩
  | some challenge =>
      dsimp only
      split
      · exact ⟨_, .refuse rfl rfl, rfl⟩
      rename_i unconsumed
      refine ⟨_, .challenge (by simpa using unconsumed), ?_⟩
      refine follows_await_bind rfl (fun _ => rfl) fun now => ?_
      split
      · exact ⟨_, .refuse rfl rfl, rfl⟩
      · exact ⟨_, .stay rfl ⟨rfl, rfl⟩, answerMfaChallenge_follows⟩

/-- Where a request starts. -/
def startOf (crypto : Crypto) (config : ApiConfig) (request : Request) : Stage :=
  match request with
  | .refresh .. => .refreshing
  | .verifyMfa _ => .challenging
  | request => stageBefore .plain false (serveRequest crypto config request)

/-- A function that awaits neutral statements only, and whose response hands out no
session of an exchange. -/
theorem follows_plain {p : Prog AuthIface α} {f : α → Response} (within : p.Within AuthOp.isNeutral)
    (unexchanged : ∀ a, (f a).exchanged = false) :
    (p >>= fun a => pure (f a)).Follows (Stage.Step crypto tag) (Ends tag)
      (stageBefore .plain false (p >>= fun a => pure (f a))) := by
  have same : stageBefore .plain false (p >>= fun a => pure (f a)) = stageBefore .plain false p := by
    cases p <;> rfl
  rw [same]
  refine Prog.Follows.bind (follows_last within rfl (fun neutral => .reject rfl neutral.2)
    (fun a => ?_) fun _ => rfl)
  show Stage.returned false = .returned (f a).exchanged
  rw [unexchanged]

theorem rotateTenantApiKey_neutral {input : KeyOf} :
    (rotateTenantApiKey crypto config input).Within AuthOp.isNeutral := by
  refine within_await_bind ⟨rfl, rfl⟩ fun current => ?_
  cases current with
  | none => trivial
  | some current =>
      refine Prog.Within.bind (within_await_bind ⟨rfl, rfl⟩ fun _ => trivial) fun _ => ?_
      refine Prog.Within.bind (within_await_bind ⟨rfl, rfl⟩ fun _ => trivial) fun _ => ?_
      exact within_await_bind ⟨rfl, rfl⟩ fun _ => trivial

theorem serveRequest_follows (request : Request) :
    (serveRequest crypto config request).Follows (Stage.Step crypto request) (Ends request)
      (startOf crypto config request) := by
  have within (plain : request.isExchange = false) :
      (serveRequest crypto config request).Within AuthOp.isNeutral :=
    serveRequest_within AuthOp.neutral_of_plain plain
  cases request with
  | refresh client refreshToken => exact refreshSession_follows
  | verifyMfa input => exact verifyMfaChallenge_follows
  | rotateKey input => exact follows_plain rotateTenantApiKey_neutral fun _ => rfl
  | _ => exact follows_plain (Prog.Within.of_bind (within rfl)) fun _ => rfl

/-- The stages of the requests. -/
def exchanges (crypto : Crypto) (config : ApiConfig) : Discipline AuthIface Request Response where
  Stage := Stage
  start := startOf crypto config
  step := Stage.Step crypto
  ends := Ends
  progress := Stage.progress
  progress_step step := step.running
  progress_returned ended := by rw [show _ = Stage.returned _ from ended]; rfl
  progress_threw ended := by rw [show _ = Stage.threw from ended]; rfl

end Follows

end Auth
