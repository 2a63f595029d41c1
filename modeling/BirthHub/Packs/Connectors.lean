import BirthHub.Packs.Model

/-!
# Connectors in the rows of an installation

`installPackAtomic` encrypts the connectors in the config of the agent, and writes them as they
are into the audit log. So the strings of the connectors are stored encrypted only just when
there are none to encrypt.
-/

namespace Packs

open Data Effect

/-- What a row holds of the connectors has come from the same place of the connectors, and is
a token of what is there, unless that is the empty string. -/
def Sealed (cipher : Cipher) (connectors row : Json) : Prop :=
  ∀ path s, ("connectors" :: path, s) ∈ leaves row → ∃ text, (path, text) ∈ leaves connectors ∧
    (text ≠ "" → ∃ iv, s = encryptConnectorToken cipher iv text)

/-- The rows that were written between two stores hold tokens only. -/
structure WritesSealed (cipher : Cipher) (connectors : Json) (store store' : PackStore) : Prop where
  agents : ∀ row ∈ store'.agents, row ∉ store.agents → Sealed cipher connectors row.config
  logs : ∃ written, store'.auditLogs = store.auditLogs ++ written ∧
    ∀ log ∈ written, Sealed cipher connectors log.diff

/-- The connectors have no string to hide; what is below a member `__proto__` is not stored. -/
def noSecrets (connectors : Json) : Bool :=
  (leaves connectors).all fun leaf => leaf.1.contains "__proto__" || leaf.2 = ""

section

variable {cipher : Cipher} {input : InstallPackInput} {store store' : PackStore}

/-! ## What a call writes -/

theorem exec_await_ok {α : Type} {o : PackOp} {f : o.Result → Prog PackIface α} {a : α}
    (ran : (packs cipher).Exec ((await o).bind f) store (.ok a) store') :
    ∃ r choice s, store.handle o choice = some (.ok r, s) ∧
      (packs cipher).Exec (f r) s (.ok a) store' := by
  rcases System.exec_performBind.mp ran with ⟨e, choice, ended, _⟩ | ⟨r, choice, s, answered, rest⟩
  · cases ended
  · exact ⟨r, choice, s, answered, rest⟩

theorem exec_ofExcept_ok {α β : Type} {x : Except Thrown α} {f : α → Prog PackIface β} {b : β}
    (ran : (packs cipher).Exec ((Prog.ofExcept x).bind f) store (.ok b) store') :
    ∃ a, x = .ok a ∧ (packs cipher).Exec (f a) store (.ok b) store' := by
  cases x with
  | ok a => exact ⟨a, rfl, ran⟩
  | error e => cases (System.exec_throw.mp ran).1

/-- An operation that only reads. -/
def PackOp.reads : PackOp → Bool
  | .workflow _ | .install .. | .uninstall .. => false
  | _ => true

theorem store_of_reads {o : PackOp} {choice : PackChoice} {answer : PackIface.Answer o}
    (reads : o.reads = true) (answered : store.handle o choice = some (answer, store')) :
    store' = store := by
  rcases PackStore.handle_cases answered with same | ⟨_, _, rfl, _⟩ | ⟨_, _, _, rfl, _⟩ |
    ⟨_, _, rfl, _⟩
  · exact same
  all_goals cases reads

/-- A config that `installPackAtomic` writes. -/
def IsInstallConfig (cipher : Cipher) (input : InstallPackInput) (config : Json) : Prop :=
  (∃ ivs manifest requestedAgentId current,
    config = updatedConfig cipher ivs input manifest requestedAgentId current) ∨
  ∃ ivs manifest requestedAgentId installedAt,
    config = createdConfig cipher ivs input manifest requestedAgentId installedAt

theorem exec_writePack_ok {actorId organizationId requestedAgentId : String}
    {manifest : CatalogAgent} {existing : Option AgentRow} {result : InstallResult}
    (ran : (packs cipher).Exec
      (writePack cipher input actorId organizationId manifest requestedAgentId existing)
      store (.ok result) store') :
    (∀ row ∈ store'.agents, row ∉ store.agents → IsInstallConfig cipher input row.config) ∧
      store'.auditLogs =
        store.auditLogs ++ [installLog input actorId requestedAgentId existing.isSome] := by
  cases existing with
  | some existing =>
      obtain ⟨ivs, _, s, drawn, ran⟩ := exec_await_ok ran
      cases store_of_reads rfl drawn
      obtain ⟨id, choice, s', written, ran⟩ := exec_await_ok ran
      obtain ⟨_, rfl⟩ := System.exec_pure.mp ran
      obtain ⟨agents, leads, rfl⟩ := PackStore.handle_install_ok written
      refine ⟨fun row there new => ?_, rfl⟩
      obtain ⟨row', old, rfl⟩ := List.mem_map.mp (leads ▸ there)
      split at new
      · rename_i own
        rw [if_pos own]
        exact .inl ⟨ivs, manifest, requestedAgentId, existing.config, rfl⟩
      · exact (new old).elim
  | none =>
      obtain ⟨ivs, _, s, drawn, ran⟩ := exec_await_ok ran
      cases store_of_reads rfl drawn
      obtain ⟨installedAt, _, s, read, ran⟩ := exec_await_ok ran
      cases store_of_reads rfl read
      obtain ⟨id, choice, s', written, ran⟩ := exec_await_ok ran
      obtain ⟨_, rfl⟩ := System.exec_pure.mp ran
      obtain ⟨agents, leads, rfl⟩ := PackStore.handle_install_ok written
      refine ⟨fun row there new => ?_, rfl⟩
      rcases List.mem_append.mp (leads.2 ▸ there) with old | created
      · exact (new old).elim
      · rw [List.mem_singleton.mp created]
        exact .inr ⟨ivs, manifest, requestedAgentId, installedAt, rfl⟩

/-- A call that succeeds writes agents with its configs, and one entry of the log. -/
theorem exec_installPackAtomic_ok {result : InstallResult}
    (ran : (packs cipher).Exec (installPackAtomic cipher input) store (.ok result) store') :
    (∀ row ∈ store'.agents, row ∉ store.agents → IsInstallConfig cipher input row.config) ∧
      ∃ actorId requestedAgentId alreadyInstalled, store'.auditLogs =
        store.auditLogs ++ [installLog input actorId requestedAgentId alreadyInstalled] := by
  obtain ⟨actorId, _, ran⟩ := exec_ofExcept_ok ran
  obtain ⟨catalog, _, s, read, ran⟩ := exec_await_ok ran
  cases store_of_reads rfl read
  obtain ⟨requestedAgentId, _, ran⟩ := exec_ofExcept_ok ran
  split at ran
  · cases (System.exec_throw.mp ran).1
  obtain ⟨organization, _, s, read, ran⟩ := exec_await_ok ran
  cases store_of_reads rfl read
  split at ran
  · cases (System.exec_throw.mp ran).1
  obtain ⟨currentAgentCount, _, s, read, ran⟩ := exec_await_ok ran
  cases store_of_reads rfl read
  obtain ⟨tenantAgents, _, s, read, ran⟩ := exec_await_ok ran
  cases store_of_reads rfl read
  obtain ⟨agentLimit, _, s, read, ran⟩ := exec_await_ok ran
  cases store_of_reads rfl read
  extract_lets wanted at ran
  split at ran
  · cases (System.exec_throw.mp ran).1
  obtain ⟨agents, logs⟩ := exec_writePack_ok ran
  exact ⟨agents, _, _, _, logs⟩

/-! ## The rows -/

theorem mem_leaves_installDiff {requestedAgentId : String} {alreadyInstalled : Bool}
    {path : List String} {s : String} :
    ("connectors" :: path, s) ∈ leaves (installDiff input requestedAgentId alreadyInstalled) ↔
      (path, s) ∈ leaves (toPrismaJsonValue input.connectors) := by
  constructor
  · intro there
    rw [installDiff, toPrismaJsonValue] at there
    obtain ⟨key, value, rest, inside, _, shape, leaf⟩ := mem_leaves_assignMembers there
    cases shape
    simp only [toPrismaMembers, List.mem_cons, Prod.mk.injEq] at inside
    simp at inside
    rwa [inside] at leaf
  · intro there
    rw [installDiff, toPrismaJsonValue]
    have inside : ("connectors", toPrismaJsonValue input.connectors) ∈ toPrismaMembers [
        ("activateAgents", .bool input.activateAgents),
        ("agentId", .string requestedAgentId),
        ("alreadyInstalled", .bool alreadyInstalled),
        ("connectors", input.connectors),
        ("packId", .string requestedAgentId)] := by
      simp [toPrismaMembers]
    refine mem_leaves_assignMembers_of ?_ inside (by decide) there
    rw [toPrismaMembers_keys]
    simp

/-- The config of an agent holds tokens of the connectors. -/
theorem IsInstallConfig.sealed {config : Json} (own : IsInstallConfig cipher input config) :
    Sealed cipher input.connectors config := by
  intro path s there
  have encrypted : ∃ ivs, (path, s) ∈ leaves (encryptConnectorsMap cipher ivs input.connectors) := by
    rcases own with ⟨ivs, manifest, requestedAgentId, current, rfl⟩ |
      ⟨ivs, manifest, requestedAgentId, installedAt, rfl⟩
    · obtain ⟨copied, _⟩ := mem_leaves_of_toPrisma there
      generalize entriesOf : spread current ++ _ = entries at copied
      have found : (Json.fromEntries entries).member "connectors" =
          some (encryptConnectorsMap cipher ivs input.connectors) := by
        rw [← entriesOf]
        exact Json.member_fromEntries (by simp)
      obtain ⟨members, made⟩ : ∃ members, Json.fromEntries entries = .object members := ⟨_, rfl⟩
      rw [made] at copied found
      have distinct := Json.fromEntries_distinct made
      obtain ⟨key, value, rest, inside, shape, leaf⟩ := mem_leavesOfMembers.mp copied
      cases shape
      have own := (Json.lookup_eq_some distinct).mpr inside
      cases found.symm.trans own
      exact ⟨ivs, leaf⟩
    · obtain ⟨copied, _⟩ := mem_leaves_of_toPrisma there
      rw [leaves] at copied
      obtain ⟨key, value, rest, inside, shape, leaf⟩ := mem_leavesOfMembers.mp copied
      cases shape
      simp only [List.mem_cons, Prod.mk.injEq] at inside
      simp at inside
      exact ⟨ivs, inside ▸ leaf⟩
  obtain ⟨ivs, there⟩ := encrypted
  obtain ⟨text, found, rfl⟩ := mem_leaves_encryptEntry there
  exact ⟨text, found, fun _ => ⟨_, rfl⟩⟩

/-- A token is longer than its text. -/
theorem encryptConnectorToken_ne {iv text : String}
    (length : ∀ iv text, (cipher.encrypted iv text).length = 2 * text.utf8ByteSize)
    (given : text ≠ "") : encryptConnectorToken cipher iv text ≠ text := by
  intro same
  rw [encryptConnectorToken, if_neg given] at same
  have long := congrArg String.length same
  have bytes : text.length ≤ text.utf8ByteSize := by
    have each (chars : List Char) : chars.length ≤ String.utf8Len chars := by
      induction chars with
      | nil => exact Nat.le_refl 0
      | cons c chars ih =>
          have positive := c.utf8Size_pos
          rw [List.length_cons, String.utf8Len_cons]
          omega
    have own := each text.toList
    rwa [← String.utf8ByteSize_ofList, String.ofList_toList, String.length_toList] at own
  simp only [String.length_append, length] at long
  have colon : ":".length = 1 := rfl
  omega

/-- A call that succeeds stores tokens only just when the connectors have no string to hide:
the audit log has a copy of them. -/
theorem writesSealed_iff {result : InstallResult}
    (length : ∀ iv text, (cipher.encrypted iv text).length = 2 * text.utf8ByteSize)
    (value : input.connectors.IsValue)
    (ran : (packs cipher).Exec (installPackAtomic cipher input) store (.ok result) store') :
    WritesSealed cipher input.connectors store store' ↔ noSecrets input.connectors = true := by
  obtain ⟨configs, actorId, requestedAgentId, alreadyInstalled, logged⟩ :=
    exec_installPackAtomic_ok ran
  have hides : noSecrets input.connectors = true ↔
      ∀ path text, (path, text) ∈ leaves input.connectors → "__proto__" ∉ path → text = "" := by
    simp only [noSecrets, List.all_eq_true, Prod.forall, Bool.or_eq_true, List.contains_iff_mem,
      decide_eq_true_eq, or_iff_not_imp_left]
  rw [hides]
  constructor
  · intro tokens path text there named
    obtain ⟨written, appended, each⟩ := tokens.logs
    rw [logged] at appended
    have own := each _ (by
      rw [← List.append_cancel_left appended]
      exact List.mem_singleton_self _)
    have copied := mem_leaves_toPrisma value there named
    obtain ⟨text', there', token⟩ := own path text (mem_leaves_installDiff.mpr copied)
    rw [leaves_unique value there' there] at token
    by_contra given
    obtain ⟨iv, same⟩ := token given
    exact encryptConnectorToken_ne length given same.symm
  · intro nothing
    refine ⟨fun row there new => (configs row there new).sealed, _, logged, fun log own => ?_⟩
    rw [List.mem_singleton.mp own]
    intro path s there
    obtain ⟨copied, named⟩ := mem_leaves_of_toPrisma (mem_leaves_installDiff.mp there)
    exact ⟨s, copied, fun given => (given (nothing path s copied named)).elim⟩

end

/-! ### A connector with a token -/

def crmAgent : CatalogAgent where
  id := "crm"
  name := "CRM"
  version := "1.0.0"

/-- A tenant without agents. -/
def noAgents : PackStore where
  lifecycle := Workflow.Lifecycle.noWorkflows
  agents := []
  auditLogs := []
  catalog := [crmAgent]
  workflowName := id

def crmInput (token : String) : InstallPackInput where
  agentId := some "crm"
  actorId := "admin"
  connectors := .object [("hubspot", .object [("token", .string token)])]
  tenantId := "tenant"

/-- A cipher that makes two digits of a byte. -/
def hexCipher : Cipher where
  encrypted _ text := String.ofList (List.replicate (2 * text.utf8ByteSize) 'f')
  authTag _ _ := "00112233445566778899aabbccddeeff"

theorem hexCipher_length (iv text : String) :
    (hexCipher.encrypted iv text).length = 2 * text.utf8ByteSize := by
  simp [hexCipher]

/-- The installation with a token, run alone. -/
def crmRun (token : String) : Option (Except Thrown InstallResult × PackStore) :=
  (packs hexCipher).alone (installPackAtomic hexCipher (crmInput token))
    (List.replicate 8 { newId := "agent" }) noAgents

def crmInstalled (token : String) : PackStore := (crmRun token).elim noAgents Prod.snd

theorem crmRun_exec {token : String} (succeeds : (crmRun token).any (·.1.isOk) = true) :
    ∃ result, (packs hexCipher).Exec (installPackAtomic hexCipher (crmInput token)) noAgents
      (.ok result) (crmInstalled token) := by
  cases ran : crmRun token with
  | none => simp [ran] at succeeds
  | some ended =>
      obtain ⟨x, store⟩ := ended
      have installed : crmInstalled token = store := by rw [crmInstalled, ran]; rfl
      cases x with
      | error e => simp [ran, Except.isOk, Except.toBool] at succeeds
      | ok result => exact ⟨result, installed ▸ .of_alone ran⟩

/-- An installation with an empty token hides all there is to hide. -/
theorem emptyToken_writesSealed :
    WritesSealed hexCipher (crmInput "").connectors noAgents (crmInstalled "") := by
  have value : (crmInput "").connectors.IsValue := ⟨by rfl, ⟨by rfl, trivial, trivial⟩, trivial⟩
  have ran : (crmRun "").any (·.1.isOk) = true := by decide +kernel
  obtain ⟨result, ran⟩ := crmRun_exec ran
  exact (writesSealed_iff hexCipher_length value ran).mpr (by decide)

/-- The audit log has the token as it is. -/
theorem clearToken_not_writesSealed :
    (∃ result, (packs hexCipher).Exec (installPackAtomic hexCipher (crmInput "pat-na1")) noAgents
      (.ok result) (crmInstalled "pat-na1")) ∧
    ((crmInstalled "pat-na1").auditLogs.any fun log =>
      (leaves log.diff).contains (["connectors", "hubspot", "token"], "pat-na1")) = true ∧
    ¬ WritesSealed hexCipher (crmInput "pat-na1").connectors noAgents (crmInstalled "pat-na1") := by
  have clear : ((crmInstalled "pat-na1").auditLogs.any fun log =>
      (leaves log.diff).contains (["connectors", "hubspot", "token"], "pat-na1")) = true := by
    decide +kernel
  refine ⟨crmRun_exec (by decide +kernel), clear, fun tokens => ?_⟩
  obtain ⟨written, appended, each⟩ := tokens.logs
  rw [show noAgents.auditLogs = [] from rfl, List.nil_append] at appended
  obtain ⟨log, there, copied⟩ := List.any_eq_true.mp clear
  obtain ⟨text, own, token⟩ := each log (appended ▸ there) ["hubspot", "token"] "pat-na1"
    (List.contains_iff_mem.mp copied)
  have same : text = "pat-na1" := by
    have only : leaves (crmInput "pat-na1").connectors = [(["hubspot", "token"], "pat-na1")] := by
      rfl
    rw [only, List.mem_singleton] at own
    exact (Prod.mk.inj own).2
  rw [same] at token
  obtain ⟨iv, encrypted⟩ := token (by decide)
  exact encryptConnectorToken_ne hexCipher_length (by decide) encrypted.symm

end Packs
