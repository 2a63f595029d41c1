import BirthHub.Effect.Lockstep
import BirthHub.Registry.Versions

/-!
# The two stores of the registry

The store in memory sorts the versions of an agent by version, the one behind a database
client by the time of their creation. When the times of creation increase, every history makes
both orders the order of creation, turned around, and the registry behaves alike over both:
`Same` relates the stores, each operation keeps it, and the calls go on in lockstep. Only the
message for the deprecation of a version that is not there is the store's own.
-/

namespace Registry

open Data Effect

/-! ## Records without their ids -/

def AgentVersionRecord.withoutId (record : AgentVersionRecord) : AgentVersionRecord :=
  { record with id := "" }

def AgentIndexItem.withoutIds (item : AgentIndexItem) : AgentIndexItem where
  agent := item.agent
  latestVersion := item.latestVersion.map (·.withoutId)
  publishedVersion := item.publishedVersion.map (·.withoutId)

def Response.withoutIds : Response → Response
  | .version record => .version record.withoutId
  | .page listed => .page { listed with items := listed.items.map (·.withoutIds) }

/-- The messages of the two stores for a version that is not there. -/
def versionMissing (agentId version : String) : String × String :=
  (s!"Version '{version}' not found for agent '{agentId}'.",
    s!"Unable to update version '{version}' for agent '{agentId}'.")

/-- The results of a call over the two stores are the same, up to the ids of records and the
message for the deprecation of a version that is not there. -/
def Matches (call : Call) (x y : Except String Response) : Prop :=
  y.map Response.withoutIds = x.map Response.withoutIds ∨
  ∃ agentId version tenantId, call = .deprecateVersion agentId version tenantId ∧
    x = .error (versionMissing agentId version).1 ∧ y = .error (versionMissing agentId version).2

/-! ## Increasing times of creation -/

/-- A version is created later than those that the agent has. -/
def MemoryStore.onTime (store : MemoryStore) (choice : Choice) : RegistryOp → Bool
  | .createVersion input => (store.versions input.agentId).all (·.createdAt < choice.now)
  | _ => true

/-- The registry over the store in memory, while the times of creation increase. -/
def risingRegistry (lib : Libraries) : System RegistryIface Call MemoryStore Response where
  Choice := Choice
  handle o choice store :=
    if store.onTime choice o then (registry lib).handle o choice store else none
  program := serve lib
  Env := Empty
  env event _ _ := event.elim

/-! ## The stores hold the same -/

structure Same (lib : Libraries) (s : MemoryStore) (t : PrismaStore) : Prop where
  sound : s.Sound lib
  rising : ∀ agentId, (s.versions agentId).Pairwise fun a b => a.createdAt < b.createdAt
  agents : t.agents = s.agents
  versions : ∀ agentId, (t.versions.filter (·.agentId = agentId)).map (·.withoutId) =
    (s.versions agentId).map (·.withoutId)

variable {lib : Libraries} {s : MemoryStore} {t : PrismaStore} {agentId version : String}

theorem Same.empty : Same lib {} {} where
  sound := sound_empty
  rising _ := .nil
  agents := rfl
  versions _ := rfl

/-- The rows of an agent in their table are in the order of creation. -/
theorem Same.rows_rising (same : Same lib s t) (agentId : String) :
    (t.versions.filter (·.agentId = agentId)).Pairwise fun a b => a.createdAt < b.createdAt := by
  have mapped : ((t.versions.filter (·.agentId = agentId)).map (·.withoutId)).Pairwise
      fun a b => a.createdAt < b.createdAt := by
    rw [same.versions agentId]
    exact List.pairwise_map.mpr (same.rising agentId)
  rw [List.pairwise_map] at mapped
  exact mapped

/-- Rows in the order of creation are turned around by the latest first. -/
theorem sorted_eq_reverse {rows : List AgentVersionRecord}
    (rising : rows.Pairwise fun a b => a.createdAt < b.createdAt) :
    rows.insertionSort (fun left right => right.createdAt ≤ left.createdAt) = rows.reverse :=
  insertionSort_eq_reverse (rising.imp fun less => not_le.mpr less)

/-- Both lists of the versions of an agent are the order of creation, turned around. -/
theorem Same.listVersions (lawful : lib.Lawful) (same : Same lib s t) (agentId : String) :
    (t.findVersions (·.agentId = agentId)).map (·.withoutId) =
      (s.listVersions lib agentId).map (·.withoutId) := by
  rw [(same.sound agentId).listVersions lawful, PrismaStore.findVersions,
    sorted_eq_reverse (same.rows_rising agentId), List.map_reverse, same.versions agentId,
    List.map_reverse]

theorem MemoryStore.Sound.setVersions (sound : s.Sound lib) {versions : List AgentVersionRecord}
    (ordered : Ordered lib versions) : (s.setVersions agentId versions).Sound lib := by
  intro other
  by_cases hit : other = agentId
  · subst hit
    rw [MemoryStore.setVersions_same]
    exact ordered
  · rw [MemoryStore.setVersions_other s versions hit]
    exact sound other

/-- The patch of a version, on one list. -/
def patched (version : String) (patch : VersionPatch) (item : AgentVersionRecord) :
    AgentVersionRecord :=
  if item.version = version then patch.apply item else item

theorem patched_withoutId (version : String) (patch : VersionPatch) (item : AgentVersionRecord) :
    (patched version patch item).withoutId = patched version patch item.withoutId := by
  unfold patched
  by_cases hit : item.version = version
  · rw [if_pos hit, if_pos (show item.withoutId.version = version from hit)]
    rfl
  · rw [if_neg hit, if_neg (show item.withoutId.version ≠ version from hit)]

theorem patched_createdAt (version : String) (patch : VersionPatch) (item : AgentVersionRecord) :
    (patched version patch item).createdAt = item.createdAt := by
  unfold patched
  split <;> rfl

/-- Lists that are the same without ids stay so under a patch. -/
theorem map_withoutId_patched {rows versions : List AgentVersionRecord}
    (same : rows.map (·.withoutId) = versions.map (·.withoutId)) (version : String)
    (patch : VersionPatch) : (rows.map (patched version patch)).map (·.withoutId) =
      (versions.map (patched version patch)).map (·.withoutId) := by
  have through (items : List AgentVersionRecord) :
      (items.map (patched version patch)).map (·.withoutId) =
        (items.map (·.withoutId)).map (patched version patch) := by
    rw [List.map_map, List.map_map]
    exact List.map_congr_left fun item _ => patched_withoutId version patch item
  rw [through, through, same]

/-- The rows of an agent after `updateMany`. -/
theorem PrismaStore.rows_updateVersions (t : PrismaStore) (agentId version other : String)
    (patch : VersionPatch) :
    ((t.updateVersions (·.isVersion agentId version) patch).versions.filter
      (·.agentId = other)) =
    if other = agentId then
      (t.versions.filter (·.agentId = other)).map (patched version patch)
    else t.versions.filter (·.agentId = other) := by
  simp only [updateVersions]
  induction t.versions with
  | nil => simp
  | cons item items ih =>
      have kept : (if item.isVersion agentId version then patch.apply item else item).agentId =
          item.agentId := by
        split <;> rfl
      rw [List.map_cons, List.filter_cons, List.filter_cons, kept, ih]
      by_cases own : item.agentId = other
      · by_cases hit : other = agentId
        · simp [own, hit, patched, AgentVersionRecord.isVersion]
        · simp [own, hit, AgentVersionRecord.isVersion]
      · simp [own]

theorem Same.update (same : Same lib s t) (lawful : lib.Lawful) {patch : VersionPatch}
    (ordered : Ordered lib (MemoryStore.replaceVersion version patch (s.versions agentId))) :
    Same lib (s.setVersions agentId
      (MemoryStore.replaceVersion version patch (s.versions agentId)))
      (t.updateVersions (·.isVersion agentId version) patch) := by
  have replaced : MemoryStore.replaceVersion version patch (s.versions agentId) =
      (s.versions agentId).map fun item =>
        if item.version = version then patch.apply item else item :=
    replaceVersion_eq_map ((same.sound agentId).distinct lawful)
  refine ⟨same.sound.setVersions ordered, fun other => ?_, same.agents, fun other => ?_⟩
  · by_cases hit : other = agentId
    · subst hit
      rw [MemoryStore.setVersions_same, replaced]
      refine List.pairwise_map.mpr ((same.rising other).imp fun {a b} less => ?_)
      have earlier := patched_createdAt version patch a
      have later := patched_createdAt version patch b
      unfold patched at earlier later
      rw [earlier, later]
      exact less
    · rw [MemoryStore.setVersions_other s _ hit]
      exact same.rising other
  · rw [t.rows_updateVersions]
    by_cases hit : other = agentId
    · subst hit
      rw [if_pos rfl, MemoryStore.setVersions_same, replaced]
      exact map_withoutId_patched (same.versions other) version patch
    · rw [if_neg hit, MemoryStore.setVersions_other s _ hit]
      exact same.versions other

/-! ### The row that an update answers -/

theorem filter_version_le_one {versions : List AgentVersionRecord}
    (distinct : (versions.map (·.version)).Nodup) (version : String) :
    (versions.filter (·.version = version)).length ≤ 1 := by
  have counted := List.nodup_iff_count_le_one.mp distinct version
  rw [List.count, List.countP_map] at counted
  rw [← List.countP_eq_length_filter]
  exact counted

theorem map_version_withoutId (versions : List AgentVersionRecord) :
    (versions.map (·.withoutId)).map (·.version) = versions.map (·.version) := by
  rw [List.map_map]
  rfl

theorem patched_version (version : String) (patch : VersionPatch) (item : AgentVersionRecord) :
    (patched version patch item).version = item.version := by
  unfold patched
  split <;> rfl

theorem find_withoutId {rows versions : List AgentVersionRecord}
    (same : rows.map (·.withoutId) = versions.map (·.withoutId)) (version : String) :
    (rows.find? (·.version = version)).map (·.withoutId) =
      (versions.find? (·.version = version)).map (·.withoutId) := by
  have through (items : List AgentVersionRecord) :
      (items.find? (·.version = version)).map (·.withoutId) =
        (items.map (·.withoutId)).find? (·.version = version) := by
    rw [List.find?_map]
    rfl
  rw [through, through, same]

/-- The version that is found after a patch is the patched one. -/
theorem find_patched (versions : List AgentVersionRecord) (version : String)
    (patch : VersionPatch) :
    (versions.map (patched version patch)).find? (·.version = version) =
      (versions.find? (·.version = version)).map patch.apply := by
  induction versions with
  | nil => rfl
  | cons item items ih =>
      rw [List.map_cons, List.find?_cons, List.find?_cons, patched_version]
      by_cases hit : item.version = version
      · simp [hit, patched]
      · simpa [hit] using ih

/-- `updateMany` followed by the search for the latest such row answers as the store in memory
does. -/
theorem Same.find (same : Same lib s t) (lawful : lib.Lawful) (patch : VersionPatch) :
    ((t.updateVersions (·.isVersion agentId version) patch).findVersions
      (·.isVersion agentId version)).head?.map (·.withoutId) =
    ((s.versions agentId).find? (·.version = version)).map fun current =>
      (patch.apply current).withoutId := by
  have rows := same.versions agentId
  have distinct := (same.sound agentId).distinct lawful
  have split : (t.updateVersions (·.isVersion agentId version) patch).versions.filter
      (·.isVersion agentId version) =
      ((t.versions.filter (·.agentId = agentId)).map (patched version patch)).filter
        (·.version = version) := by
    have own := t.rows_updateVersions agentId version agentId patch
    rw [if_pos rfl] at own
    rw [← own, List.filter_filter]
    refine List.filter_congr fun item _ => ?_
    simp [AgentVersionRecord.isVersion, Bool.and_comm]
  rw [PrismaStore.findVersions, split]
  have mapped := map_withoutId_patched rows version patch
  generalize patches : (t.versions.filter (·.agentId = agentId)).map (patched version patch) =
    patchedRows at mapped ⊢
  have single : (patchedRows.filter (·.version = version)).length ≤ 1 := by
    refine filter_version_le_one ?_ version
    rw [← map_version_withoutId, mapped, map_version_withoutId, List.map_map,
      show (fun item : AgentVersionRecord => item.version) ∘ patched version patch =
        fun item => item.version from funext (patched_version version patch)]
    exact distinct
  have sorted : (patchedRows.filter (·.version = version)).insertionSort
      (fun left right => right.createdAt ≤ left.createdAt) =
        patchedRows.filter (·.version = version) := by
    generalize patchedRows.filter (·.version = version) = found at single ⊢
    rcases found with _ | ⟨a, _ | ⟨b, rest⟩⟩
    · rfl
    · rfl
    · simp at single
  rw [sorted, List.head?_filter, find_withoutId mapped, find_patched, Option.map_map]
  rfl

/-! ## The operations in lockstep -/

/-- A program over the store in memory and one over the tables go on together. -/
abbrev Along {β γ : Type} (lib : Libraries)
    (Q : Except String β → Except String γ → MemoryStore → PrismaStore → Prop)
    (p : Prog RegistryIface β) (q : Prog RegistryIface γ) (s : MemoryStore) (t : PrismaStore) :
    Prop :=
  Lockstep (risingRegistry lib) (prismaRegistry lib) (fun choice => choice) Q p q s t

section Operations

theorem along_now {Q : Except String Int → Except String Int → MemoryStore → PrismaStore → Prop}
    (ends : ∀ now, Q (.ok now) (.ok now) s t) : Along lib Q (await .now) (await .now) s t := by
  refine Lockstep.perform fun choice answer s₁ answered => ?_
  cases answered
  exact ⟨_, _, rfl, ends choice.now⟩

theorem along_record {event : AuditEvent}
    {Q : Except String Unit → Except String Unit → MemoryStore → PrismaStore → Prop}
    (fails : ∀ e, Q (.error e) (.error e) s t) (ends : Q (.ok ()) (.ok ()) s t) :
    Along lib Q (await (.record event)) (await (.record event)) s t := by
  refine Lockstep.perform fun choice answer s₁ answered => ?_
  cases answered
  refine ⟨_, _, rfl, ?_⟩
  show together Q (fun a b => Q (.ok a) (.ok b)) (choice.audit event) (choice.audit event) s t
  unfold Choice.audit
  split
  · exact ends
  · exact fails _

theorem along_listVersions
    {Q : Except String (List AgentVersionRecord) → Except String (List AgentVersionRecord) →
      MemoryStore → PrismaStore → Prop}
    (ends : Q (.ok (s.listVersions lib agentId)) (.ok (t.findVersions (·.agentId = agentId))) s t) :
    Along lib Q (await (.listVersions agentId)) (await (.listVersions agentId)) s t := by
  refine Lockstep.perform fun choice answer s₁ answered => ?_
  cases answered
  exact ⟨_, _, rfl, ends⟩

theorem along_listAgents {tenantId : String}
    {Q : Except String (List AgentRecord) → Except String (List AgentRecord) →
      MemoryStore → PrismaStore → Prop} (same : Same lib s t)
    (ends : ∀ agents, agents = s.agents.filter (·.tenantId = tenantId) →
      Q (.ok agents) (.ok agents) s t) :
    Along lib Q (await (.listAgentsByTenant tenantId)) (await (.listAgentsByTenant tenantId))
      s t := by
  refine Lockstep.perform fun choice answer s₁ answered => ?_
  cases answered
  refine ⟨_, _, rfl, ?_⟩
  show Q (.ok _) (.ok (t.agents.filter (·.tenantId = tenantId))) s t
  rw [same.agents]
  exact ends _ rfl

theorem along_ensureAgent {input : AgentInput}
    {Q : Except String AgentRecord → Except String AgentRecord →
      MemoryStore → PrismaStore → Prop} (same : Same lib s t)
    (ends : ∀ agent s' t', Same lib s' t' → s'.versions = s.versions →
      Q (.ok agent) (.ok agent) s' t') :
    Along lib Q (await (.ensureAgent input)) (await (.ensureAgent input)) s t := by
  refine Lockstep.perform fun choice answer s₁ answered => ?_
  cases answered
  refine ⟨_, _, rfl, ?_⟩
  show Q (.ok (ensureAgent s.agents input choice.now).1)
    (.ok (ensureAgent t.agents input choice.now).1) _ _
  rw [same.agents]
  exact ends _ _ _ ⟨same.sound, same.rising, rfl, same.versions⟩ rfl

theorem along_createVersion {input : VersionInput}
    {Q : Except String AgentVersionRecord → Except String AgentVersionRecord →
      MemoryStore → PrismaStore → Prop} (same : Same lib s t) (lawful : lib.Lawful)
    (valid : lib.valid input.version = true)
    (newer : ∀ latest ∈ (s.versions input.agentId).getLast?,
      lib.gt input.version latest.version = true)
    (ends : ∀ a b s' t', Same lib s' t' → b.withoutId = a.withoutId → Q (.ok a) (.ok b) s' t') :
    Along lib Q (await (.createVersion input)) (await (.createVersion input)) s t := by
  refine Lockstep.perform fun choice answer s₁ answered => ?_
  obtain ⟨later, answered⟩ := Option.ite_none_right_eq_some.mp answered
  cases answered
  refine ⟨_, _, rfl, ends _ _ _ _ ⟨?_, fun other => ?_, same.agents, fun other => ?_⟩ rfl⟩
  · exact same.sound.setVersions ((same.sound input.agentId).append lawful valid newer rfl)
  · by_cases hit : other = input.agentId
    · subst hit
      rw [MemoryStore.setVersions_same]
      refine List.pairwise_append.mpr ⟨same.rising _, List.pairwise_singleton _ _,
        fun a inside b now => ?_⟩
      rw [List.mem_singleton.mp now]
      exact of_decide_eq_true (List.all_eq_true.mp later a inside)
    · rw [MemoryStore.setVersions_other s _ hit]
      exact same.rising other
  · show ((t.versions ++ [input.record choice.newId choice.now]).filter
      (·.agentId = other)).map (·.withoutId) = _
    rw [List.filter_append, List.map_append, same.versions other]
    by_cases hit : other = input.agentId
    · subst hit
      rw [MemoryStore.setVersions_same, List.map_append]
      simp [VersionInput.record, AgentVersionRecord.withoutId]
    · rw [MemoryStore.setVersions_other s _ hit]
      simp [VersionInput.record, Ne.symm hit]

/-- A version that is not there is not replaced. -/
theorem replaceVersion_of_missing {versions : List AgentVersionRecord} {patch : VersionPatch}
    (missing : versions.find? (·.version = version) = none) :
    MemoryStore.replaceVersion version patch versions = versions := by
  induction versions with
  | nil => rfl
  | cons item items ih =>
      rw [List.find?_cons] at missing
      by_cases hit : item.version = version
      · simp [hit] at missing
      · rw [MemoryStore.replaceVersion, if_neg hit, ih (by simpa [hit] using missing)]

theorem along_updateVersion {patch : VersionPatch}
    {Q : Except String AgentVersionRecord → Except String AgentVersionRecord →
      MemoryStore → PrismaStore → Prop} (same : Same lib s t) (lawful : lib.Lawful)
    (ordered : Ordered lib (MemoryStore.replaceVersion version patch (s.versions agentId)))
    (missing : (s.versions agentId).find? (·.version = version) = none → ∀ t', Same lib s t' →
      Q (.error (versionMissing agentId version).1) (.error (versionMissing agentId version).2)
        s t')
    (ends : ∀ a b t', (∃ item ∈ s.versions agentId, item.version = version) →
      Same lib (s.setVersions agentId
        (MemoryStore.replaceVersion version patch (s.versions agentId))) t' →
      b.withoutId = a.withoutId → Q (.ok a) (.ok b) (s.setVersions agentId
        (MemoryStore.replaceVersion version patch (s.versions agentId))) t') :
    Along lib Q (await (.updateVersion agentId version patch))
      (await (.updateVersion agentId version patch)) s t := by
  refine Lockstep.perform fun choice answer s₁ answered => ?_
  have found : ((t.updateVersions (·.isVersion agentId version) patch).findVersions
      (·.isVersion agentId version)).head?.map (·.withoutId) = _ := same.find lawful patch
  have updated := same.update lawful ordered
  have performed : s.perform lib choice (.updateVersion agentId version patch) = (answer, s₁) :=
    Option.some.inj answered
  refine ⟨_, _, rfl, ?_⟩
  show together Q _ answer (t.perform choice (.updateVersion agentId version patch)).1 s₁
    (t.perform choice (.updateVersion agentId version patch)).2
  simp only [MemoryStore.perform] at performed
  simp only [PrismaStore.perform]
  split at performed
  · rename_i absent
    obtain ⟨rfl, rfl⟩ := Prod.mk.inj performed
    rw [absent, Option.map_none, Option.map_eq_none_iff] at found
    rw [found]
    refine missing absent _ ?_
    rw [replaceVersion_of_missing absent] at updated
    simpa [MemoryStore.setVersions] using updated
  · rename_i current present
    obtain ⟨rfl, rfl⟩ := Prod.mk.inj performed
    rw [present, Option.map_some, Option.map_eq_some_iff] at found
    obtain ⟨row, isRow, alike⟩ := found
    rw [isRow]
    exact ends _ _ _ ⟨current, List.mem_of_find?_eq_some present,
      by simpa using List.find?_some present⟩ updated alike

end Operations

/-! ## The calls in lockstep -/

section Calls

variable {α β γ : Type}
  {Q : Except String α → Except String β → MemoryStore → PrismaStore → Prop}

theorem along_ofExcept {c : Except String γ} {f : γ → Prog RegistryIface α}
    {g : γ → Prog RegistryIface β} (fails : ∀ e, Q (.error e) (.error e) s t)
    (rest : ∀ a, c = .ok a → Along lib Q (f a) (g a) s t) :
    Along lib Q (Prog.ofExcept c >>= f) (Prog.ofExcept c >>= g) s t := by
  cases c with
  | error e => exact fails e
  | ok a => exact rest a rfl

theorem along_chronological {latest : Option AgentVersionRecord} {f : Unit → Prog RegistryIface α}
    {g : Unit → Prog RegistryIface β} (fails : ∀ e, Q (.error e) (.error e) s t)
    (rest : Along lib Q (f ()) (g ()) s t) :
    Along lib Q (requireChronologicalConsistency latest >>= f)
      (requireChronologicalConsistency latest >>= g) s t := by
  cases latest with
  | none => exact rest
  | some latest =>
      refine Lockstep.bind (Lockstep.bind (along_now fun now => ?_))
      show Along lib _ (if latest.createdAt > now then _ else _) _ s t
      split
      · exact fails _
      · exact rest

/-! ### What the calls read of a version -/

theorem requireChronologicalConsistency_withoutId {latest latest' : Option AgentVersionRecord}
    (alike : latest'.map (·.withoutId) = latest.map (·.withoutId)) :
    requireChronologicalConsistency latest' = requireChronologicalConsistency latest := by
  have through (o : Option AgentVersionRecord) : requireChronologicalConsistency o =
      requireChronologicalConsistency (o.map (·.withoutId)) := by
    cases o <;> rfl
  rw [through, alike, ← through]

theorem requireNewerVersion_withoutId {latest latest' : Option AgentVersionRecord}
    {version : String} (alike : latest'.map (·.withoutId) = latest.map (·.withoutId)) :
    requireNewerVersion lib latest' version = requireNewerVersion lib latest version := by
  have through (o : Option AgentVersionRecord) : requireNewerVersion lib o version =
      requireNewerVersion lib (o.map (·.withoutId)) version := by
    cases o <;> rfl
  rw [through, alike, ← through]

theorem requireChangelogIfNeeded_withoutId {latest latest' : Option AgentVersionRecord}
    {version : String} {changelog : Option String}
    (alike : latest'.map (·.withoutId) = latest.map (·.withoutId)) :
    requireChangelogIfNeeded lib latest' version changelog =
      requireChangelogIfNeeded lib latest version changelog := by
  have through (o : Option AgentVersionRecord) : requireChangelogIfNeeded lib o version changelog =
      requireChangelogIfNeeded lib (o.map (·.withoutId)) version changelog := by
    cases o <;> rfl
  rw [through, alike, ← through]

theorem deprecateCurrent_withoutId {current current' : Option AgentVersionRecord}
    (alike : current'.map (·.withoutId) = current.map (·.withoutId)) :
    deprecateCurrent agentId current' = deprecateCurrent agentId current := by
  have through (o : Option AgentVersionRecord) : deprecateCurrent agentId o =
      deprecateCurrent agentId (o.map (·.withoutId)) := by
    cases o <;> rfl
  rw [through, alike, ← through]

/-- What is found by a property that does not depend on the id. -/
theorem find_alike {p : AgentVersionRecord → Bool} (plain : ∀ item, p item.withoutId = p item)
    {listed listed' : List AgentVersionRecord}
    (alike : listed'.map (·.withoutId) = listed.map (·.withoutId)) :
    (listed'.find? p).map (·.withoutId) = (listed.find? p).map (·.withoutId) := by
  have through (items : List AgentVersionRecord) :
      (items.find? p).map (·.withoutId) = (items.map (·.withoutId)).find? p := by
    rw [List.find?_map, show p ∘ (fun item => item.withoutId) = p from funext plain]
  rw [through, through, alike]

/-! ### The calls -/

/-- A call that returns a version ends alike over both stores. -/
def RecordsMatch (lib : Libraries) (x y : Except String AgentVersionRecord) (s : MemoryStore)
    (t : PrismaStore) : Prop :=
  Same lib s t ∧ y.map (·.withoutId) = x.map (·.withoutId)

theorem along_createNextVersion {input : CreateAgentVersionInput} (lawful : lib.Lawful)
    (same : Same lib s t) (valid : lib.valid input.version = true) :
    Along lib (RecordsMatch lib) (createNextVersion lib input) (createNextVersion lib input)
      s t := by
  refine Lockstep.bind (along_listVersions ?_)
  have heads := congrArg List.head? (same.listVersions lawful input.agentId)
  rw [List.head?_map, List.head?_map] at heads
  have last : ∀ latest ∈ (s.versions input.agentId).getLast?,
      (s.listVersions lib input.agentId).head? = some latest := by
    intro latest isLast
    rw [(same.sound input.agentId).listVersions lawful, List.head?_reverse]
    exact isLast
  show Along lib _
    (requireChronologicalConsistency (s.listVersions lib input.agentId).head? >>= _)
    (requireChronologicalConsistency (t.findVersions (·.agentId = input.agentId)).head? >>= _) s t
  rw [requireChronologicalConsistency_withoutId heads, requireNewerVersion_withoutId heads,
    requireChangelogIfNeeded_withoutId heads]
  refine along_chronological (fun e => ⟨same, rfl⟩) ?_
  refine along_ofExcept (fun e => ⟨same, rfl⟩) fun _ newer => ?_
  refine along_ofExcept (fun e => ⟨same, rfl⟩) fun _ _ => ?_
  refine Lockstep.bind (along_createVersion same lawful valid (fun latest isLast => ?_)
    fun a b s' t' same' alike => ?_)
  · rw [last latest isLast] at newer
    simp only [requireNewerVersion] at newer
    split at newer
    · assumption
    · cases newer
  · have digest : b.manifestDigest = a.manifestDigest :=
      show b.withoutId.manifestDigest = a.withoutId.manifestDigest by rw [alike]
    show Along lib _ (await _ >>= _) (await _ >>= _) s' t'
    rw [digest]
    exact Lockstep.bind (along_record (fun e => ⟨same', rfl⟩)
      ⟨same', congrArg Except.ok alike⟩)

theorem along_createVersion_call {input : CreateAgentVersionInput} (lawful : lib.Lawful)
    (same : Same lib s t) :
    Along lib (RecordsMatch lib) (createVersion lib input) (createVersion lib input) s t := by
  unfold createVersion
  split
  · exact ⟨same, rfl⟩
  · rename_i valid
    refine Lockstep.bind (along_ensureAgent same fun agent s' t' same' kept => ?_)
    exact along_createNextVersion lawful same' (by simpa using valid)

/-- A version that is there is published when no other one is. -/
theorem along_publishNow (lawful : lib.Lawful) (same : Same lib s t)
    (there : ∃ item ∈ s.versions agentId, item.version = version)
    (alone : ∀ item ∈ s.versions agentId, item.status = .PUBLISHED → item.version = version) :
    Along lib (RecordsMatch lib) (publishNow agentId version) (publishNow agentId version) s t := by
  refine Lockstep.bind (along_now fun now => along_updateVersion same lawful ?_
    (fun missing => absurd missing (find_version_ne_none there))
    fun a b t' _ same' alike => ⟨same', congrArg Except.ok alike⟩)
  exact (same.sound agentId).replace lawful (fun _ => alone) fun _ => rfl

theorem along_release {event : AuditEvent} {current : Option AgentVersionRecord}
    (lawful : lib.Lawful) (same : Same lib s t)
    (there : ∃ item ∈ s.versions agentId, item.version = version)
    (listed : ∀ item ∈ current, item ∈ s.versions agentId)
    (covers : Covers current version (s.versions agentId)) :
    Along lib (RecordsMatch lib)
      (do
        deprecateCurrent agentId current
        let updated ← publishNow agentId version
        await (.record event)
        pure updated)
      (do
        deprecateCurrent agentId current
        let updated ← publishNow agentId version
        await (.record event)
        pure updated) s t := by
  -- publishing once nothing else is published, and the audit event
  have publishes {s : MemoryStore} {t : PrismaStore} (same : Same lib s t)
      (there : ∃ item ∈ s.versions agentId, item.version = version)
      (alone : ∀ item ∈ s.versions agentId, item.status = .PUBLISHED →
        item.version = version) :
      Along lib (RecordsMatch lib)
        (do
          let updated ← publishNow agentId version
          await (.record event)
          pure updated)
        (do
          let updated ← publishNow agentId version
          await (.record event)
          pure updated) s t := by
    refine Lockstep.bind (Lockstep.mono (fun x y s t ends => ?_)
      (along_publishNow lawful same there alone))
    obtain ⟨same', alike⟩ := ends
    cases x with
    | ok a =>
        cases y with
        | ok b =>
            exact Lockstep.bind (along_record (fun e => ⟨same', rfl⟩) ⟨same', alike⟩)
        | error e => cases alike
    | error e =>
        cases y with
        | ok b => cases alike
        | error e' => exact ⟨same', alike⟩
  have alone := covers.retire lawful (same.sound agentId)
  cases current with
  | none => exact publishes same there alone
  | some current =>
      refine Lockstep.bind (Lockstep.bind (along_updateVersion same lawful
        ((same.sound agentId).deprecated lawful)
        (fun missing => absurd missing (find_version_ne_none ⟨current, listed current rfl, rfl⟩))
        fun a b t' _ same' alike => publishes same' ?_ ?_))
      · rw [MemoryStore.setVersions_same]
        refine List.mem_map.mp ?_
        rw [replaceVersion_versions]
        exact List.mem_map.mpr there
      · rw [MemoryStore.setVersions_same]
        exact alone

theorem along_publishVersion {tenantId : String} (lawful : lib.Lawful) (same : Same lib s t) :
    Along lib (RecordsMatch lib) (publishVersion agentId version tenantId)
      (publishVersion agentId version tenantId) s t := by
  refine Lockstep.bind (along_listVersions ?_)
  have alike := same.listVersions lawful agentId
  have target := find_alike (p := (·.version = version)) (fun _ => rfl) alike
  have current := find_alike
    (p := fun item => item.status = .PUBLISHED ∧ item.version ≠ version) (fun _ => rfl) alike
  show Along lib (RecordsMatch lib) _ _ s t
  cases found : (s.listVersions lib agentId).find? (·.version = version) with
  | none =>
      rw [found, Option.map_none, Option.map_eq_none_iff] at target
      rw [target]
      exact ⟨same, rfl⟩
  | some item =>
      rw [found, Option.map_some, Option.map_eq_some_iff] at target
      obtain ⟨row, isRow, _⟩ := target
      rw [isRow]
      dsimp only
      rw [deprecateCurrent_withoutId current]
      refine along_release lawful same ⟨item, mem_listVersions.mp (List.mem_of_find?_eq_some found),
        by simpa using List.find?_some found⟩ (fun item inside => ?_)
        (covers_publish (same.sound agentId))
      exact mem_listVersions.mp (List.mem_of_find?_eq_some inside)

/-- What is read of a version that may be there. -/
theorem map_alike {δ : Type} {f : AgentVersionRecord → δ} (plain : ∀ item, f item.withoutId = f item)
    {current current' : Option AgentVersionRecord}
    (alike : current'.map (·.withoutId) = current.map (·.withoutId)) :
    current'.map f = current.map f := by
  have through (o : Option AgentVersionRecord) : o.map f = (o.map (·.withoutId)).map f := by
    cases o with
    | none => rfl
    | some item => exact congrArg some (plain item).symm
  rw [through, alike, ← through]

theorem filter_alike {p : AgentVersionRecord → Bool} (plain : ∀ item, p item.withoutId = p item)
    {current current' : Option AgentVersionRecord}
    (alike : current'.map (·.withoutId) = current.map (·.withoutId)) :
    (current'.filter p).map (·.withoutId) = (current.filter p).map (·.withoutId) := by
  have through (o : Option AgentVersionRecord) :
      (o.filter p).map (·.withoutId) = (o.map (·.withoutId)).filter p := by
    cases o with
    | none => rfl
    | some item => by_cases passes : p item <;> simp [Option.filter, passes, plain]
  rw [through, through, alike]

theorem along_rollbackVersion {input : RollbackInput} (lawful : lib.Lawful) (same : Same lib s t) :
    Along lib (RecordsMatch lib) (rollbackVersion input) (rollbackVersion input) s t := by
  refine Lockstep.bind (along_listVersions ?_)
  have alike := same.listVersions lawful input.agentId
  have target := find_alike (p := (·.version = input.targetVersion)) (fun _ => rfl) alike
  have current := find_alike (p := (·.status = .PUBLISHED)) (fun _ => rfl) alike
  show Along lib (RecordsMatch lib) _ _ s t
  cases found : (s.listVersions lib input.agentId).find? (·.version = input.targetVersion) with
  | none =>
      rw [found, Option.map_none, Option.map_eq_none_iff] at target
      rw [target]
      exact ⟨same, rfl⟩
  | some item =>
      have named : item.version = input.targetVersion := by simpa using List.find?_some found
      rw [found, Option.map_some, Option.map_eq_some_iff] at target
      obtain ⟨row, isRow, rowAlike⟩ := target
      have rowNamed : row.version = input.targetVersion := by simpa using List.find?_some isRow
      rw [isRow]
      dsimp only
      rw [named, rowNamed, deprecateCurrent_withoutId (filter_alike (fun _ => rfl) current),
        map_alike (f := fun current => ("fromVersion", Json.string current.version))
          (fun _ => rfl) current]
      refine along_release lawful same ⟨item, mem_listVersions.mp (List.mem_of_find?_eq_some found),
        named⟩ (fun item inside => ?_) (covers_rollback (same.sound input.agentId))
      obtain ⟨listed, _⟩ := Option.filter_eq_some_iff.mp inside
      exact mem_listVersions.mp (List.mem_of_find?_eq_some listed)

theorem along_deprecateVersion {tenantId : String} (lawful : lib.Lawful) (same : Same lib s t) :
    Along lib (fun x y s t => RecordsMatch lib x y s t ∨ Same lib s t ∧
        x = .error (versionMissing agentId version).1 ∧
        y = .error (versionMissing agentId version).2)
      (deprecateVersion agentId version tenantId) (deprecateVersion agentId version tenantId)
      s t := by
  refine Lockstep.bind (along_updateVersion same lawful ((same.sound agentId).deprecated lawful)
    (fun _ t' same' => .inr ⟨same', rfl, rfl⟩) fun a b t' _ same' alike => ?_)
  exact Lockstep.bind (along_record (fun e => .inl ⟨same', rfl⟩)
    (.inl ⟨same', congrArg Except.ok alike⟩))

/-! ### Listings -/

/-- An entry of the index without ids. -/
def entryWithoutIds (entry : AgentIndexItem × Bool) : AgentIndexItem × Bool :=
  (entry.1.withoutIds, entry.2)

theorem map_slice {δ ε : Type} (f : δ → ε) (items : List δ) (start stop : Int) :
    (slice items start stop).map f = slice (items.map f) start stop := by
  simp only [slice, List.length_map, List.map_drop, List.map_take]

theorem pageOf_withoutIds (input : ListAgentIndexInput) (indexed : List (AgentIndexItem × Bool)) :
    (Response.page (pageOf lib input indexed)).withoutIds =
      .page (pageOf lib input (indexed.map entryWithoutIds)) := by
  have filtered : ((((indexed.map entryWithoutIds).filter (·.2)).map (·.1)).filter
      (·.isFound lib input)) =
      ((((indexed.filter (·.2)).map (·.1)).filter (·.isFound lib input)).map (·.withoutIds)) := by
    have asked : (indexed.map entryWithoutIds).filter (·.2) =
        (indexed.filter (·.2)).map entryWithoutIds := List.filter_map ..
    have plain (items : List (AgentIndexItem × Bool)) :
        (items.map entryWithoutIds).map (·.1) = (items.map (·.1)).map (·.withoutIds) := by
      rw [List.map_map, List.map_map]
      rfl
    rw [asked, plain, List.filter_map]
    rfl
  simp only [pageOf, Response.withoutIds, filtered, map_slice, List.length_map]

theorem indexAgent_alike (input : ListAgentIndexInput) (agent : AgentRecord)
    {listed listed' : List AgentVersionRecord}
    (alike : listed'.map (·.withoutId) = listed.map (·.withoutId)) :
    entryWithoutIds (indexAgent input agent listed') =
      entryWithoutIds (indexAgent input agent listed) := by
  have through (items : List AgentVersionRecord) :
      entryWithoutIds (indexAgent input agent items) =
        indexAgent input agent (items.map (·.withoutId)) := by
    simp only [indexAgent, entryWithoutIds, AgentIndexItem.withoutIds, List.head?_map,
      List.find?_map]
    cases input.version.filter (· ≠ "") with
    | none =>
        simp only [List.filter_map, List.isEmpty_map]
        rfl
    | some version =>
        simp only [List.filter_map, List.isEmpty_map]
        rfl
  rw [through, through, alike]

theorem along_indexAgents {input : ListAgentIndexInput} (lawful : lib.Lawful)
    (same : Same lib s t) (agents : List AgentRecord) :
    Along lib (fun x y s t => Same lib s t ∧ ∃ indexed indexed', x = .ok indexed ∧
        y = .ok indexed' ∧ indexed'.map entryWithoutIds = indexed.map entryWithoutIds)
      (indexAgents input agents) (indexAgents input agents) s t := by
  induction agents with
  | nil => exact ⟨same, [], [], rfl, rfl, rfl⟩
  | cons agent agents ih =>
      refine Lockstep.bind (along_listVersions (Lockstep.bind (Lockstep.mono (fun x y s' t' ends => ?_)
        ih)))
      obtain ⟨same', indexed, indexed', rfl, rfl, alike⟩ := ends
      refine ⟨same', _, _, rfl, rfl, ?_⟩
      rw [List.map_cons, List.map_cons, alike,
        indexAgent_alike input agent (same.listVersions lawful agent.id)]

theorem along_listByTenant {input : ListAgentIndexInput} (lawful : lib.Lawful)
    (same : Same lib s t) :
    Along lib (fun x y s t => Same lib s t ∧ y.map (fun page => (Response.page page).withoutIds) =
        x.map fun page => (Response.page page).withoutIds)
      (listByTenant lib input) (listByTenant lib input) s t := by
  refine Lockstep.bind (along_listAgents same fun agents _ => ?_)
  refine Lockstep.bind (Lockstep.mono (fun x y s' t' ends => ?_)
    (along_indexAgents lawful same agents))
  obtain ⟨same', indexed, indexed', rfl, rfl, alike⟩ := ends
  refine ⟨same', congrArg Except.ok ?_⟩
  dsimp only
  rw [pageOf_withoutIds, pageOf_withoutIds, alike]

/-- A call whose version is answered. -/
theorem along_answer {call : Call} {p q : Prog RegistryIface AgentVersionRecord}
    (both : Along lib (RecordsMatch lib) p q s t) :
    Along lib (fun x y s t => Same lib s t ∧ Matches call x y)
      (p >>= fun record => pure (Response.version record))
      (q >>= fun record => pure (Response.version record)) s t := by
  refine Lockstep.bind (Lockstep.mono (fun x y s t ends => ?_) both)
  obtain ⟨same, alike⟩ := ends
  cases x with
  | ok a =>
      cases y with
      | ok b => exact ⟨same, .inl (congrArg (fun record => Except.ok (Response.version record))
          (Except.ok.inj alike))⟩
      | error e => cases alike
  | error e =>
      cases y with
      | ok b => cases alike
      | error e' => exact ⟨same, .inl (congrArg Except.error (Except.error.inj alike))⟩

/-- Every call goes on alike over both stores. -/
theorem along_serve (lawful : lib.Lawful) (call : Call) (same : Same lib s t) :
    Along lib (fun x y s t => Same lib s t ∧ Matches call x y) (serve lib call) (serve lib call)
      s t := by
  cases call with
  | createVersion input => exact along_answer (along_createVersion_call lawful same)
  | publishVersion agentId version tenantId =>
      exact along_answer (along_publishVersion lawful same)
  | rollbackVersion input => exact along_answer (along_rollbackVersion lawful same)
  | deprecateVersion agentId version tenantId =>
      refine Lockstep.bind (Lockstep.mono (fun x y s t ends => ?_)
        (along_deprecateVersion lawful same))
      rcases ends with ⟨same', alike⟩ | ⟨same', rfl, rfl⟩
      · cases x with
        | ok a =>
            cases y with
            | ok b => exact ⟨same', .inl (congrArg (fun record => Except.ok (Response.version record))
                (Except.ok.inj alike))⟩
            | error e => cases alike
        | error e =>
            cases y with
            | ok b => cases alike
            | error e' => exact ⟨same', .inl (congrArg Except.error (Except.error.inj alike))⟩
      · exact ⟨same', .inr ⟨agentId, version, tenantId, rfl, rfl, rfl⟩⟩
  | listByTenant input =>
      refine Lockstep.bind (Lockstep.mono (fun x y s t ends => ?_)
        (along_listByTenant lawful same))
      obtain ⟨same', alike⟩ := ends
      cases x with
      | ok a =>
          cases y with
          | ok b => exact ⟨same', .inl alike⟩
          | error e => cases alike
      | error e =>
          cases y with
          | ok b => cases alike
          | error e' => exact ⟨same', .inl (congrArg Except.error (Except.error.inj alike))⟩

end Calls

/-! ## Histories -/

/-- **The stores are interchangeable.** Over the tables every history of calls, at the same
times and with increasing times of creation, has the results that it has over the store in
memory, up to the ids of records and the message for the deprecation of a version that is not
there. -/
theorem stores_interchangeable (lawful : lib.Lawful) {requests : List (Call × List Choice)}
    {calls : List (Effect.Call RegistryIface Call Response)}
    (served : (risingRegistry lib).serve (fun _ _ => true) {} requests = some (calls, s)) :
    ∃ calls' t, (prismaRegistry lib).serve (fun _ _ => true) {} requests = some (calls', t) ∧
      SameCalls Matches calls calls' := by
  obtain ⟨calls', t, served', _, alike⟩ := Lockstep.serve
    (fun call s t same => along_serve lawful call same) (Same.empty : Same lib {} {}) served
  have unchanged : (requests.map fun request => (request.1, request.2.map fun choice => choice)) =
      requests := by
    simp
  exact ⟨calls', t, (congrArg ((prismaRegistry lib).serve (fun _ _ => true) {})
    unchanged).symm.trans served', alike⟩

/-- Two versions are created and the second is published; a third was never there. -/
def missingDeprecated : List (Call × List Choice) :=
  [(.createVersion (newVersion "1.0.0"), atTime 1),
   (.createVersion (newVersion "1.10.0"), atTime 2),
   (.publishVersion "agent" "1.10.0" "tenant", atTime 3),
   (.deprecateVersion "agent" "2.0.0" "tenant", atTime 4)]

def memoryHistory : Option (List (Effect.Call RegistryIface Call Response) × MemoryStore) :=
  (risingRegistry releaseLibraries).serve (fun _ _ => true) {} missingDeprecated

theorem missingDeprecated_interchangeable :
    ∃ calls' t, (prismaRegistry releaseLibraries).serve (fun _ _ => true) {} missingDeprecated =
      some (calls', t) ∧ SameCalls Matches (memoryHistory.get (by decide)).1 calls' :=
  stores_interchangeable releaseLibraries_lawful
    (Option.some_get (show memoryHistory.isSome by decide)).symm

def errorOf {α : Type} : Except String α → Option String
  | .ok _ => none
  | .error message => some message

/-- The messages of the two stores for the version that was never there differ. -/
theorem missingDeprecated_messages :
    ¬ ∃ calls' t, (prismaRegistry releaseLibraries).serve (fun _ _ => true) {} missingDeprecated =
      some (calls', t) ∧ SameCalls (fun _ x y => y.map Response.withoutIds =
        x.map Response.withoutIds) (memoryHistory.get (by decide)).1 calls' := by
  rintro ⟨calls', t, served, same⟩
  have messages : ((prismaRegistry releaseLibraries).serve (fun _ _ => true) {}
      missingDeprecated).map (fun ends => ends.1.map fun call => errorOf call.result) =
      some [none, none, none, some (versionMissing "agent" "2.0.0").2] := by
    decide
  have messages' : (memoryHistory.get (by decide)).1.map (fun call =>
      errorOf call.result) = [none, none, none, some (versionMissing "agent" "2.0.0").1] := by
    decide
  rw [served] at messages
  have alike : calls'.map (fun call => errorOf call.result) =
      (memoryHistory.get (by decide)).1.map fun call => errorOf call.result := by
    refine (List.forall₂_eq_eq_eq ▸ List.forall₂_map_left_iff.mpr
      (List.forall₂_map_right_iff.mpr (same.imp fun call call' ends => ?_))).symm
    have errors (x : Except String Response) : errorOf (x.map Response.withoutIds) = errorOf x := by
      cases x <;> rfl
    rw [← errors call.result, ← errors call'.result, ends.2]
  rw [Option.map_some, alike, messages'] at messages
  exact absurd (Option.some.inj messages) (by decide)

end Registry
