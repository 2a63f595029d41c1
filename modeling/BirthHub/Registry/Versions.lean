import BirthHub.Data.Table
import BirthHub.Registry.Model

/-!
# The versions of an agent

The store in memory keeps the versions of an agent in the order of their creation, and the
registry compares a new version with the head of a list sorted by version. `Ordered` is the
invariant that makes the head of that list the version made last: the versions increase. With
it at most one version is published.

Each call is taken apart once (`exec_createVersion`, `exec_publishVersion`, …), the invariant is
carried over what it does to the versions, and `versions_ordered` is the statement about
every history of calls.
-/

namespace Registry

open Data Effect

/-! ## The order of versions -/

/-- What `semver` promises: the order of valid versions is a strict weak order. -/
structure Libraries.Lawful (lib : Libraries) : Prop where
  swap : ∀ {left right : String}, lib.valid left = true → lib.valid right = true →
    lib.compare right left = (lib.compare left right).swap
  trans : ∀ {a b c : String}, lib.valid a = true → lib.valid b = true → lib.valid c = true →
    lib.compare a b = .lt → lib.compare b c = .lt → lib.compare a c = .lt

/-- Versions that are compared by their places in a linear order. -/
theorem Libraries.Lawful.of_rank {α : Type} [LinearOrder α] {lib : Libraries} (rank : String → α)
    (ranked : ∀ left right, lib.compare left right = Ord.compare (rank left) (rank right)) :
    lib.Lawful where
  swap _ _ := by
    rw [ranked, ranked]
    exact Std.OrientedCmp.eq_swap
  trans _ _ _ first second := by
    rw [ranked, compare_lt_iff_lt] at first second ⊢
    exact first.trans second

/-! ## The invariant -/

/-- The versions of an agent, in the order of their creation. -/
structure Ordered (lib : Libraries) (versions : List AgentVersionRecord) : Prop where
  valid : ∀ item ∈ versions, lib.valid item.version = true
  increasing : versions.Pairwise fun a b => lib.compare a.version b.version = .lt
  single : ∀ a ∈ versions, ∀ b ∈ versions, a.status = .PUBLISHED → b.status = .PUBLISHED →
    a.version = b.version
  dated : ∀ item ∈ versions, item.status = .PUBLISHED → item.publishedAt.isSome

variable {lib : Libraries} {versions : List AgentVersionRecord}

theorem Ordered.empty : Ordered lib [] where
  valid _ inside := (List.not_mem_nil inside).elim
  increasing := .nil
  single _ inside := (List.not_mem_nil inside).elim
  dated _ inside := (List.not_mem_nil inside).elim

theorem Ordered.distinct (lawful : lib.Lawful) (ordered : Ordered lib versions) :
    (versions.map (·.version)).Nodup := by
  rw [List.Nodup, List.pairwise_map]
  refine ordered.increasing.imp_of_mem fun {a b} inside _ less same => ?_
  rw [← same] at less
  have turned := lawful.swap (ordered.valid a inside) (ordered.valid a inside)
  rw [less] at turned
  cases turned

/-- The sorted list is the list of creation, turned around. -/
theorem Ordered.listVersions (lawful : lib.Lawful) {store : MemoryStore} {agentId : String}
    (ordered : Ordered lib (store.versions agentId)) :
    store.listVersions lib agentId = (store.versions agentId).reverse := by
  refine insertionSort_eq_reverse (ordered.increasing.imp_of_mem fun {a b} first second less => ?_)
  rw [Libraries.rcompare, lawful.swap (ordered.valid a first) (ordered.valid b second), less]
  simp

/-- A version above the one made last is above them all. -/
theorem Ordered.append (lawful : lib.Lawful) (ordered : Ordered lib versions)
    {created : AgentVersionRecord} (valid : lib.valid created.version = true)
    (newer : ∀ latest ∈ versions.getLast?, lib.gt created.version latest.version = true)
    (draft : created.status = .DRAFT) : Ordered lib (versions ++ [created]) := by
  have above (item : AgentVersionRecord) (inside : item ∈ versions) :
      lib.compare item.version created.version = .lt := by
    obtain ⟨before, latest, rfl⟩ :=
      (List.eq_nil_or_concat' versions).resolve_left (List.ne_nil_of_mem inside)
    have isLatest := newer latest (by simp)
    have last : lib.compare latest.version created.version = .lt := by
      rw [lawful.swap valid (ordered.valid latest (by simp)), of_decide_eq_true isLatest]
      rfl
    rcases List.mem_append.mp inside with earlier | now
    · have less := (List.pairwise_append.mp ordered.increasing).2.2 item earlier latest
        List.mem_cons_self
      exact lawful.trans (ordered.valid item inside) (ordered.valid latest (by simp)) valid less
        last
    · rw [List.mem_singleton.mp now]
      exact last
  have unpublished : created.status ≠ .PUBLISHED := by
    rw [draft]
    decide
  refine ⟨fun item inside => ?_, ?_, fun a first b second aPublished bPublished => ?_,
    fun item inside published => ?_⟩
  · rcases List.mem_append.mp inside with before | now
    · exact ordered.valid item before
    · rw [List.mem_singleton.mp now]
      exact valid
  · refine List.pairwise_append.mpr ⟨ordered.increasing, List.pairwise_singleton _ _,
      fun a inside b now => ?_⟩
    rw [List.mem_singleton.mp now]
    exact above a inside
  · rcases List.mem_append.mp first with first | now
    · rcases List.mem_append.mp second with second | now
      · exact ordered.single a first b second aPublished bPublished
      · exact absurd (List.mem_singleton.mp now ▸ bPublished) unpublished
    · exact absurd (List.mem_singleton.mp now ▸ aPublished) unpublished
  · rcases List.mem_append.mp inside with before | now
    · exact ordered.dated item before published
    · exact absurd (List.mem_singleton.mp now ▸ published) unpublished

/-! ### A version is replaced -/

/-- With distinct versions the first one with a text is every one with it. -/
theorem replaceVersion_eq_map {version : String} {patch : VersionPatch}
    (distinct : (versions.map (·.version)).Nodup) :
    MemoryStore.replaceVersion version patch versions =
      versions.map fun item => if item.version = version then patch.apply item else item := by
  induction versions with
  | nil => rfl
  | cons item items ih =>
      obtain ⟨absent, rest⟩ := List.nodup_cons.mp distinct
      rw [MemoryStore.replaceVersion, List.map_cons]
      split
      · rename_i same
        have others : items.map (fun item =>
            if item.version = version then patch.apply item else item) = items := by
          refine (List.map_congr_left fun other inside => ?_).trans (List.map_id items)
          exact if_neg fun hit => absent (List.mem_map.mpr ⟨other, inside, hit.trans same.symm⟩)
        rw [others]
      · rw [ih rest]

/-- Each version stays, and has a time of publication if it had one. -/
def Grows (versions versions' : List AgentVersionRecord) : Prop :=
  ∀ item ∈ versions, ∃ item' ∈ versions', item'.version = item.version ∧
    (item.publishedAt.isSome → item'.publishedAt.isSome)

theorem Grows.refl : Grows versions versions := fun item inside => ⟨item, inside, rfl, id⟩

theorem Grows.trans {versions' versions'' : List AgentVersionRecord}
    (first : Grows versions versions') (second : Grows versions' versions'') :
    Grows versions versions'' := by
  intro item inside
  obtain ⟨item', inside', same, stays⟩ := first item inside
  obtain ⟨item'', inside'', same', stays'⟩ := second item' inside'
  exact ⟨item'', inside'', same'.trans same, stays' ∘ stays⟩

theorem VersionPatch.apply_dated (patch : VersionPatch) {item : AgentVersionRecord}
    (dated : item.publishedAt.isSome) : (patch.apply item).publishedAt.isSome := by
  cases given : patch.publishedAt <;> simp [VersionPatch.apply, given, dated]

theorem Grows.replace {version : String} {patch : VersionPatch}
    (distinct : (versions.map (·.version)).Nodup) :
    Grows versions (MemoryStore.replaceVersion version patch versions) := by
  rw [replaceVersion_eq_map distinct]
  intro item inside
  refine ⟨_, List.mem_map_of_mem inside, ?_, fun dated => ?_⟩
  · split <;> rfl
  · split
    · exact patch.apply_dated dated
    · exact dated

/-- A patch keeps the invariant if it publishes no version beside another, and none without
a time. -/
theorem Ordered.replace (lawful : lib.Lawful) (ordered : Ordered lib versions) {version : String}
    {patch : VersionPatch}
    (alone : patch.status = .PUBLISHED →
      ∀ item ∈ versions, item.status = .PUBLISHED → item.version = version)
    (timed : patch.status = .PUBLISHED → patch.publishedAt.isSome) :
    Ordered lib (MemoryStore.replaceVersion version patch versions) := by
  rw [replaceVersion_eq_map (ordered.distinct lawful)]
  -- a published version is the one that the patch publishes, or it was published before
  have published {item : AgentVersionRecord} (inside : item ∈ versions)
      (now : (if item.version = version then patch.apply item else item).status = .PUBLISHED) :
      patch.status = .PUBLISHED ∧ item.version = version ∨
        patch.status ≠ .PUBLISHED ∧ item.status = .PUBLISHED := by
    by_cases publishes : patch.status = .PUBLISHED
    · refine .inl ⟨publishes, ?_⟩
      split at now
      · assumption
      · exact alone publishes item inside now
    · refine .inr ⟨publishes, ?_⟩
      split at now
      · exact absurd now publishes
      · exact now
  have sameText (item : AgentVersionRecord) :
      (if item.version = version then patch.apply item else item).version = item.version := by
    split <;> rfl
  refine ⟨fun item' inside' => ?_, ?_, fun a' first b' second aPublished bPublished => ?_,
    fun item' inside' now => ?_⟩
  · obtain ⟨item, inside, rfl⟩ := List.mem_map.mp inside'
    rw [sameText]
    exact ordered.valid item inside
  · refine List.pairwise_map.mpr (ordered.increasing.imp fun {a b} less => ?_)
    rw [sameText, sameText]
    exact less
  · obtain ⟨a, aInside, rfl⟩ := List.mem_map.mp first
    obtain ⟨b, bInside, rfl⟩ := List.mem_map.mp second
    rw [sameText, sameText]
    rcases published aInside aPublished with ⟨_, aIs⟩ | ⟨no, aWas⟩
    · rcases published bInside bPublished with ⟨_, bIs⟩ | ⟨no, _⟩
      · exact aIs.trans bIs.symm
      · exact absurd ‹_› no
    · rcases published bInside bPublished with ⟨yes, _⟩ | ⟨_, bWas⟩
      · exact absurd yes no
      · exact ordered.single a aInside b bInside aWas bWas
  · obtain ⟨item, inside, rfl⟩ := List.mem_map.mp inside'
    split at now
    · rename_i same
      rw [if_pos same]
      have given := timed now
      cases given' : patch.publishedAt with
      | none => rw [given'] at given; cases given
      | some at_ => simp [VersionPatch.apply, given']
    · rename_i other
      rw [if_neg other]
      exact ordered.dated item inside now

/-! ## What the calls do -/

section Executions

variable {α : Type} {s s' : MemoryStore} {x : Except String α}

/-- The store answers an operation, and the program goes on or ends by its error. -/
theorem exec_await {o : RegistryOp} {f : o.Result → Prog RegistryIface α}
    (ran : (registry lib).Exec (await o >>= f) s x s') : ∃ choice,
    (∃ e, s.perform lib choice o = (.error e, s') ∧ x = .error e) ∨
    ∃ r s₁, s.perform lib choice o = (.ok r, s₁) ∧ (registry lib).Exec (f r) s₁ x s' := by
  rcases System.exec_performBind.mp ran with ⟨e, choice, ended, failed⟩ |
    ⟨r, choice, s₁, answered, rest⟩
  · exact ⟨choice, .inl ⟨e, Option.some.inj failed, ended⟩⟩
  · exact ⟨choice, .inr ⟨r, s₁, Option.some.inj answered, rest⟩⟩

theorem exec_now {f : Int → Prog RegistryIface α}
    (ran : (registry lib).Exec (await .now >>= f) s x s') :
    ∃ now, (registry lib).Exec (f now) s x s' := by
  obtain ⟨choice, ⟨e, failed, _⟩ | ⟨r, s₁, answered, rest⟩⟩ := exec_await ran
  · cases (Prod.mk.inj failed).1
  · obtain ⟨_, rfl⟩ := Prod.mk.inj answered
    exact ⟨r, rest⟩

theorem exec_listVersions {agentId : String} {f : List AgentVersionRecord → Prog RegistryIface α}
    (ran : (registry lib).Exec (await (.listVersions agentId) >>= f) s x s') :
    (registry lib).Exec (f (s.listVersions lib agentId)) s x s' := by
  obtain ⟨choice, ⟨e, failed, _⟩ | ⟨r, s₁, answered, rest⟩⟩ := exec_await ran
  · cases (Prod.mk.inj failed).1
  · obtain ⟨same, rfl⟩ := Prod.mk.inj answered
    cases same
    exact rest

theorem exec_updateVersion {agentId version : String} {patch : VersionPatch}
    {f : AgentVersionRecord → Prog RegistryIface α}
    (ran : (registry lib).Exec (await (.updateVersion agentId version patch) >>= f) s x s') :
    ((s.versions agentId).find? (·.version = version) = none ∧ s' = s) ∨
    ∃ current, (s.versions agentId).find? (·.version = version) = some current ∧
      (registry lib).Exec (f (patch.apply current)) (s.setVersions agentId
        (MemoryStore.replaceVersion version patch (s.versions agentId))) x s' := by
  obtain ⟨choice, ended⟩ := exec_await ran
  simp only [MemoryStore.perform] at ended
  split at ended
  · rename_i missing
    rcases ended with ⟨e, failed, _⟩ | ⟨r, s₁, answered, rest⟩
    · exact .inl ⟨missing, (Prod.mk.inj failed).2.symm⟩
    · cases (Prod.mk.inj answered).1
  · rename_i current found
    rcases ended with ⟨e, failed, _⟩ | ⟨r, s₁, answered, rest⟩
    · cases (Prod.mk.inj failed).1
    · obtain ⟨same, rfl⟩ := Prod.mk.inj answered
      cases same
      exact .inr ⟨current, found, rest⟩

theorem exec_record {event : AuditEvent} {a : α}
    (ran : (registry lib).Exec (await (.record event) >>= fun _ => pure a) s x s') : s' = s := by
  obtain ⟨choice, ⟨e, failed, _⟩ | ⟨r, s₁, answered, rest⟩⟩ := exec_await ran
  · exact (Prod.mk.inj failed).2.symm
  · obtain ⟨_, rfl⟩ := Prod.mk.inj answered
    exact (System.exec_pure.mp rest).2

theorem exec_ofExcept {β : Type} {c : Except String β} {f : β → Prog RegistryIface α}
    (ran : (registry lib).Exec (Prog.ofExcept c >>= f) s x s') :
    s' = s ∨ ∃ b, c = .ok b ∧ (registry lib).Exec (f b) s x s' := by
  cases c with
  | error e => exact .inl (System.exec_throw.mp ran).2
  | ok b => exact .inr ⟨b, rfl, ran⟩

theorem exec_requireChronologicalConsistency {latest : Option AgentVersionRecord}
    {f : Unit → Prog RegistryIface α}
    (ran : (registry lib).Exec (requireChronologicalConsistency latest >>= f) s x s') :
    s' = s ∨ (registry lib).Exec (f ()) s x s' := by
  cases latest with
  | none => exact .inr ran
  | some latest =>
      rcases System.exec_bind.mp ran with ⟨e, _, first⟩ | ⟨_, s₁, first, rest⟩
      · obtain ⟨now, ends⟩ := exec_now first
        split at ends
        · exact .inl (System.exec_throw.mp ends).2
        · cases (System.exec_pure.mp ends).1
      · obtain ⟨now, ends⟩ := exec_now first
        split at ends
        · cases (System.exec_throw.mp ends).1
        · rw [(System.exec_pure.mp ends).2] at rest
          exact .inr rest

/-- The version that a call creates. -/
structure Creates (lib : Libraries) (s : MemoryStore) (input : CreateAgentVersionInput)
    (created : AgentVersionRecord) : Prop where
  version : created.version = input.version
  draft : created.status = .DRAFT
  newer : ∀ latest ∈ (s.listVersions lib input.agentId).head?,
    lib.gt input.version latest.version = true

theorem exec_createNextVersion {input : CreateAgentVersionInput}
    {x : Except String AgentVersionRecord}
    (ran : (registry lib).Exec (createNextVersion lib input) s x s') :
    s' = s ∨ ∃ created, Creates lib s input created ∧
      s' = s.setVersions input.agentId (s.versions input.agentId ++ [created]) := by
  have ran := exec_listVersions ran
  rcases exec_requireChronologicalConsistency ran with kept | ran
  · exact .inl kept
  rcases exec_ofExcept ran with kept | ⟨_, newer, ran⟩
  · exact .inl kept
  rcases exec_ofExcept ran with kept | ⟨_, _, ran⟩
  · exact .inl kept
  obtain ⟨choice, ⟨e, failed, _⟩ | ⟨r, s₁, answered, rest⟩⟩ := exec_await ran
  · cases (Prod.mk.inj failed).1
  · obtain ⟨_, rfl⟩ := Prod.mk.inj answered
    refine .inr ⟨_, ⟨rfl, rfl, fun latest isHead => ?_⟩, exec_record rest⟩
    rw [Option.mem_def.mp isHead] at newer
    simp only [requireNewerVersion] at newer
    split at newer
    · assumption
    · cases newer

/-- The store once the agent of a new version is there. -/
def MemoryStore.withAgent (store : MemoryStore) (input : CreateAgentVersionInput) (now : Int) :
    MemoryStore :=
  { store with
    agents := (ensureAgent store.agents {
      id := input.agentId
      name := input.name
      tags := input.tags
      tenantId := input.tenantId } now).2 }

theorem exec_createVersion {input : CreateAgentVersionInput} {x : Except String AgentVersionRecord}
    (ran : (registry lib).Exec (createVersion lib input) s x s') :
    s' = s ∨ lib.valid input.version = true ∧ ∃ now, s' = s.withAgent input now ∨
      ∃ created, Creates lib s input created ∧ s' = (s.withAgent input now).setVersions
        input.agentId (s.versions input.agentId ++ [created]) := by
  unfold createVersion at ran
  split at ran
  · exact .inl (System.exec_throw.mp ran).2
  rename_i valid
  refine .inr ⟨by simpa using valid, ?_⟩
  obtain ⟨choice, ⟨e, failed, _⟩ | ⟨r, s₁, answered, rest⟩⟩ := exec_await ran
  · cases (Prod.mk.inj failed).1
  · obtain ⟨_, rfl⟩ := Prod.mk.inj answered
    rcases exec_createNextVersion rest with kept | ⟨created, creates, rfl⟩
    · exact ⟨choice.now, .inl kept⟩
    · exact ⟨choice.now, .inr ⟨created, ⟨creates.version, creates.draft, creates.newer⟩, rfl⟩⟩

/-- The versions after one of them, if any, is deprecated. -/
def retire (versions : List AgentVersionRecord) :
    Option AgentVersionRecord → List AgentVersionRecord
  | none => versions
  | some current => MemoryStore.replaceVersion current.version { status := .DEPRECATED } versions

/-- The versions after `current` is deprecated and then a version published. -/
def release (current : Option AgentVersionRecord) (version : String) (now : Int)
    (versions : List AgentVersionRecord) : List AgentVersionRecord :=
  MemoryStore.replaceVersion version { publishedAt := some now, status := .PUBLISHED }
    (retire versions current)

theorem replaceVersion_versions {version : String} {patch : VersionPatch} :
    (MemoryStore.replaceVersion version patch versions).map (·.version) =
      versions.map (·.version) := by
  induction versions with
  | nil => rfl
  | cons item items ih =>
      rw [MemoryStore.replaceVersion]
      split
      · rfl
      · rw [List.map_cons, ih, List.map_cons]

theorem find_version_ne_none {version : String}
    (there : ∃ item ∈ versions, item.version = version) :
    versions.find? (·.version = version) ≠ none := by
  obtain ⟨item, inside, same⟩ := there
  intro missing
  exact List.find?_eq_none.mp missing item inside (decide_eq_true same)

theorem exec_publishNow {agentId version : String} {x : Except String AgentVersionRecord}
    (there : ∃ item ∈ s.versions agentId, item.version = version)
    (ran : (registry lib).Exec (publishNow agentId version) s x s') :
    ∃ now, s' = s.setVersions agentId (release none version now (s.versions agentId)) := by
  obtain ⟨now, ran⟩ := exec_now ran
  obtain ⟨choice, answered⟩ := System.exec_perform.mp ran
  have same := congrArg Prod.snd (Option.some.inj answered)
  refine ⟨now, same.symm.trans ?_⟩
  simp only [MemoryStore.perform]
  split
  · rename_i missing
    exact absurd missing (find_version_ne_none there)
  · rfl

theorem exec_deprecateCurrent {agentId : String} {current : Option AgentVersionRecord}
    {x : Except String Unit} (listed : ∀ item ∈ current, item ∈ s.versions agentId)
    (ran : (registry lib).Exec (deprecateCurrent agentId current) s x s') :
    s' = s.setVersions agentId (retire (s.versions agentId) current) ∧ x = .ok () := by
  cases current with
  | none =>
      obtain ⟨rfl, rfl⟩ := System.exec_pure.mp ran
      refine ⟨?_, rfl⟩
      simp [MemoryStore.setVersions, retire]
  | some current =>
      rcases exec_updateVersion ran with ⟨missing, _⟩ | ⟨found, _, rest⟩
      · exact absurd missing (find_version_ne_none ⟨current, listed current rfl, rfl⟩)
      · obtain ⟨rfl, rfl⟩ := System.exec_pure.mp rest
        exact ⟨rfl, rfl⟩

theorem exec_release {agentId version : String} {current : Option AgentVersionRecord}
    {event : AuditEvent} {x : Except String AgentVersionRecord}
    (there : ∃ item ∈ s.versions agentId, item.version = version)
    (listed : ∀ item ∈ current, item ∈ s.versions agentId)
    (ran : (registry lib).Exec (do
      deprecateCurrent agentId current
      let updated ← publishNow agentId version
      await (.record event)
      pure updated) s x s') :
    ∃ now, s' = s.setVersions agentId (release current version now (s.versions agentId)) := by
  have kept : ∃ item ∈ (s.setVersions agentId (retire (s.versions agentId) current)).versions
      agentId, item.version = version := by
    rw [MemoryStore.setVersions_same]
    cases current with
    | none => exact there
    | some current =>
        refine List.mem_map.mp ?_
        rw [retire, replaceVersion_versions]
        exact List.mem_map.mpr there
  have after (now : Int) : (s.setVersions agentId (retire (s.versions agentId) current)).setVersions
      agentId (release none version now ((s.setVersions agentId
        (retire (s.versions agentId) current)).versions agentId)) =
      s.setVersions agentId (release current version now (s.versions agentId)) := by
    rw [MemoryStore.setVersions_twice, MemoryStore.setVersions_same]
    rfl
  rcases System.exec_bind.mp ran with ⟨e, _, first⟩ | ⟨_, s₁, first, ran⟩
  · cases (exec_deprecateCurrent listed first).2
  obtain ⟨rfl, _⟩ := exec_deprecateCurrent listed first
  rcases System.exec_bind.mp ran with ⟨e, _, second⟩ | ⟨updated, s₂, second, rest⟩
  · obtain ⟨now, rfl⟩ := exec_publishNow kept second
    exact ⟨now, after now⟩
  · obtain ⟨now, rfl⟩ := exec_publishNow kept second
    exact ⟨now, (exec_record rest).trans (after now)⟩

theorem mem_listVersions {agentId : String} {item : AgentVersionRecord} :
    item ∈ s.listVersions lib agentId ↔ item ∈ s.versions agentId :=
  List.mem_insertionSort _

theorem exec_publishVersion {agentId version tenantId : String}
    {x : Except String AgentVersionRecord}
    (ran : (registry lib).Exec (publishVersion agentId version tenantId) s x s') :
    s' = s ∨ ∃ now, s' = s.setVersions agentId (release
      ((s.listVersions lib agentId).find? fun item =>
        item.status = .PUBLISHED ∧ item.version ≠ version) version now (s.versions agentId)) := by
  have ran := exec_listVersions ran
  split at ran
  · exact .inl (System.exec_throw.mp ran).2
  · rename_i target found
    refine .inr (exec_release ⟨target, mem_listVersions.mp (List.mem_of_find?_eq_some found),
      by simpa using List.find?_some found⟩ (fun item inside => ?_) ran)
    exact mem_listVersions.mp (List.mem_of_find?_eq_some inside)

theorem exec_rollbackVersion {input : RollbackInput} {x : Except String AgentVersionRecord}
    (ran : (registry lib).Exec (rollbackVersion input) s x s') :
    s' = s ∨ ∃ now, s' = s.setVersions input.agentId (release
      (((s.listVersions lib input.agentId).find? (·.status = .PUBLISHED)).filter
        (·.version ≠ input.targetVersion)) input.targetVersion now (s.versions input.agentId)) := by
  have ran := exec_listVersions ran
  split at ran
  · exact .inl (System.exec_throw.mp ran).2
  · rename_i target found
    have named : target.version = input.targetVersion := by simpa using List.find?_some found
    rw [named] at ran
    refine .inr (exec_release ⟨target, mem_listVersions.mp (List.mem_of_find?_eq_some found),
      named⟩ (fun item inside => ?_) ran)
    obtain ⟨listed, _⟩ := Option.filter_eq_some_iff.mp inside
    exact mem_listVersions.mp (List.mem_of_find?_eq_some listed)

theorem exec_deprecateVersion {agentId version tenantId : String}
    {x : Except String AgentVersionRecord}
    (ran : (registry lib).Exec (deprecateVersion agentId version tenantId) s x s') :
    s' = s ∨ s' = s.setVersions agentId
      (MemoryStore.replaceVersion version { status := .DEPRECATED } (s.versions agentId)) := by
  rcases exec_updateVersion ran with ⟨_, kept⟩ | ⟨current, _, rest⟩
  · exact .inl kept
  · exact .inr (exec_record rest)

theorem exec_indexAgents {input : ListAgentIndexInput} {agents : List AgentRecord}
    {x : Except String (List (AgentIndexItem × Bool))}
    (ran : (registry lib).Exec (indexAgents input agents) s x s') :
    s' = s ∧ x = .ok (agents.map fun agent =>
      indexAgent input agent (s.listVersions lib agent.id)) := by
  induction agents generalizing x s' with
  | nil =>
      obtain ⟨rfl, rfl⟩ := System.exec_pure.mp ran
      exact ⟨rfl, rfl⟩
  | cons agent agents ih =>
      have ran := exec_listVersions ran
      rcases System.exec_bind.mp ran with ⟨e, _, first⟩ | ⟨rest, s₁, first, last⟩
      · cases (ih first).2
      · obtain ⟨rfl, same⟩ := ih first
        cases same
        obtain ⟨rfl, rfl⟩ := System.exec_pure.mp last
        exact ⟨rfl, rfl⟩

/-- A listing reads the agents of the tenant, and their versions. -/
theorem exec_listByTenant {input : ListAgentIndexInput} {x : Except String CursorPage}
    (ran : (registry lib).Exec (listByTenant lib input) s x s') :
    s' = s ∧ x = .ok (pageOf lib input
      ((s.agents.filter (·.tenantId = input.tenantId)).map fun agent =>
        indexAgent input agent (s.listVersions lib agent.id))) := by
  obtain ⟨choice, ⟨e, failed, _⟩ | ⟨r, s₁, answered, rest⟩⟩ := exec_await ran
  · cases (Prod.mk.inj failed).1
  · obtain ⟨same, rfl⟩ := Prod.mk.inj answered
    cases same
    rcases System.exec_bind.mp rest with ⟨e, _, first⟩ | ⟨indexed, s₂, first, last⟩
    · cases (exec_indexAgents first).2
    · obtain ⟨rfl, same⟩ := exec_indexAgents first
      cases same
      obtain ⟨rfl, rfl⟩ := System.exec_pure.mp last
      exact ⟨rfl, rfl⟩

/-- A call whose result is answered. -/
theorem exec_answer {β : Type} {p : Prog RegistryIface α} {f : α → β} {x : Except String β}
    (ran : (registry lib).Exec (p >>= fun a => pure (f a)) s x s') :
    ∃ y, (registry lib).Exec p s y s' ∧ x = y.map f := by
  rcases System.exec_bind.mp ran with ⟨e, rfl, first⟩ | ⟨a, s₁, first, last⟩
  · exact ⟨.error e, first, rfl⟩
  · obtain ⟨rfl, rfl⟩ := System.exec_pure.mp last
    exact ⟨.ok a, first, rfl⟩

end Executions

/-! ## Histories -/

/-- The published versions are the one with this text and the one given. -/
def Covers (current : Option AgentVersionRecord) (version : String)
    (versions : List AgentVersionRecord) : Prop :=
  ∀ item ∈ versions, item.status = .PUBLISHED →
    item.version = version ∨ ∃ found ∈ current, found.version = item.version

/-- What a call does to the versions of an agent. -/
inductive Changes (lib : Libraries) (versions : List AgentVersionRecord) :
    List AgentVersionRecord → Prop
  | kept : Changes lib versions versions
  | created {created : AgentVersionRecord} (valid : lib.valid created.version = true)
      (newer : ∀ latest ∈ versions.getLast?, lib.gt created.version latest.version = true)
      (draft : created.status = .DRAFT) : Changes lib versions (versions ++ [created])
  | deprecated {version : String} : Changes lib versions
      (MemoryStore.replaceVersion version { status := .DEPRECATED } versions)
  | released {current : Option AgentVersionRecord} {version : String} {now : Int}
      (covers : Covers current version versions) :
      Changes lib versions (release current version now versions)

theorem Ordered.deprecated (lawful : lib.Lawful) (ordered : Ordered lib versions)
    {version : String} : Ordered lib
      (MemoryStore.replaceVersion version { status := .DEPRECATED } versions) :=
  ordered.replace lawful (fun published => by cases published) fun published => by cases published

theorem Ordered.retire (lawful : lib.Lawful) (ordered : Ordered lib versions)
    (current : Option AgentVersionRecord) : Ordered lib (retire versions current) := by
  cases current with
  | none => exact ordered
  | some current => exact ordered.deprecated lawful

/-- Once the version that is given is deprecated, only the one with this text is published. -/
theorem Covers.retire (lawful : lib.Lawful) (ordered : Ordered lib versions)
    {current : Option AgentVersionRecord} {version : String}
    (covers : Covers current version versions) :
    ∀ item ∈ retire versions current, item.status = .PUBLISHED → item.version = version := by
  cases current with
  | none =>
      intro item inside published
      rcases covers item inside published with same | ⟨found, absent, _⟩
      · exact same
      · cases absent
  | some current =>
      intro item' inside' published
      rw [Registry.retire, replaceVersion_eq_map (ordered.distinct lawful)] at inside'
      obtain ⟨item, inside, rfl⟩ := List.mem_map.mp inside'
      split at published
      · cases published
      · rename_i other
        rw [if_neg other]
        rcases covers item inside published with same | ⟨found, isCurrent, same⟩
        · exact same
        · cases isCurrent
          exact absurd same.symm other

theorem Changes.ordered (lawful : lib.Lawful) (ordered : Ordered lib versions)
    {versions' : List AgentVersionRecord} (changes : Changes lib versions versions') :
    Ordered lib versions' := by
  cases changes with
  | kept => exact ordered
  | created valid newer draft => exact ordered.append lawful valid newer draft
  | deprecated => exact ordered.deprecated lawful
  | released covers =>
      exact (ordered.retire lawful _).replace lawful
        (fun _ => covers.retire lawful ordered) fun _ => rfl

theorem Changes.grows (lawful : lib.Lawful) (ordered : Ordered lib versions)
    {versions' : List AgentVersionRecord} (changes : Changes lib versions versions') :
    Grows versions versions' := by
  cases changes with
  | kept => exact .refl
  | created _ _ _ =>
      exact fun item inside => ⟨item, List.mem_append_left _ inside, rfl, id⟩
  | deprecated => exact .replace (ordered.distinct lawful)
  | @released current version now covers =>
      refine Grows.trans ?_ (.replace ((ordered.retire lawful current).distinct lawful))
      cases current with
      | none => exact .refl
      | some current => exact .replace (ordered.distinct lawful)

/-- The versions of every agent keep the invariant. -/
def MemoryStore.Sound (lib : Libraries) (s : MemoryStore) : Prop :=
  ∀ agentId, Ordered lib (s.versions agentId)

variable {s s' : MemoryStore}

/-- A published version beside the one with this text is the only one there is. -/
theorem Ordered.covers (ordered : Ordered lib versions) {current : Option AgentVersionRecord}
    {version : String}
    (finds : ∀ item ∈ versions, item.status = .PUBLISHED → item.version ≠ version →
      ∃ found ∈ current, found ∈ versions ∧ found.status = .PUBLISHED) :
    Covers current version versions := by
  intro item inside published
  by_cases same : item.version = version
  · exact .inl same
  · obtain ⟨found, isCurrent, listed, alsoPublished⟩ := finds item inside published same
    exact .inr ⟨found, isCurrent, ordered.single found listed item inside alsoPublished published⟩

/-- A call that looks for a version that is there finds one. -/
theorem exists_find {agentId : String} {item : AgentVersionRecord}
    (inside : item ∈ s.versions agentId) {p : AgentVersionRecord → Bool} (holds : p item = true) :
    ∃ found, (s.listVersions lib agentId).find? p = some found :=
  Option.isSome_iff_exists.mp
    (List.find?_isSome.mpr ⟨item, mem_listVersions.mpr inside, holds⟩)

theorem covers_publish {agentId version : String} (ordered : Ordered lib (s.versions agentId)) :
    Covers ((s.listVersions lib agentId).find? fun item =>
      item.status = .PUBLISHED ∧ item.version ≠ version) version (s.versions agentId) := by
  refine ordered.covers fun item inside published other => ?_
  obtain ⟨found, isFound⟩ : ∃ found, (s.listVersions lib agentId).find? (fun item =>
      item.status = .PUBLISHED ∧ item.version ≠ version) = some found :=
    exists_find inside (decide_eq_true ⟨published, other⟩)
  refine ⟨found, isFound, mem_listVersions.mp (List.mem_of_find?_eq_some isFound), ?_⟩
  have passes := List.find?_some isFound
  exact (of_decide_eq_true passes).1

theorem covers_rollback {agentId version : String} (ordered : Ordered lib (s.versions agentId)) :
    Covers (((s.listVersions lib agentId).find? (·.status = .PUBLISHED)).filter
      (·.version ≠ version)) version (s.versions agentId) := by
  refine ordered.covers fun item inside published other => ?_
  obtain ⟨found, isFound⟩ : ∃ found, (s.listVersions lib agentId).find?
      (·.status = .PUBLISHED) = some found :=
    exists_find inside (decide_eq_true published)
  have listed := mem_listVersions.mp (List.mem_of_find?_eq_some isFound)
  have passes := List.find?_some isFound
  have alsoPublished : found.status = .PUBLISHED := of_decide_eq_true passes
  refine ⟨found, ?_, listed, alsoPublished⟩
  rw [isFound, Option.mem_def, Option.filter_some_pos]
  rw [ordered.single found listed item inside alsoPublished published]
  exact decide_eq_true other

/-- One agent's versions change, the others stay. -/
theorem changes_setVersions {agentId : String} {versions : List AgentVersionRecord}
    (changes : Changes lib (s.versions agentId) versions) (other : String) :
    Changes lib (s.versions other) ((s.setVersions agentId versions).versions other) := by
  by_cases same : other = agentId
  · subst same
    rw [MemoryStore.setVersions_same]
    exact changes
  · rw [MemoryStore.setVersions_other s versions same]
    exact .kept

theorem exec_changes (lawful : lib.Lawful) (sound : s.Sound lib) {call : Call}
    {x : Except String Response} (ran : (registry lib).Exec (serve lib call) s x s')
    (agentId : String) : Changes lib (s.versions agentId) (s'.versions agentId) := by
  cases call with
  | createVersion input =>
      obtain ⟨y, ran, _⟩ := exec_answer ran
      rcases exec_createVersion ran with rfl | ⟨valid, now, rfl | ⟨created, creates, rfl⟩⟩
      · exact .kept
      · exact .kept
      · refine changes_setVersions (.created ?_ (fun latest last => ?_) creates.draft) agentId
        · rw [creates.version]
          exact valid
        · rw [creates.version]
          refine creates.newer latest ?_
          rw [(sound input.agentId).listVersions lawful, List.head?_reverse]
          exact last
  | publishVersion agentId' version tenantId =>
      obtain ⟨y, ran, _⟩ := exec_answer ran
      rcases exec_publishVersion ran with rfl | ⟨now, rfl⟩
      · exact .kept
      · exact changes_setVersions (.released (covers_publish (sound agentId'))) agentId
  | deprecateVersion agentId' version tenantId =>
      obtain ⟨y, ran, _⟩ := exec_answer ran
      rcases exec_deprecateVersion ran with rfl | rfl
      · exact .kept
      · exact changes_setVersions .deprecated agentId
  | rollbackVersion input =>
      obtain ⟨y, ran, _⟩ := exec_answer ran
      rcases exec_rollbackVersion ran with rfl | ⟨now, rfl⟩
      · exact .kept
      · exact changes_setVersions (.released (covers_rollback (sound input.agentId))) agentId
  | listByTenant input =>
      obtain ⟨y, ran, _⟩ := exec_answer ran
      rw [(exec_listByTenant ran).1]
      exact .kept

variable {calls later : List (Effect.Call RegistryIface Call Response)} {guard : MemoryStore → Call → Prop}

theorem serves_sound (lawful : lib.Lawful) (sound : s.Sound lib)
    (served : (registry lib).Serves guard s calls s') :
    s'.Sound lib ∧ ∀ agentId, Grows (s.versions agentId) (s'.versions agentId) := by
  refine served.invariant (P := fun s' => s'.Sound lib ∧
    ∀ agentId, Grows (s.versions agentId) (s'.versions agentId)) ?_
    ⟨sound, fun _ => .refl⟩
  intro s₁ call result s₂ holds _ ran
  exact ⟨fun agentId => (exec_changes lawful holds.1 ran agentId).ordered lawful (holds.1 agentId),
    fun agentId => (holds.2 agentId).trans
      ((exec_changes lawful holds.1 ran agentId).grows lawful (holds.1 agentId))⟩

theorem sound_empty : MemoryStore.Sound lib {} := fun _ => .empty

/-- At most one element of a list with distinct texts has a property that fixes the text. -/
theorem Ordered.published_le_one (lawful : lib.Lawful) (ordered : Ordered lib versions) :
    (versions.filter (·.status = .PUBLISHED)).length ≤ 1 := by
  have distinct : ((versions.filter (·.status = .PUBLISHED)).map (·.version)).Nodup :=
    (ordered.distinct lawful).sublist (List.filter_sublist.map _)
  have same : ∀ a ∈ versions.filter (·.status = .PUBLISHED),
      ∀ b ∈ versions.filter (·.status = .PUBLISHED), a.version = b.version := by
    intro a first b second
    rw [List.mem_filter, decide_eq_true_eq] at first second
    exact ordered.single a first.1 b second.1 first.2 second.2
  generalize versions.filter (·.status = .PUBLISHED) = published at distinct same ⊢
  rcases published with _ | ⟨a, _ | ⟨b, rest⟩⟩
  · exact Nat.zero_le _
  · exact le_refl _
  · refine absurd ?_ (List.nodup_cons.mp distinct).1
    exact List.mem_map.mpr ⟨b, List.mem_cons_self,
      same b (List.mem_cons_of_mem _ List.mem_cons_self) a List.mem_cons_self⟩

/-- **The versions of an agent.** After every history of calls the versions of an agent are
valid and distinct and increase in the order of their creation, at most one of them is published,
and each that is published, or was at an earlier time of the history, has a time of publication. -/
theorem versions_ordered (lawful : lib.Lawful) (agentId : String) {s s' : MemoryStore}
    (before : (registry lib).Serves (fun _ _ => True) {} calls s)
    (after : (registry lib).Serves (fun _ _ => True) s later s') :
    (∀ item ∈ s'.versions agentId, lib.valid item.version = true) ∧
    ((s'.versions agentId).map (·.version)).Nodup ∧
    ((s'.versions agentId).Pairwise fun a b => lib.compare a.version b.version = .lt) ∧
    ((s'.versions agentId).filter (·.status = .PUBLISHED)).length ≤ 1 ∧
    ∀ item ∈ s.versions agentId, item.status = .PUBLISHED →
      ∃ item' ∈ s'.versions agentId, item'.version = item.version ∧ item'.publishedAt.isSome := by
  have first := (serves_sound lawful sound_empty before).1
  obtain ⟨last, grows⟩ := serves_sound lawful first after
  have ordered := last agentId
  refine ⟨ordered.valid, ordered.distinct lawful, ordered.increasing,
    ordered.published_le_one lawful, fun item inside published => ?_⟩
  obtain ⟨item', inside', same, stays⟩ := grows agentId item inside
  exact ⟨item', inside', same, stays ((first agentId).dated item inside published)⟩

/-! ### Versions of three numbers -/

/-- A decimal number without leading zeros. -/
def versionNumber (digits : List Char) : Option Nat :=
  if digits ≠ [] ∧ digits.all Char.isDigit ∧ (digits.head? = some '0' → digits.length = 1) then
    some (digits.foldl (fun n c => 10 * n + (c.toNat - 48)) 0)
  else none

/-- The numbers of `major.minor.patch`. -/
def versionNumbers (version : String) : Option (Nat × Nat × Nat) :=
  match (version.toList.splitOn '.').map versionNumber with
  | [some major, some minor, some patch] => some (major, minor, patch)
  | _ => none

/-- The place of a version in the order of versions. -/
def versionRank (version : String) : Nat ×ₗ Nat ×ₗ Nat :=
  let (major, minor, patch) := (versionNumbers version).getD (0, 0, 0)
  toLex (major, toLex (minor, patch))

/-- `semver` on versions without prerelease and build, and a digest that is the text. -/
def releaseLibraries : Libraries where
  valid version := (versionNumbers version).isSome
  compare left right := Ord.compare (versionRank left) (versionRank right)
  diff left right :=
    match versionNumbers left, versionNumbers right with
    | some (major, minor, patch), some (major', minor', patch') =>
        if major ≠ major' then some "major"
        else if minor ≠ minor' then some "minor"
        else if patch ≠ patch' then some "patch"
        else none
    | _, _ => none
  sha256 text := text
  localeCompare left right := if left < right then -1 else if left = right then 0 else 1
  toLowerCase := String.toLower
  decodeBase64url _ := ""

theorem releaseLibraries_lawful : releaseLibraries.Lawful := .of_rank versionRank fun _ _ => rfl

/-- A new version of an agent, with a changelog. -/
def newVersion (version : String) : CreateAgentVersionInput where
  agentId := "agent"
  tenantId := "tenant"
  name := "Agent"
  version
  manifest := .object []
  changelog := some "new"

/-- Choices for the operations of one call, all at one time. -/
def atTime (now : Int) : List Choice := List.replicate 8 { now }

/-- Two versions are created, and the second is published. -/
def publishedSecond : Option (List (Effect.Call RegistryIface Call Response) × MemoryStore) :=
  (registry releaseLibraries).serve (fun _ _ => true) {}
    [(.createVersion (newVersion "1.0.0"), atTime 1),
     (.createVersion (newVersion "1.10.0"), atTime 2),
     (.publishVersion "agent" "1.10.0" "tenant", atTime 3)]

/-- The store after the second version is published. -/
def secondPublished : MemoryStore := (publishedSecond.get (by decide)).2

/-- The first version is published again. -/
def rolledBack : Option (List (Effect.Call RegistryIface Call Response) × MemoryStore) :=
  (registry releaseLibraries).serve (fun _ _ => true) secondPublished
    [(.rollbackVersion { agentId := "agent", tenantId := "tenant", targetVersion := "1.0.0" },
      atTime 4)]

theorem rolledBack_ordered :
    let versions := (rolledBack.get (by decide)).2.versions "agent"
    versions.map (·.status) = [.PUBLISHED, .DEPRECATED] ∧
      (versions.filter (·.status = .PUBLISHED)).length ≤ 1 ∧
      ∃ item ∈ versions, item.version = "1.10.0" ∧ item.publishedAt.isSome := by
  have before : (registry releaseLibraries).Serves (fun _ _ => True) {} _ secondPublished :=
    .of_serve_get (fun _ _ _ => trivial) (show publishedSecond.isSome by decide)
  have after : (registry releaseLibraries).Serves (fun _ _ => True) secondPublished _ _ :=
    .of_serve_get (fun _ _ _ => trivial) (show rolledBack.isSome by decide)
  obtain ⟨_, _, _, single, dated⟩ := versions_ordered releaseLibraries_lawful "agent" before after
  refine ⟨by decide, single, ?_⟩
  have there : ∃ item ∈ secondPublished.versions "agent",
      item.version = "1.10.0" ∧ item.status = .PUBLISHED := by
    refine ⟨(secondPublished.versions "agent").get ⟨1, by decide⟩, List.get_mem _ _, ?_, ?_⟩
    · decide
    · decide
  obtain ⟨item, inside, named, published⟩ := there
  obtain ⟨item', inside', same, published'⟩ := dated item inside published
  exact ⟨item', inside', same.trans named, published'⟩

end Registry
