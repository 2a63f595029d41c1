import BirthHub.Data.Base64
import BirthHub.Data.JsonText
import BirthHub.Data.Pages
import BirthHub.Registry.Tenants

/-!
# Pages of the index

The agents of a tenant that match the filters of a listing stand in one order in every state of the
registry, and the pages from the first one on return them all. A cursor is the text of a position:
one that is no number denotes the start. A text of a negative number is taken as it is by `slice`,
which counts it from the end.
-/

namespace Registry

open Data Data.Pages Effect

/-! ## The index -/

section Index

variable (lib : Libraries)

def itemOf (s : MemoryStore) (agent : AgentRecord) : AgentIndexItem where
  agent
  latestVersion := (s.listVersions lib agent.id).head?
  publishedVersion := (s.listVersions lib agent.id).find? (·.status = .PUBLISHED)

/-- The agent is of the tenant and matches all filters. -/
def isMatch (s : MemoryStore) (input : ListAgentIndexInput) (agent : AgentRecord) : Bool :=
  agent.tenantId = input.tenantId &&
  ((s.listVersions lib agent.id).any fun item =>
    (input.version.filter (· ≠ "")).all (item.version = ·) &&
      item.status = input.status.getD .PUBLISHED) &&
  (itemOf lib s agent).isFound lib input

/-- The agents that match, in the order of the registry. -/
def indexOf (s : MemoryStore) (input : ListAgentIndexInput) : List AgentIndexItem :=
  (s.agents.filter (isMatch lib s input)).map (itemOf lib s)

/-- The position that a cursor denotes: the start, if it is no number, or a negative one. -/
def position (cursor : Option String) : Nat := (decodeCursor lib cursor).toNat

/-- At most 100 items of the index that follow each other from a position on. -/
def IsSegment (index : List AgentIndexItem) (start : Nat) (items : List AgentIndexItem) : Prop :=
  ∃ size ≤ 100, items = (index.drop start).take size

def limitOf (input : ListAgentIndexInput) : Int := max 1 (min 100 (input.limit.getD 20))

end Index

section Pages

variable {lib : Libraries} {s : MemoryStore} {input : ListAgentIndexInput}

theorem limitOf_bounds (input : ListAgentIndexInput) : 1 ≤ limitOf input ∧ limitOf input ≤ 100 := by
  unfold limitOf
  omega

theorem isEmpty_filter {α : Type} (p : α → Bool) (items : List α) :
    (items.filter p).isEmpty = !items.any p := by
  induction items with
  | nil => rfl
  | cons item items ih => cases hit : p item <;> simp [hit, ih]

theorem indexAgent_found (agent : AgentRecord) (versions : List AgentVersionRecord) :
    (indexAgent input agent versions).2 = versions.any fun item =>
      (input.version.filter (· ≠ "")).all (item.version = ·) &&
        item.status = input.status.getD .PUBLISHED := by
  unfold indexAgent
  cases input.version.filter (· ≠ "") with
  | none => simp [isEmpty_filter]
  | some version =>
      simp only [List.filter_filter, isEmpty_filter, Bool.not_not, Option.all_some]
      exact congrArg versions.any (funext fun item => Bool.and_comm _ _)

/-- What a listing filters is the index. -/
theorem indexed_eq (input : ListAgentIndexInput) : ((((s.agents.filter (·.tenantId = input.tenantId)).map fun agent =>
    indexAgent input agent (s.listVersions lib agent.id)).filter (·.2)).map (·.1)).filter
      (·.isFound lib input) = indexOf lib s input := by
  have items : (fun x : AgentIndexItem × Bool => x.1) ∘ (fun agent =>
      indexAgent input agent (s.listVersions lib agent.id)) = itemOf lib s := rfl
  rw [List.filter_map, List.filter_map, List.filter_map, List.map_map, List.filter_filter,
    List.filter_filter, items, indexOf]
  refine congrArg (List.map _) (List.filter_congr fun agent _ => ?_)
  simp only [Function.comp, indexAgent_found, isMatch]
  rw [Bool.and_comm, Bool.and_comm (AgentIndexItem.isFound ..), ← Bool.and_assoc]
  rfl

/-- The page of the index that a cursor leads to. -/
def pageAt (lib : Libraries) (s : MemoryStore) (input : ListAgentIndexInput)
    (cursor : Option String) : CursorPage where
  items := slice (indexOf lib s input) (decodeCursor lib cursor)
    (decodeCursor lib cursor + limitOf input)
  nextCursor :=
    if decodeCursor lib cursor + limitOf input < (indexOf lib s input).length then
      some (encodeCursor (decodeCursor lib cursor + limitOf input))
    else none

/-- A listing answers with that page. -/
theorem exec_listing {cursor : Option String} {x : Except String CursorPage} :
    (registry lib).Exec (listByTenant lib { input with cursor }) s x s ↔
      x = .ok (pageAt lib s input cursor) := by
  rw [exec_listByTenant_iff]
  have index : ((((s.agents.filter (·.tenantId = input.tenantId)).map fun agent =>
      indexAgent { input with cursor } agent (s.listVersions lib agent.id)).filter (·.2)).map
        (·.1)).filter (·.isFound lib { input with cursor }) = indexOf lib s input :=
    indexed_eq { input with cursor }
  simp only [pageOf, index]
  rfl

/-! ## Positions -/

/-- What the library for base64url is relied on for. -/
def ReadsNumbers (lib : Libraries) : Prop :=
  ∀ n : Nat, lib.decodeBase64url (base64url (toString n)) = toString n

theorem lt_pow_sub_pow {n a b : Nat} (small : n < 2 ^ 32) (first : 32 ≤ b) (second : b < a) :
    n < 2 ^ a - 2 ^ b := by
  have low : 2 ^ 32 ≤ 2 ^ b := Nat.pow_le_pow_right Nat.two_pos first
  have high : 2 ^ (b + 1) ≤ 2 ^ a := Nat.pow_le_pow_right Nat.two_pos second
  rw [Nat.pow_succ] at high
  omega

theorem parseInt_toString {n : Nat} (small : n < 2 ^ 32) : parseInt (toString n) = some (n : Int) := by
  obtain ⟨digit, some, number⟩ := Number.toString_digits (n := n)
  have bound := lt_pow_sub_pow (a := 1024) (b := 970) small (by decide) (by decide)
  unfold parseInt
  generalize (toString n).toList = chars at digit some number
  cases chars with
  | nil => exact absurd rfl some
  | cons c rest =>
      have own := digit c List.mem_cons_self
      have range : 48 ≤ c.toNat ∧ c.toNat ≤ 57 := by
        simpa [Char.isDigit, UInt32.le_iff_toNat_le] using own
      have dark : isWhitespace c = false := by
        unfold isWhitespace
        simp
        omega
      have kept : (c :: rest).dropWhile isWhitespace = c :: rest :=
        List.dropWhile_cons_of_neg (by simp [dark])
      have whole : (c :: rest).takeWhile Char.isDigit = c :: rest :=
        List.takeWhile_eq_self_iff.mpr digit
      have value : (c :: rest).foldl (fun n c => 10 * n + (c.toNat - 48)) 0 = n := number
      simp only [kept]
      split
      · rename_i same
        cases (List.cons.inj same).1
        cases own
      · rename_i same
        cases (List.cons.inj same).1
        cases own
      · simp only [whole, value]
        rw [if_neg]
        · rfl
        · rintro (empty | large)
          · cases empty
          · omega

theorem parseInt_negative {n : Nat} (small : n < 2 ^ 32) :
    parseInt ("-" ++ toString n) = some (-(n : Int)) := by
  obtain ⟨digit, some, number⟩ := Number.toString_digits (n := n)
  have bound := lt_pow_sub_pow (a := 1024) (b := 970) small (by decide) (by decide)
  have chars : ("-" ++ toString n).toList = '-' :: (toString n).toList := by
    rw [String.toList_append]
    rfl
  unfold parseInt
  rw [chars]
  generalize (toString n).toList = chars at digit some number
  have kept : ('-' :: chars).dropWhile isWhitespace = '-' :: chars :=
    List.dropWhile_cons_of_neg (by decide)
  have whole : chars.takeWhile Char.isDigit = chars := List.takeWhile_eq_self_iff.mpr digit
  have value : chars.foldl (fun n c => 10 * n + (c.toNat - 48)) 0 = n := number
  simp only [kept, whole, value]
  rw [if_neg]
  · rfl
  · rintro (empty | large)
    · exact some (List.isEmpty_iff.mp empty)
    · omega

theorem base64url_ne_empty {n : Nat} : base64url (toString n) ≠ "" := by
  obtain ⟨digit, some, _⟩ := Number.toString_digits (n := n)
  have ascii : ∀ c ∈ (toString n).toList, c.toNat < 128 := fun c inside => by
    have range : 48 ≤ c.toNat ∧ c.toNat ≤ 57 := by
      simpa [Char.isDigit, UInt32.le_iff_toNat_le] using digit c inside
    omega
  intro empty
  have text := fromBase64url_base64url ascii
  rw [empty] at text
  exact some (congrArg String.toList text.symm)

/-- A cursor that was made is read as the position it was made of. -/
theorem decodeCursor_encodeCursor (reads : ReadsNumbers lib) {n : Nat} (small : n < 2 ^ 32) :
    decodeCursor lib (some (encodeCursor n)) = n := by
  have text : encodeCursor (n : Int) = base64url (toString n) := rfl
  rw [decodeCursor, text, if_neg base64url_ne_empty, reads, parseInt_toString small]
  rfl

theorem slice_nat {α : Type} (items : List α) (start size : Nat) :
    slice items start (start + size) = (items.drop start).take size := by
  have stop : ((start : Int) + size) = ((start + size : Nat) : Int) := by simp
  rw [slice, stop, sliceBound, sliceBound, if_neg (by omega), if_neg (by omega), Int.toNat_natCast,
    Int.toNat_natCast, List.drop_take, Nat.add_sub_cancel_left]

/-! ## All pages -/

/-- The page of a position, and the cursor of the page after it. -/
theorem pageAt_of_position {cursor : Option String} {start : Nat}
    (at' : decodeCursor lib cursor = start) :
    pageAt lib s input cursor = {
      items := ((indexOf lib s input).drop start).take (limitOf input).toNat
      nextCursor := if start + (limitOf input).toNat < (indexOf lib s input).length then
        some (encodeCursor ((start + (limitOf input).toNat : Nat) : Int)) else none } := by
  have limit : limitOf input = (limitOf input).toNat := by
    have bounds := limitOf_bounds input
    omega
  unfold pageAt
  rw [at', limit, slice_nat, ← limit]
  have sum : (start : Int) + limitOf input = ((start + (limitOf input).toNat : Nat) : Int) := by
    omega
  rw [sum]
  by_cases more : start + (limitOf input).toNat < (indexOf lib s input).length
  · rw [if_pos more, if_pos (by exact_mod_cast more)]
  · rw [if_neg more, if_neg (by exact_mod_cast more)]

def CursorPage.page (page : CursorPage) : Page AgentIndexItem := ⟨page.items, page.nextCursor⟩

theorem follow_pageAt (reads : ReadsNumbers lib) {request : Nat → Option String → Except String CursorPage}
    (answers : ∀ k cursor, request k cursor = .ok (pageAt lib s input cursor))
    (short : (indexOf lib s input).length < 2 ^ 32) {fuel k start : Nat} {cursor : Option String}
    (at' : decodeCursor lib cursor = start)
    (enough : (indexOf lib s input).length - start < fuel) :
    follow (fun k cursor => (request k cursor).map CursorPage.page) fuel k cursor =
      .ok (some ((indexOf lib s input).drop start)) := by
  induction fuel generalizing k start cursor with
  | zero => cases enough
  | succ fuel ih =>
      have bounds := limitOf_bounds input
      have answer : (request k cursor).map CursorPage.page = .ok ⟨
          ((indexOf lib s input).drop start).take (limitOf input).toNat,
          if start + (limitOf input).toNat < (indexOf lib s input).length then
            some (encodeCursor ((start + (limitOf input).toNat : Nat) : Int)) else none⟩ := by
        rw [answers, pageAt_of_position at']
        rfl
      rw [follow, answer]
      by_cases more : start + (limitOf input).toNat < (indexOf lib s input).length
      · have next := @ih (k + 1) _ _ (decodeCursor_encodeCursor reads (more.trans short)) (by omega)
        simp only [if_pos more, next]
        rw [Except.map, Option.map_some, ← List.drop_drop, List.take_append_drop]
      · have whole : ((indexOf lib s input).drop start).take (limitOf input).toNat =
            (indexOf lib s input).drop start := by
          apply List.take_of_length_le
          rw [List.length_drop]
          omega
        simp only [if_neg more, whole]

/-! ## Segments -/

/-- When the page of a cursor is a segment from its position on: the cursor is that of a position,
or its page is one of the first items or of none. -/
def Denotes (lib : Libraries) (s : MemoryStore) (input : ListAgentIndexInput)
    (cursor : Option String) : Prop :=
  let offset := decodeCursor lib cursor
  let length : Int := (indexOf lib s input).length
  0 ≤ offset ∨ length ≤ -offset ∨ -offset ≤ limitOf input ∧ limitOf input ≤ length

/-- With different agents the items after others are no segment from the start on. -/
theorem take_ne_of_distinct {α : Type} {items : List α} {start size size' : Nat}
    (distinct : items.Nodup) (later : 0 < start) (inside : start < items.length) (some : 0 < size) :
    (items.drop start).take size ≠ items.take size' := by
  intro same
  have first : ((items.drop start).take size)[0]? = items[start]? := by
    rw [List.getElem?_take_of_lt some, List.getElem?_drop, Nat.add_zero]
  rw [same, List.getElem?_eq_getElem inside] at first
  have both := (List.getElem?_eq_some_iff.mp first).2
  rw [List.getElem_take] at both
  have place := (List.Nodup.getElem_inj_iff distinct).mp both
  omega

theorem isSegment_iff (distinct : (indexOf lib s input).Nodup) (cursor : Option String) :
    IsSegment (indexOf lib s input) (position lib cursor) (pageAt lib s input cursor).items ↔
      Denotes lib s input cursor := by
  have bounds := limitOf_bounds input
  rcases Int.lt_or_le (decodeCursor lib cursor) 0 with negative | at'
  · -- `start` and `stop` are where `slice` finds a negative offset and the end of the page
    let index := indexOf lib s input
    let start := sliceBound index.length (decodeCursor lib cursor)
    let stop := sliceBound index.length (decodeCursor lib cursor + limitOf input)
    have startIs : (start : Int) = max 0 (index.length + decodeCursor lib cursor) := by
      simp only [start, sliceBound, if_pos negative]
      omega
    have stopIs : (stop : Int) = if decodeCursor lib cursor + limitOf input < 0 then
        max 0 (index.length + (decodeCursor lib cursor + limitOf input))
        else decodeCursor lib cursor + limitOf input := by
      simp only [stop, sliceBound]
      split <;> omega
    have zero : position lib cursor = 0 := by
      unfold position
      omega
    have items : (pageAt lib s input cursor).items = (index.drop start).take (stop - start) := by
      rw [← List.drop_take]
      rfl
    have length : (index.length : Int) = ((indexOf lib s input).length : Int) := rfl
    rw [zero, items, Denotes]
    by_cases whole : index.length + decodeCursor lib cursor ≤ 0
    · have first : start = 0 := by omega
      refine ⟨fun _ => .inr (.inl (by omega)), fun _ => ⟨stop, ?_, ?_⟩⟩
      · split at stopIs <;> omega
      · rw [first, Nat.sub_zero]
    · have inside : start < index.length := by omega
      constructor
      · rintro ⟨size, _, same⟩
        by_contra other
        have later : 0 < start := by omega
        refine take_ne_of_distinct distinct later inside ?_ same
        split at stopIs <;> omega
      · intro denotes
        have nothing : stop - start = 0 := by
          split at stopIs <;> omega
        exact ⟨0, by omega, by rw [nothing, List.take_zero, List.take_zero]⟩
  · refine ⟨fun _ => .inl at', fun _ => ⟨(limitOf input).toNat, by omega, ?_⟩⟩
    rw [pageAt_of_position (Int.toNat_of_nonneg at').symm]
    rfl

end Pages

/-! ## Every state of the registry -/

section States

variable {lib : Libraries} {s s' : MemoryStore} {guard : MemoryStore → Call → Prop}
  {calls : List (Effect.Call RegistryIface Call Response)}

theorem ensureAgent_distinct {agents : List AgentRecord} {input : AgentInput} {now : Int}
    (distinct : (agents.map AgentRecord.id).Nodup) :
    ((ensureAgent agents input now).2.map AgentRecord.id).Nodup := by
  unfold ensureAgent
  cases found : agents.find? (·.id = input.id) with
  | some current =>
      have own : current.id = input.id := by simpa using List.find?_some found
      rw [List.map_map]
      have same : agents.map (AgentRecord.id ∘ fun agent => if agent.id = input.id then
          { current with name := input.name, tags := input.tags, updatedAt := now } else agent) =
            agents.map AgentRecord.id := by
        refine List.map_congr_left fun agent _ => ?_
        simp only [Function.comp]
        split
        · rename_i hit
          exact own.trans hit.symm
        · rfl
      rw [same]
      exact distinct
  | none =>
      rw [List.map_append]
      refine List.nodup_append.mpr ⟨distinct, List.nodup_singleton _, fun id inside id' last => ?_⟩
      rw [List.mem_singleton.mp last]
      rintro rfl
      obtain ⟨agent, there, isInput⟩ := List.mem_map.mp inside
      exact List.find?_eq_none.mp found agent there (decide_eq_true isInput)

theorem agents_distinct (served : (registry lib).Serves guard {} calls s) :
    (s.agents.map AgentRecord.id).Nodup := by
  refine served.invariant (P := fun s => (s.agents.map AgentRecord.id).Nodup)
    (fun distinct _ ran => ?_) List.nodup_nil
  refine ran.keeps (P := fun s => (s.agents.map AgentRecord.id).Nodup) ?_ distinct
  intro o choice s answer s' distinct answered
  have after : s' = (s.perform lib choice o).2 := (congrArg Prod.snd (Option.some.inj answered)).symm
  rw [after]
  cases o with
  | ensureAgent input => exact ensureAgent_distinct distinct
  | updateVersion agentId version patch =>
      simp only [MemoryStore.perform]
      split <;> exact distinct
  | _ => exact distinct

theorem indexOf_nodup (distinct : (s.agents.map AgentRecord.id).Nodup) (input : ListAgentIndexInput) :
    (indexOf lib s input).Nodup := by
  have agents : ((s.agents.filter (isMatch lib s input)).map AgentRecord.id).Nodup :=
    distinct.sublist (List.filter_sublist.map AgentRecord.id)
  have ids : ((indexOf lib s input).map fun item => item.agent.id) =
      (s.agents.filter (isMatch lib s input)).map AgentRecord.id := by
    rw [indexOf, List.map_map]
    rfl
  exact List.Nodup.of_map (fun item => item.agent.id) (ids ▸ agents)

/-- **Pages of the index.** In every state of the registry the pages from the first one on return
each agent of the tenant that matches once, in the order of the registry; and the page of a cursor
is a segment of that list from the position of the cursor on, just when the cursor is not the text
of a negative number that leads to items after the first. -/
theorem listByTenant_pages (reads : ReadsNumbers lib)
    (served : (registry lib).Serves guard {} calls s) (input : ListAgentIndexInput)
    (short : s.agents.length < 2 ^ 32) :
    (∀ request : Nat → Option String → Except String CursorPage,
      (∀ k cursor, (registry lib).Exec (listByTenant lib { input with cursor }) s (request k cursor) s) →
      ∃ fuel, follow (fun k cursor => (request k cursor).map CursorPage.page) fuel 0 none =
        .ok (some (indexOf lib s input))) ∧
    ∀ cursor x, (registry lib).Exec (listByTenant lib { input with cursor }) s x s →
      ∃ page, x = .ok page ∧ (IsSegment (indexOf lib s input) (position lib cursor) page.items ↔
        Denotes lib s input cursor) := by
  refine ⟨fun request asks => ?_, fun cursor x ran => ?_⟩
  · have listed : (indexOf lib s input).length < 2 ^ 32 := by
      rw [indexOf, List.length_map]
      exact (List.length_filter_le _ _).trans_lt short
    have start : decodeCursor lib none = (0 : Nat) := rfl
    refine ⟨(indexOf lib s input).length + 1, ?_⟩
    exact follow_pageAt reads (fun k cursor => exec_listing.mp (asks k cursor)) listed start
      (by omega)
  · exact ⟨_, exec_listing.mp ran, isSegment_iff (indexOf_nodup (agents_distinct served) input) cursor⟩

end States

/-! ## Two agents -/

/-- Libraries that read base64url. -/
def cursorLibraries : Libraries := { releaseLibraries with decodeBase64url := fromBase64url }

theorem cursorLibraries_reads : ReadsNumbers cursorLibraries := by
  intro n
  obtain ⟨digit, _, _⟩ := Number.toString_digits (n := n)
  refine fromBase64url_base64url fun c inside => ?_
  have range : 48 ≤ c.toNat ∧ c.toNat ≤ 57 := by
    simpa [Char.isDigit, UInt32.le_iff_toNat_le] using digit c inside
  omega

/-- Two agents of one tenant with a published version each. -/
def twoAgents : Option (List (Effect.Call RegistryIface Call Response) × MemoryStore) :=
  (registry cursorLibraries).serve (fun _ _ => true) {}
    [(.createVersion (newVersion "1.0.0"), atTime 1),
     (.createVersion { newVersion "1.0.0" with agentId := "second" }, atTime 2),
     (.publishVersion "agent" "1.0.0" "tenant", atTime 3),
     (.publishVersion "second" "1.0.0" "tenant", atTime 4)]

theorem twoAgents_served : (registry cursorLibraries).Serves (fun _ _ => True) {}
    (twoAgents.get (by decide)).1 (twoAgents.get (by decide)).2 :=
  .of_serve_get (fun _ _ _ => trivial) (show twoAgents.isSome by decide)

def tenantIndex : ListAgentIndexInput := { tenantId := "tenant" }

/-- The pages of one agent each. -/
theorem twoAgents_pages : ∃ fuel, follow (fun _ cursor => Except.map CursorPage.page (.ok
      (pageAt cursorLibraries (twoAgents.get (by decide)).2 { tenantId := "tenant", limit := some 1 }
        cursor) : Except String CursorPage)) fuel 0 none =
    .ok (some (indexOf cursorLibraries (twoAgents.get (by decide)).2
      { tenantId := "tenant", limit := some 1 })) :=
  (listByTenant_pages cursorLibraries_reads twoAgents_served _ (by decide)).1 _
    fun _ _ => exec_listing.mpr rfl

/-- The text of -1 as a cursor leads to the second of two agents. -/
theorem negativeCursor_misled : ∃ cursor page,
    (registry cursorLibraries).Exec (listByTenant cursorLibraries { tenantIndex with cursor })
      (twoAgents.get (by decide)).2 (.ok page) (twoAgents.get (by decide)).2 ∧
    ¬IsSegment (indexOf cursorLibraries (twoAgents.get (by decide)).2 tenantIndex)
      (position cursorLibraries cursor) page.items := by
  have given : base64url "-1" ≠ "" := by decide
  have read : decodeCursor cursorLibraries (some (base64url "-1")) = -1 := by
    have ascii : ∀ c ∈ "-1".toList, c.toNat < 128 := by simp
    have decoded : cursorLibraries.decodeBase64url (base64url "-1") = "-1" :=
      fromBase64url_base64url ascii
    have spelled : "-1" = "-" ++ toString (1 : Nat) := by decide
    have small : 1 < 2 ^ 32 := by decide
    rw [decodeCursor, if_neg given, decoded, spelled, parseInt_negative small]
    rfl
  refine ⟨some (base64url "-1"), _, exec_listing.mpr rfl, fun segment => ?_⟩
  have denotes := (isSegment_iff (indexOf_nodup (agents_distinct twoAgents_served) _) _).mp segment
  rw [Denotes, read] at denotes
  revert denotes
  decide

end Registry
