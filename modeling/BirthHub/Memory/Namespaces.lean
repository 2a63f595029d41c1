import BirthHub.Effect.Rely
import BirthHub.Memory.Model

/-!
# Namespaces of the memory

The entries of an agent, and those that a tenant shares, are kept under keys with one lead
(`Space.lead`), made of ids that are not escaped. `apart_iff` says for which ids no call of an
agent reads or changes the entries of another space.
-/

namespace Memory

open Data Effect

/-! ## Spaces -/

/-- Where an entry is kept: for an agent of a tenant, or as shared learning of a tenant. -/
inductive Space
  | agent (tenantId agentId : String)
  | shared (tenantId : String)
deriving DecidableEq

namespace Space

def tenantId : Space → String
  | .agent tenantId _ => tenantId
  | .shared tenantId => tenantId

/-- What the keys of a space begin with. -/
def lead : Space → List Char
  | .agent tenantId agentId => s!"{tenantId}:{agentId}:".toList
  | .shared tenantId => s!"{tenantId}:shared-learning:".toList

/-- What follows the lead: a memory key that is not blank, or the id of a record and that of its
agent. -/
def isRest : Space → List Char → Bool
  | .agent _ _, rest => trim (String.ofList rest) ≠ ""
  | .shared _, rest => ':' ∈ rest

/-- The keys of a space. -/
def takes (space : Space) (key : String) : Bool :=
  decide (space.lead <+: key.toList) && space.isRest (key.toList.drop space.lead.length)

end Space

/-- The spaces that a call is meant to touch. -/
def MemoryCall.MayTouch : MemoryCall → Space → Prop
  | .store tenantId agentId .., space => space = .agent tenantId agentId
  | .get tenantId agentId _, space => space = .agent tenantId agentId
  | .delete tenantId agentId _, space => space = .agent tenantId agentId
  | .clearByAgent tenantId agentId, space => space = .agent tenantId agentId
  | .clearByTenant tenantId, space => space.tenantId = tenantId
  | .publishSharedLearning tenantId .., space => space = .shared tenantId

/-- The calls of one agent. -/
def MemoryCall.By (tenantId agentId : String) : MemoryCall → Prop
  | .store tenantId' agentId' .. => tenantId' = tenantId ∧ agentId' = agentId
  | .get tenantId' agentId' _ => tenantId' = tenantId ∧ agentId' = agentId
  | .delete tenantId' agentId' _ => tenantId' = tenantId ∧ agentId' = agentId
  | .clearByAgent tenantId' agentId' => tenantId' = tenantId ∧ agentId' = agentId
  | .clearByTenant tenantId' => tenantId' = tenantId
  | .publishSharedLearning tenantId' .. => tenantId' = tenantId

/-- The backends hold the same outside of the space. -/
structure AgreeOutside (space : Space) (s t : InMemory) : Prop where
  clock : t.clock = s.clock
  records : t.records.filter (fun e => !space.takes e.1) =
    s.records.filter fun e => !space.takes e.1

/-- The call leaves the entries of a space as they are, and goes on in the same way whatever
they are. -/
structure Leaves (call : MemoryCall) (space : Space) : Prop where
  unchanged : ∀ s x s', memoryService.Exec (serve call) s x s' → ∀ key, space.takes key = true →
    ∀ now, s'.clock ≤ now → s'.entry now key = s.entry now key
  unread : ∀ s t x s', AgreeOutside space s t → memoryService.Exec (serve call) s x s' →
    ∃ t', memoryService.Exec (serve call) t x t' ∧ AgreeOutside space s' t'

/-- One of two texts begins with the other. -/
def Comparable (first second : List Char) : Prop := first <+: second ∨ second <+: first

/-- The ids of an agent keep its keys, patterns and records away from a space. -/
structure Apart (tenantId agentId : String) (space : Space) : Prop where
  keys : ¬Comparable (Space.agent tenantId agentId).lead space.lead
  agentPattern : canStart s!"{tenantId}:{agentId}:*".toList space.lead = false
  tenantPattern : space.tenantId ≠ tenantId →
    canStart s!"{tenantId}:*".toList space.lead = false
  learning : space ≠ .shared tenantId → ¬Comparable (Space.shared tenantId).lead space.lead

/-! ## Operations that are clear of a space -/

def MemoryOp.Clear (space : Space) : MemoryOp → Prop
  | .set key _ _ => space.takes key = false
  | .get key => space.takes key = false
  | .del key => space.takes key = false
  | .keys pattern => ∀ key, space.takes key = true → matchesPattern key pattern = false

/-- The keys that are listed are not the space's. -/
def ListsOthers (space : Space) : (o : MemoryOp) → MemoryIface.Answer o → Prop
  | .keys _, .ok keys => ∀ key ∈ keys, space.takes key = false
  | _, _ => True

section Operations

variable {space : Space} {o : MemoryOp} {s s' t : InMemory} {elapsed : Nat}
  {answer : MemoryIface.Answer o}

theorem InMemory.entry_sweepExpired {now : Int} (later : s.clock ≤ now) (key : String) :
    s.sweepExpired.entry now key = s.entry now key := by
  unfold InMemory.entry InMemory.sweepExpired
  rw [OrderedMap.get_filter, Option.filter_filter]
  refine congrArg (Option.filter · (s.records.get key)) (funext fun record => ?_)
  cases expires : record.expiresAt with
  | none => simp [BackendRecord.isExpired, expires]
  | some expiresAt =>
      by_cases live : (now : ℚ) < expiresAt
      · have before : (s.clock : ℚ) < expiresAt :=
          lt_of_le_of_lt (Int.cast_le.mpr later) live
        simp [BackendRecord.isExpired, expires, live, before]
      · simp [BackendRecord.isExpired, expires, not_lt.mp live]

theorem listsOthers_of_clear (clear : o.Clear space)
    (answered : memoryService.handle o elapsed s = some (answer, s')) :
    ListsOthers space o answer := by
  cases o with
  | keys pattern =>
      cases answered
      intro key inside
      by_contra held
      have passes := (List.mem_filter.mp inside).2
      rw [clear key (by simpa using held)] at passes
      cases passes
  | _ => trivial

/-- An operation that is clear of a space keeps its entries, as long as they live. -/
theorem entry_of_clear (clear : o.Clear space)
    (answered : memoryService.handle o elapsed s = some (answer, s')) :
    s.clock ≤ s'.clock ∧ ∀ key, space.takes key = true → ∀ now, s'.clock ≤ now →
      s'.entry now key = s.entry now key := by
  have other {key key' : String} (clear : space.takes key = false)
      (held : space.takes key' = true) : key' ≠ key := by
    rintro rfl
    rw [clear] at held
    cases held
  have passes : s.clock ≤ s.clock + elapsed := by omega
  cases o with
  | set key value ttlSeconds =>
      cases answered
      refine ⟨passes, fun key' held now _ => ?_⟩
      unfold InMemory.entry
      dsimp only [InMemory.perform]
      rw [OrderedMap.get_set, if_neg (other clear held)]
  | get key =>
      cases answered
      exact ⟨passes, fun key' _ now later => InMemory.entry_sweepExpired
        (s := { s with clock := s.clock + elapsed }) later key'⟩
  | del key =>
      cases answered
      refine ⟨passes, fun key' held now _ => ?_⟩
      unfold InMemory.entry
      dsimp only [InMemory.perform, InMemory.remove]
      rw [OrderedMap.get_filter, Option.filter_filter]
      simp [other clear held]
  | keys pattern =>
      cases answered
      exact ⟨passes, fun key' _ now later => InMemory.entry_sweepExpired
        (s := { s with clock := s.clock + elapsed }) later key'⟩

/-- An operation that is clear of a space does the same whatever the space holds. -/
theorem simulate_of_clear (clear : o.Clear space) (agree : AgreeOutside space s t)
    (answered : memoryService.handle o elapsed s = some (answer, s')) :
    ∃ t', memoryService.handle o elapsed t = some (answer, t') ∧ AgreeOutside space s' t' := by
  have found {key : String} (clear : space.takes key = false) :
      t.records.get key = s.records.get key := by
    have through (m : OrderedMap String BackendRecord) :
        (m.filter fun e => !space.takes e.1).get key = m.get key := by
      rw [OrderedMap.get_filter]
      cases m.get key with
      | none => rfl
      | some record => simp [clear]
    rw [← through, agree.records, through]
  have swept (p : String × BackendRecord → Bool) :
      (t.records.filter p).filter (fun e => !space.takes e.1) =
        (s.records.filter p).filter fun e => !space.takes e.1 := by
    rw [OrderedMap.filter_comm, agree.records, OrderedMap.filter_comm]
  have listed {pattern : String} (m : OrderedMap String BackendRecord)
      (clear : ∀ key, space.takes key = true → matchesPattern key pattern = false) :
      ((m.filter fun e => !space.takes e.1).entries.map Prod.fst).filter
        (matchesPattern · pattern) =
      (m.entries.map Prod.fst).filter (matchesPattern · pattern) := by
    simp only [OrderedMap.filter, List.filter_map, List.filter_filter]
    congr 1
    refine List.filter_congr fun e _ => ?_
    cases held : space.takes e.1 with
    | true => simp [clear e.1 held]
    | false => simp
  have clock := agree.clock
  cases o with
  | set key value ttlSeconds =>
      cases answered
      refine ⟨_, rfl, by simp only [clock], ?_⟩
      simp only [OrderedMap.filter_set (fun key => !space.takes key), agree.records, clock]
  | get key =>
      cases answered
      refine ⟨({ t with clock := t.clock + elapsed } : InMemory).sweepExpired, ?_,
        by simp only [InMemory.sweepExpired, clock], ?_⟩
      · simp only [memoryService, InMemory.perform, InMemory.sweepExpired, OrderedMap.get_filter,
          found clear, clock]
      · simp only [InMemory.sweepExpired, clock]
        exact swept _
  | del key =>
      cases answered
      refine ⟨({ t with clock := t.clock + elapsed } : InMemory).remove key, ?_,
        by simp only [InMemory.remove, clock], ?_⟩
      · simp only [memoryService, InMemory.perform, InMemory.remove, found clear, clock]
      · exact swept _
  | keys pattern =>
      cases answered
      refine ⟨({ t with clock := t.clock + elapsed } : InMemory).sweepExpired, ?_,
        by simp only [InMemory.sweepExpired, clock], ?_⟩
      · simp only [memoryService, InMemory.perform, InMemory.sweepExpired, clock]
        rw [← listed (t.records.filter _) clear, ← listed (s.records.filter _) clear, swept]
      · simp only [InMemory.sweepExpired, clock]
        exact swept _

end Operations

/-! ## Calls that leave a space -/

section Calls

variable {space : Space} {tenantId agentId : String} {call : MemoryCall}

theorem takes_iff {key : String} : space.takes key = true ↔
    ∃ rest, key.toList = space.lead ++ rest ∧ space.isRest rest = true := by
  rw [Space.takes, Bool.and_eq_true, decide_eq_true_eq]
  constructor
  · rintro ⟨⟨rest, same⟩, isRest⟩
    rw [← same, List.drop_left] at isRest
    exact ⟨rest, same.symm, isRest⟩
  · rintro ⟨rest, same, isRest⟩
    rw [same, List.drop_left]
    exact ⟨List.prefix_append _ _, isRest⟩

/-- A key with a lead that is not comparable is none of the space's. -/
theorem not_takes {key : String} {lead : List Char} (begins : lead <+: key.toList)
    (apart : ¬Comparable lead space.lead) : space.takes key = false := by
  by_contra held
  obtain ⟨rest, same, _⟩ := takes_iff.mp (Bool.eq_true_of_not_eq_false held)
  exact apart (List.prefix_or_prefix_of_prefix begins ⟨rest, same.symm⟩)

theorem buildNamespacedKey_lead {memoryKey key : String}
    (built : buildNamespacedKey tenantId agentId memoryKey = .ok key) :
    (Space.agent tenantId agentId).lead <+: key.toList := by
  unfold buildNamespacedKey at built
  split at built
  · cases built
  · cases built
    exact ⟨memoryKey.toList, by simp [Space.lead, toString]⟩

theorem buildSharedLearningKey_lead {memoryKey key : String}
    (built : buildSharedLearningKey tenantId memoryKey = .ok key) :
    (Space.shared tenantId).lead <+: key.toList := by
  unfold buildSharedLearningKey at built
  split at built
  · cases built
  · cases built
    exact ⟨memoryKey.toList, by simp [Space.lead, toString]⟩

theorem clear_of_canStart {pattern : String}
    (apart : canStart pattern.toList space.lead = false) :
    (MemoryOp.keys pattern).Clear space := by
  intro key held
  obtain ⟨rest, same, _⟩ := takes_iff.mp held
  by_contra found
  rw [canStart_iff.mpr ⟨rest, same ▸ Bool.eq_true_of_not_eq_false found⟩] at apart
  cases apart

theorem under_ofExcept {α : Type} {made : Except Thrown String} {f : String → Prog MemoryIface α}
    (under : ∀ key, made = .ok key →
      (f key).Under (MemoryOp.Clear space) (ListsOthers space) fun _ => True) :
    ((Prog.ofExcept made).bind f).Under (MemoryOp.Clear space) (ListsOthers space)
      fun _ => True := by
  cases made with
  | error e => trivial
  | ok key => exact under key rfl

theorem under_deleteAll {keys : List String} (clear : ∀ key ∈ keys, space.takes key = false) :
    (deleteAll keys).Under (MemoryOp.Clear space) (ListsOthers space) fun _ => True := by
  induction keys with
  | nil => trivial
  | cons key keys ih =>
      refine .performBind (clear key (by simp)) (fun count _ => .bind ?_) fun _ _ => trivial
      refine (ih fun key' inside => clear key' (by simp [inside])).mono fun x _ => ?_
      cases x <;> trivial

theorem under_map {α : Type} {p : Prog MemoryIface α} (f : α → MemoryResult)
    (under : p.Under (MemoryOp.Clear space) (ListsOthers space) fun _ => True) :
    (p.bind fun a => .pure (f a)).Under (MemoryOp.Clear space) (ListsOthers space)
      fun _ => True := by
  refine .bind (under.mono fun x _ => ?_)
  cases x <;> trivial

/-- The calls of an agent await only operations that are clear of a space its ids keep away
from. -/
theorem under_serve (apart : Apart tenantId agentId space) (caller : call.By tenantId agentId)
    (other : ¬call.MayTouch space) :
    (serve call).Under (MemoryOp.Clear space) (ListsOthers space) fun _ => True := by
  have own {memoryKey key : String}
      (built : buildNamespacedKey tenantId agentId memoryKey = .ok key) :
      space.takes key = false := not_takes (buildNamespacedKey_lead built) apart.keys
  cases call with
  | store tenantId agentId memoryKey value ttlSeconds =>
      obtain ⟨rfl, rfl⟩ := caller
      have under : (store tenantId agentId memoryKey value ttlSeconds).Under
          (MemoryOp.Clear space) (ListsOthers space) fun _ => True :=
        under_ofExcept fun key built =>
          .performBind (own built) (fun _ _ => trivial) fun _ _ => trivial
      rw [serve]
      exact under_map .key under
  | get tenantId agentId memoryKey =>
      obtain ⟨rfl, rfl⟩ := caller
      have under : (get tenantId agentId memoryKey).Under (MemoryOp.Clear space)
          (ListsOthers space) fun _ => True := by
        refine under_ofExcept fun key built =>
          .performBind (own built) (fun value _ => ?_) fun _ _ => trivial
        split
        · trivial
        · rename_i text _
          cases parseValue text <;> exact True.intro
      rw [serve]
      exact under_map .value under
  | delete tenantId agentId memoryKey =>
      obtain ⟨rfl, rfl⟩ := caller
      have deletes (key : String)
          (built : buildNamespacedKey tenantId agentId memoryKey = .ok key) :
          (await (.del key)).Under (MemoryOp.Clear space) (ListsOthers space) fun _ => True := by
        refine ⟨own built, fun r _ => ?_⟩
        cases r <;> trivial
      have under : (delete tenantId agentId memoryKey).Under (MemoryOp.Clear space)
          (ListsOthers space) fun _ => True := under_ofExcept deletes
      rw [serve]
      exact under_map .count under
  | clearByAgent tenantId agentId =>
      obtain ⟨rfl, rfl⟩ := caller
      have clear := clear_of_canStart apart.agentPattern
      have under : (clearByAgent tenantId agentId).Under (MemoryOp.Clear space)
          (ListsOthers space) fun _ => True :=
        .performBind clear (fun keys relied => under_deleteAll relied) fun _ _ => trivial
      rw [serve]
      exact under_map .count under
  | clearByTenant tenantId =>
      obtain rfl := caller
      have clear := clear_of_canStart (apart.tenantPattern other)
      have under : (clearByTenant tenantId).Under (MemoryOp.Clear space)
          (ListsOthers space) fun _ => True :=
        .performBind clear (fun keys relied => under_deleteAll relied) fun _ _ => trivial
      rw [serve]
      exact under_map .count under
  | publishSharedLearning tenantId record ttlSeconds =>
      obtain rfl := caller
      have under : (publishSharedLearning tenantId record ttlSeconds).Under
          (MemoryOp.Clear space) (ListsOthers space) fun _ => True :=
        under_ofExcept fun key built =>
          .performBind (not_takes (buildSharedLearningKey_lead built) (apart.learning other))
            (fun _ _ => trivial) fun _ _ => trivial
      rw [serve]
      exact under_map .key under

/-- What awaits only operations that are clear of a space leaves it. -/
theorem leaves_of_under (under : (serve call).Under (MemoryOp.Clear space) (ListsOthers space)
    fun _ => True) : Leaves call space where
  unchanged s x s' ran := by
    let Keeps (s s' : InMemory) : Prop := s.clock ≤ s'.clock ∧ ∀ key, space.takes key = true →
      ∀ now, s'.clock ≤ now → s'.entry now key = s.entry now key
    have kept : Keeps s s' := (System.Exec.under_trans (A := MemoryOp.Clear space)
      (R := ListsOthers space) (T := Keeps)
      (fun s => ⟨le_refl _, fun _ _ _ _ => rfl⟩)
      (fun first second => ⟨le_trans first.1 second.1, fun key held now later =>
        (second.2 key held now later).trans
          (first.2 key held now (le_trans second.1 later))⟩)
      (fun clear answered =>
        ⟨listsOthers_of_clear clear answered, entry_of_clear clear answered⟩) under ran).2
    exact kept.2
  unread s t x s' agree ran := System.Exec.under_simulate (A := MemoryOp.Clear space)
    (R := ListsOthers space)
    (fun clear agree answered =>
      ⟨listsOthers_of_clear clear answered, simulate_of_clear clear agree answered⟩)
    under agree ran

/-! ## Calls that reach into a space -/

theorem trim_ne_empty {text : String} {c : Char} (inside : c ∈ text.toList)
    (visible : isWhitespace c = false) : trim text ≠ "" := by
  have kept {chars : List Char} (inside : c ∈ chars) : c ∈ chars.dropWhile isWhitespace := by
    rw [← List.takeWhile_append_dropWhile (p := isWhitespace) (l := chars), List.mem_append]
      at inside
    rcases inside with before | after
    · rw [List.mem_takeWhile_imp before] at visible
      cases visible
    · exact after
  intro blank
  have held : c ∈ (trim text).toList := by
    simpa [trim] using kept (List.mem_reverse.mpr (kept inside))
  rw [blank] at held
  cases held

/-- The end of a key that every space takes. -/
def ending : List Char := ['x', ':', 'x']

theorem takes_ending {key : String} (more : List Char)
    (same : key.toList = space.lead ++ (more ++ ending)) : space.takes key = true := by
  refine takes_iff.mpr ⟨_, same, ?_⟩
  cases space with
  | agent tenantId agentId =>
      have inside : 'x' ∈ (String.ofList (more ++ ending)).toList := by simp [ending]
      simpa [Space.isRest] using trim_ne_empty inside (by decide)
  | shared tenantId => simp [Space.isRest, ending]

theorem Comparable.meet {first second : List Char} (comparable : Comparable first second) :
    ∃ more more', first ++ more = second ++ more' := by
  rcases comparable with ⟨rest, rfl⟩ | ⟨rest, rfl⟩
  · exact ⟨rest, [], by simp⟩
  · exact ⟨[], rest, by simp⟩

theorem not_leaves {key : String} {s s' : InMemory} {x : Except Thrown MemoryResult}
    (held : space.takes key = true) (ran : memoryService.Exec (serve call) s x s')
    (changed : s'.entry s'.clock key ≠ s.entry s'.clock key) : ¬Leaves call space :=
  fun leaves => changed (leaves.unchanged s x s' ran key held _ (le_refl _))

/-- A backend that holds one entry. -/
def holding (key value : String) : InMemory := { records := OrderedMap.empty.set key { value } }

theorem entry_holding {key value : String} {now : Int} :
    (holding key value).entry now key = some { value } := by
  simp [holding, InMemory.entry, OrderedMap.get_set, BackendRecord.isExpired]

theorem exec_store {memoryKey key : String} {value : Json}
    (built : buildNamespacedKey tenantId agentId memoryKey = .ok key) :
    memoryService.Exec (serve (.store tenantId agentId memoryKey value none)) {} (.ok (.key key))
      (holding key value.stringify) := by
  rw [serve, store, built]
  exact .op (show memoryService.handle (.set key value.stringify none) (0 : Nat) {} =
    some (.ok (), holding key value.stringify) from rfl) .pure

theorem exec_publishSharedLearning {key : String} {record : AgentLearningRecord}
    (built : buildSharedLearningKey tenantId s!"{record.id}:{record.sourceAgentId}" = .ok key) :
    memoryService.Exec (serve (.publishSharedLearning tenantId record none)) {} (.ok (.key key))
      (holding key record.toJson.stringify) := by
  rw [serve, publishSharedLearning, built]
  exact .op (show memoryService.handle (.set key record.toJson.stringify none) (0 : Nat) {} =
    some (.ok (), holding key record.toJson.stringify) from rfl) .pure

theorem exec_clear {key value pattern : String} (found : matchesPattern key pattern = true) :
    memoryService.Exec ((await (.keys pattern)).bind deleteAll) (holding key value) (.ok 1) {} := by
  have one : (holding key value).records.entries = [(key, { value })] := rfl
  have listed : memoryService.handle (.keys pattern) (0 : Nat) (holding key value) =
      some (.ok [key], holding key value) := by
    have kept : (holding key value).records.filter
        (fun e => !e.2.isExpired (holding key value).clock) = (holding key value).records := by
      apply OrderedMap.ext_entries
      simp [OrderedMap.filter, one, BackendRecord.isExpired]
    have swept : (holding key value).sweepExpired = holding key value :=
      congrArg (InMemory.mk 0) kept
    show some (Except.ok (((holding key value).sweepExpired.records.entries.map Prod.fst).filter
      (matchesPattern · pattern)), (holding key value).sweepExpired) = _
    simp [swept, one, found]
  have deleted : memoryService.handle (.del key) (0 : Nat) (holding key value) =
      some (.ok 1, {}) := by
    have none : (holding key value).records.filter (fun e => decide (e.1 ≠ key)) = .empty := by
      apply OrderedMap.ext_entries
      simp [OrderedMap.filter, one, OrderedMap.empty]
    have gone : (holding key value).remove key = {} := congrArg (InMemory.mk 0) none
    have there : (holding key value).records.get key = some { value } := by
      simp [holding, OrderedMap.get_set]
    show some (Except.ok (if ((holding key value).records.get key).isSome then 1 else 0),
      (holding key value).remove key) = _
    simp [gone, there]
  exact .op listed (.op deleted .pure)

theorem keys_of_leaves (tenant : trim tenantId ≠ "") (agent : trim agentId ≠ "")
    (other : space ≠ .agent tenantId agentId)
    (leaves : ∀ call : MemoryCall, call.By tenantId agentId → ¬call.MayTouch space →
      Leaves call space) : ¬Comparable (Space.agent tenantId agentId).lead space.lead := by
  intro comparable
  obtain ⟨more, more', same⟩ := comparable.meet
  let memoryKey := String.ofList (more ++ ending)
  have nonblank : trim memoryKey ≠ "" :=
    trim_ne_empty (c := 'x') (by simp [memoryKey, ending]) (by decide)
  have built : buildNamespacedKey tenantId agentId memoryKey =
      .ok s!"{tenantId}:{agentId}:{memoryKey}" := by
    simp [buildNamespacedKey, tenant, agent, nonblank]
  have held : space.takes s!"{tenantId}:{agentId}:{memoryKey}" = true := by
    refine takes_ending more' ?_
    rw [← List.append_assoc, ← same]
    simp [memoryKey, Space.lead, toString]
  refine not_leaves held (exec_store built) ?_
    (leaves (.store _ _ _ .null none) ⟨rfl, rfl⟩ other)
  rw [entry_holding]
  exact Option.some_ne_none _

theorem learning_of_leaves (tenant : trim tenantId ≠ "") (other : space ≠ .shared tenantId)
    (leaves : ∀ call : MemoryCall, call.By tenantId agentId → ¬call.MayTouch space →
      Leaves call space) : ¬Comparable (Space.shared tenantId).lead space.lead := by
  intro comparable
  obtain ⟨more, more', same⟩ := comparable.meet
  let record : AgentLearningRecord := {
    id := String.ofList (more ++ ['x']), tenantId, sourceAgentId := "x", lessonType := ""
    summary := "", evidence := [], confidence := .ofNat 1, keywords := [], appliesTo := []
    approved := true, createdAt := "" }
  let memoryKey := s!"{record.id}:{record.sourceAgentId}"
  have nonblank : trim memoryKey ≠ "" :=
    trim_ne_empty (c := 'x') (by simp [memoryKey, record, toString]) (by decide)
  have built : buildSharedLearningKey tenantId memoryKey =
      .ok s!"{tenantId}:shared-learning:{memoryKey}" := by
    simp [buildSharedLearningKey, tenant, nonblank]
  have held : space.takes s!"{tenantId}:shared-learning:{memoryKey}" = true := by
    refine takes_ending more' ?_
    rw [← List.append_assoc, ← same]
    simp [memoryKey, record, ending, Space.lead, toString]
  refine not_leaves held (exec_publishSharedLearning built) ?_ (leaves _ rfl other)
  rw [entry_holding]
  exact Option.some_ne_none _

/-- A call that clears a pattern that the keys of a space can match does not leave the space. -/
theorem canStart_of_leaves {pattern : List Char}
    (clears : ∀ key, matchesPattern key (String.ofList (pattern ++ ['*'])) = true →
      ∃ x, memoryService.Exec (serve call) (holding key "") x {})
    (leaves : Leaves call space) : canStart (pattern ++ ['*']) space.lead = false := by
  by_contra starts
  obtain ⟨more, found⟩ := canStart_iff.mp (Bool.eq_true_of_not_eq_false starts)
  let key := String.ofList (space.lead ++ (more ++ ending))
  have matched : matchesPattern key (String.ofList (pattern ++ ['*'])) = true := by
    have dots : ending.all isDot = true := by decide
    have longer := matchesWildcard_append dots found
    simpa [matchesPattern, key] using longer
  have held : space.takes key = true := takes_ending more (by simp [key])
  obtain ⟨x, ran⟩ := clears key matched
  refine not_leaves held ran ?_ leaves
  rw [entry_holding]
  exact (Option.some_ne_none _).symm

/-- The calls of an agent leave the entries of another space, unless the ids of the two make
texts of which one begins with the other, or that a pattern matches. -/
theorem apart_iff (tenant : trim tenantId ≠ "") (agent : trim agentId ≠ "")
    (other : space ≠ .agent tenantId agentId) :
    (∀ call : MemoryCall, call.By tenantId agentId → ¬call.MayTouch space →
      Leaves call space) ↔ Apart tenantId agentId space := by
  constructor
  · intro leaves
    refine ⟨keys_of_leaves tenant agent other leaves, ?_, fun elsewhere => ?_,
      fun elsewhere => learning_of_leaves tenant elsewhere leaves⟩
    · have made : s!"{tenantId}:{agentId}:*".toList =
          (Space.agent tenantId agentId).lead ++ ['*'] := by simp [Space.lead, toString]
      rw [made]
      refine canStart_of_leaves (fun key matched => ?_)
        (leaves (.clearByAgent tenantId agentId) ⟨rfl, rfl⟩ other)
      rw [← made, String.ofList_toList] at matched
      exact ⟨_, System.exec_bind.mpr (.inr ⟨1, {}, exec_clear matched, .pure⟩)⟩
    · have made : s!"{tenantId}:*".toList = s!"{tenantId}:".toList ++ ['*'] := by simp [toString]
      rw [made]
      refine canStart_of_leaves (fun key matched => ?_)
        (leaves (.clearByTenant tenantId) rfl elsewhere)
      rw [← made, String.ofList_toList] at matched
      exact ⟨_, System.exec_bind.mpr (.inr ⟨1, {}, exec_clear matched, .pure⟩)⟩
  · intro apart call caller elsewhere
    exact leaves_of_under (under_serve apart caller elsewhere)

/-- Two agents whose ids are plain leave each other's entries. -/
theorem plain_apart :
    Apart "tenant-1" "agent-1" (.agent "tenant-1" "agent-2") ∧
    ∀ call : MemoryCall, call.By "tenant-1" "agent-1" →
      ¬call.MayTouch (.agent "tenant-1" "agent-2") →
      Leaves call (.agent "tenant-1" "agent-2") := by
  have apart : Apart "tenant-1" "agent-1" (.agent "tenant-1" "agent-2") :=
    ⟨by unfold Comparable; decide, by decide, by decide, by unfold Comparable; decide⟩
  exact ⟨apart, (apart_iff (by decide) (by decide) (by decide)).mpr apart⟩

/-- What the agent `a:b` stores under `k` is found by the agent `a` under `b:k`. -/
theorem agentWithColon_overlaps :
    ¬∀ (tenantId agentId : String) (space : Space) (call : MemoryCall),
      trim tenantId ≠ "" → trim agentId ≠ "" → space ≠ .agent tenantId agentId →
      call.By tenantId agentId → ¬call.MayTouch space → Leaves call space := by
  intro claimed
  have built : buildNamespacedKey "t" "a:b" "k" = .ok "t:a:b:k" := by
    rw [buildNamespacedKey]
    decide
  have held : (Space.agent "t" "a").takes "t:a:b:k" = true := by decide
  have ran : memoryService.Exec (serve (.store "t" "a:b" "k" .null none)) _ _ _ :=
    exec_store built
  refine not_leaves held ran ?_ (claimed "t" "a:b" (.agent "t" "a") _ (by decide) (by decide)
    (by decide) ⟨rfl, rfl⟩ (by unfold MemoryCall.MayTouch; decide))
  rw [entry_holding]
  exact Option.some_ne_none _

end Calls

end Memory
