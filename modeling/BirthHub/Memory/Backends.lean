import BirthHub.Data.Table
import BirthHub.Memory.Model

/-!
# The two backends of the memory

`InMemory` mutates a map and sweeps what has expired, and `AuditLogs`, the backend of the
worker, only appends to the audit log and reads the latest row of a key. Both are compared with
the history of their operations: `Mirrors` gives the entry of every key by its latest write
(`latest`) and by whether a read has swept it (`swept`). `backends_agree_iff` says for which
sequences of operations the two answer the same.
-/

namespace Memory

open Data

/-! ## The backend over the audit log -/

structure AuditMemoryPayload where
  expiresAt : Option ℚ := none
  value : Option String := none

structure AuditLog where
  action : String
  diff : AuditMemoryPayload
  entityId : String
  entityType : String
  tenantId : String
  createdAt : Int

abbrev AuditLogs := List AuditLog

/-- `key.split(":")[0]`. -/
def tenantOf (key : String) : String := String.ofList (key.toList.takeWhile (· ≠ ':'))

def AuditMemoryPayload.isExpired (payload : AuditMemoryPayload) (now : Int) : Bool :=
  payload.expiresAt.any (· ≤ (now : ℚ))

def AuditLog.isMemory (row : AuditLog) : Bool :=
  decide (row.action ∈ ["AGENT_MEMORY_DELETE", "AGENT_MEMORY_SET"]) &&
    row.entityType = "agent_memory"

/-- What is created by `set`. -/
def setRow (now : Int) (key value : String) (ttlSeconds : Option ℚ) : AuditLog where
  action := "AGENT_MEMORY_SET"
  diff := { expiresAt := expiryOf now ttlSeconds, value := some value }
  entityId := key
  entityType := "agent_memory"
  tenantId := tenantOf key
  createdAt := now

/-- What is created by `del`. -/
def deleteRow (now : Int) (key : String) : AuditLog where
  action := "AGENT_MEMORY_DELETE"
  diff := {}
  entityId := key
  entityType := "agent_memory"
  tenantId := tenantOf key
  createdAt := now

namespace AuditLogs

variable (logs : AuditLogs) (now : Int)

/-- The rows of the memory of a tenant that pass, the latest first. -/
def findMany (tenantId : String) (pass : AuditLog → Bool) : List AuditLog :=
  (logs.filter fun row => row.isMemory && (row.tenantId = tenantId && pass row)).insertionSort
    fun a b => b.createdAt ≤ a.createdAt

def set (key value : String) (ttlSeconds : Option ℚ) : AuditLogs :=
  logs ++ [setRow now key value ttlSeconds]

def get (key : String) : Option String :=
  match (logs.findMany (tenantOf key) (·.entityId = key)).head? with
  | none => none
  | some latest =>
      if latest.action = "AGENT_MEMORY_DELETE" then none
      else if latest.diff.isExpired now then none
      else latest.diff.value

def del (key : String) : Nat × AuditLogs :=
  (if (logs.get now key).any (· ≠ "") then 1 else 0, logs ++ [deleteRow now key])

/-- The first of the records of each key. -/
def latestByKey (records : List AuditLog) : OrderedMap String AuditLog :=
  records.foldl (fun latest record =>
    if (latest.get record.entityId).isSome then latest
    else latest.set record.entityId record) .empty

def keys (pattern : String) : List String :=
  let records := logs.findMany (tenantOf pattern) fun _ => true
  ((latestByKey records).entries.filter fun (key, record) =>
    record.action ≠ "AGENT_MEMORY_DELETE" && !record.diff.isExpired now &&
      matchesPattern key pattern).map Prod.fst

def perform : (o : MemoryOp) → o.Result × AuditLogs
  | .set key value ttlSeconds => ((), logs.set now key value ttlSeconds)
  | .get key => (logs.get now key, logs)
  | .del key => logs.del now key
  | .keys pattern => (logs.keys now pattern, logs)

end AuditLogs

/-! ## Sequences of operations -/

/-- An operation and the time at which it is called. -/
abbrev Timed := Int × MemoryOp

/-- An operation of the backend in memory at a time. -/
def InMemory.performAt (backend : InMemory) (now : Int) (o : MemoryOp) : o.Result × InMemory :=
  { backend with clock := now }.perform o

/-- The same results, keys being compared as sets. -/
def MemoryOp.Same : (o : MemoryOp) → o.Result → o.Result → Prop
  | .set .., _, _ => True
  | .get _, value, value' => value = value'
  | .del _, count, count' => count = count'
  | .keys _, listed, listed' => ∀ key, key ∈ listed ↔ key ∈ listed'

/-- The backends answer every operation of a sequence the same. -/
def Agree (backend : InMemory) (logs : AuditLogs) : List Timed → Prop
  | [] => True
  | (now, o) :: rest =>
      o.Same (backend.performAt now o).1 (logs.perform now o).1 ∧
        Agree (backend.performAt now o).2 (logs.perform now o).2 rest

/-- The key of an operation is one of the tenant. -/
def MemoryOp.OfTenant (tenantId : String) : MemoryOp → Prop
  | .set key _ _ => tenantOf key = tenantId
  | .get key => tenantOf key = tenantId
  | .del key => tenantOf key = tenantId
  | .keys _ => True

instance (tenantId : String) : (o : MemoryOp) → Decidable (o.OfTenant tenantId)
  | .set key _ _ => inferInstanceAs (Decidable (tenantOf key = tenantId))
  | .get key => inferInstanceAs (Decidable (tenantOf key = tenantId))
  | .del key => inferInstanceAs (Decidable (tenantOf key = tenantId))
  | .keys _ => inferInstanceAs (Decidable True)

/-! ## Histories -/

/-- What was last set under a key and not deleted since; the history is newest first. -/
def latest (key : String) : List Timed → Option BackendRecord
  | [] => none
  | (now, .set key' value ttlSeconds) :: earlier =>
      if key' = key then some { value, expiresAt := expiryOf now ttlSeconds }
      else latest key earlier
  | (_, .del key') :: earlier => if key' = key then none else latest key earlier
  | (_, .get _) :: earlier => latest key earlier
  | (_, .keys _) :: earlier => latest key earlier

/-- Some read has come after the expiry of what was last set under a key. -/
def swept (key : String) : List Timed → Bool
  | [] => false
  | (_, .set key' _ _) :: earlier => if key' = key then false else swept key earlier
  | (_, .del key') :: earlier => if key' = key then false else swept key earlier
  | (now, .get _) :: earlier => (latest key earlier).any (·.isExpired now) || swept key earlier
  | (now, .keys _) :: earlier => (latest key earlier).any (·.isExpired now) || swept key earlier

/-- After a history the backends answer an operation the same: what is deleted has been swept
or is neither expired nor empty, and keys are listed for the tenant, or match nothing. -/
def Fits (tenantId : String) (history : List Timed) : Timed → Prop
  | (now, .del key) => ∀ record, latest key history = some record →
      swept key history = true ∨ (record.isExpired now = false ∧ record.value ≠ "")
  | (now, .keys pattern) => tenantOf pattern = tenantId ∨
      ∀ key record, latest key history = some record → record.isExpired now = false →
        matchesPattern key pattern = false
  | _ => True

/-- The row that an operation appends. -/
def rowOf : Timed → Option AuditLog
  | (now, .set key value ttlSeconds) => some (setRow now key value ttlSeconds)
  | (now, .del key) => some (deleteRow now key)
  | _ => none

/-- What both backends hold after a history. -/
structure Mirrors (history : List Timed) (backend : InMemory) (logs : AuditLogs) : Prop where
  records : ∀ key, backend.records.get key =
    if swept key history then none else latest key history
  rows : logs.filter (·.isMemory) = (history.filterMap rowOf).reverse

section

variable {tenantId key : String} {history : List Timed} {now : Int} {backend : InMemory}
  {logs : AuditLogs} {record : BackendRecord} {o : MemoryOp}

theorem BackendRecord.isExpired_mono {time : Int} (expired : record.isExpired time = true)
    (later : time ≤ now) : record.isExpired now = true := by
  rw [BackendRecord.isExpired, Option.any_eq_true] at expired ⊢
  obtain ⟨expiresAt, found, before⟩ := expired
  exact ⟨expiresAt, found, decide_eq_true
    (le_trans (of_decide_eq_true before) (Int.cast_le.mpr later))⟩

theorem expired_of_swept (later : ∀ e ∈ history, e.1 < now) (isSwept : swept key history = true)
    (found : latest key history = some record) : record.isExpired now = true := by
  induction history with
  | nil => cases isSwept
  | cons e earlier ih =>
      obtain ⟨time, o⟩ := e
      have before : time ≤ now := (later _ List.mem_cons_self).le
      have rest := ih fun e inside => later e (List.mem_cons_of_mem _ inside)
      have read (isSwept : ((latest key earlier).any (·.isExpired time) || swept key earlier) =
          true) (found : latest key earlier = some record) : record.isExpired now = true := by
        rw [Bool.or_eq_true] at isSwept
        rcases isSwept with expired | isSwept
        · rw [found] at expired
          exact BackendRecord.isExpired_mono expired before
        · exact rest isSwept found
      cases o with
      | set key' value ttlSeconds =>
          by_cases same : key' = key
          · simp [swept, same] at isSwept
          · rw [swept, if_neg same] at isSwept
            rw [latest, if_neg same] at found
            exact rest isSwept found
      | del key' =>
          by_cases same : key' = key
          · simp [swept, same] at isSwept
          · rw [swept, if_neg same] at isSwept
            rw [latest, if_neg same] at found
            exact rest isSwept found
      | get => exact read isSwept found
      | keys => exact read isSwept found

/-! ## The backend in memory -/

theorem Mirrors.get_swept (mirrors : Mirrors history backend logs)
    (later : ∀ e ∈ history, e.1 < now) (key : String) :
    ({ backend with clock := now } : InMemory).sweepExpired.records.get key =
      (latest key history).filter (!·.isExpired now) := by
  rw [InMemory.sweepExpired, OrderedMap.get_filter]
  show (backend.records.get key).filter _ = _
  rw [mirrors.records]
  cases isSwept : swept key history with
  | false => rfl
  | true =>
      cases found : latest key history with
      | none => rfl
      | some record =>
          have expired := expired_of_swept later isSwept found
          simp [Option.filter, expired]

/-! ## The audit log -/

theorem rowOf_createdAt {e : Timed} {row : AuditLog} (made : rowOf e = some row) :
    row.createdAt = e.1 := by
  obtain ⟨time, o⟩ := e
  cases o <;> cases made <;> rfl

theorem rowOf_tenantId {e : Timed} {row : AuditLog} (made : rowOf e = some row) :
    row.tenantId = tenantOf row.entityId := by
  obtain ⟨time, o⟩ := e
  cases o <;> cases made <;> rfl

theorem Mirrors.findMany (mirrors : Mirrors history backend logs)
    (falling : history.Pairwise fun a b => b.1 < a.1) {pass : AuditLog → Bool} :
    logs.findMany tenantId pass =
      (history.filterMap rowOf).filter fun row => row.tenantId = tenantId && pass row := by
  have rising : (history.filterMap rowOf).Pairwise fun a b => b.createdAt < a.createdAt := by
    refine falling.filterMap rowOf fun a b before row made row' made' => ?_
    rw [rowOf_createdAt made, rowOf_createdAt made']
    exact before
  have memory : (logs.filter fun row =>
        row.isMemory && (decide (row.tenantId = tenantId) && pass row)) =
      ((history.filterMap rowOf).filter fun row =>
        decide (row.tenantId = tenantId) && pass row).reverse := by
    rw [← List.filter_reverse, ← mirrors.rows, List.filter_filter]
    simp only [Bool.and_comm]
  rw [AuditLogs.findMany, memory, insertionSort_eq_reverse, List.reverse_reverse]
  rw [List.pairwise_reverse]
  exact (rising.filter _).imp fun less => not_le.mpr less

/-- The first row of a key tells what was last set under it. -/
theorem find_rowOf (key : String) (history : List Timed) :
    (∃ record row, latest key history = some record ∧
      (history.filterMap rowOf).find? (·.entityId = key) = some row ∧
      row.action ≠ "AGENT_MEMORY_DELETE" ∧
      row.diff = { expiresAt := record.expiresAt, value := some record.value }) ∨
    (latest key history = none ∧
      ∀ row, (history.filterMap rowOf).find? (·.entityId = key) = some row →
        row.action = "AGENT_MEMORY_DELETE") := by
  induction history with
  | nil => exact .inr ⟨rfl, fun row found => by cases found⟩
  | cons e earlier ih =>
      obtain ⟨time, o⟩ := e
      cases o with
      | set key' value ttlSeconds =>
          by_cases same : key' = key
          · refine .inl ⟨_, setRow time key' value ttlSeconds, if_pos same, ?_, ?_, rfl⟩
            · simp [rowOf, setRow, same]
            · simp [setRow]
          · simpa [rowOf, setRow, latest, same] using ih
      | del key' =>
          by_cases same : key' = key
          · refine .inr ⟨if_pos same, fun row found => ?_⟩
            simp only [rowOf, List.filterMap_cons, deleteRow, same, List.find?_cons,
              decide_true] at found
            cases found
            rfl
          · simpa [rowOf, deleteRow, latest, same] using ih
      | get => exact ih
      | keys => exact ih

theorem Mirrors.get_audit (mirrors : Mirrors history backend logs)
    (falling : history.Pairwise fun a b => b.1 < a.1) :
    logs.get now key = ((latest key history).filter (!·.isExpired now)).map (·.value) := by
  have only : ((history.filterMap rowOf).filter fun row =>
      decide (row.tenantId = tenantOf key) && decide (row.entityId = key)).head? =
      (history.filterMap rowOf).find? (·.entityId = key) := by
    rw [← List.head?_filter]
    refine congrArg List.head? (List.filter_congr fun row inside => ?_)
    obtain ⟨e, _, made⟩ := List.mem_filterMap.mp inside
    by_cases same : row.entityId = key
    · simp [rowOf_tenantId made, same]
    · simp [same]
  rw [AuditLogs.get, mirrors.findMany falling, only]
  rcases find_rowOf key history with ⟨record, row, found, isRow, action, diff⟩ | ⟨none, deleted⟩
  · have expiry : row.diff.isExpired now = record.isExpired now := by rw [diff]; rfl
    rw [isRow, found]
    dsimp only
    rw [if_neg action, expiry, diff]
    cases expired : record.isExpired now <;> simp [Option.filter, expired]
  · rw [none]
    cases isRow : (history.filterMap rowOf).find? (·.entityId = key) with
    | none => rfl
    | some row => exact if_pos (deleted row isRow)

theorem get_latestByKey {records : List AuditLog} :
    (AuditLogs.latestByKey records).get key = records.find? (·.entityId = key) := by
  have through (m : OrderedMap String AuditLog) :
      (records.foldl (fun latest record =>
        if (latest.get record.entityId).isSome then latest
        else latest.set record.entityId record) m).get key =
      (m.get key).or (records.find? (·.entityId = key)) := by
    induction records generalizing m with
    | nil => simp
    | cons record records ih =>
        rw [List.foldl_cons, ih, List.find?_cons]
        by_cases same : record.entityId = key
        · subst same
          cases found : m.get record.entityId with
          | none => simp [OrderedMap.get_set]
          | some first => simp [found]
        · have kept : (if (m.get record.entityId).isSome then m
              else m.set record.entityId record).get key = m.get key := by
            split
            · rfl
            · rw [OrderedMap.get_set, if_neg (Ne.symm same)]
          simp [kept, same]
  rw [AuditLogs.latestByKey, through]
  rfl

/-- The keys that the audit log lists are those that live, if they are of the pattern's tenant. -/
theorem Mirrors.mem_keys_audit (mirrors : Mirrors history backend logs)
    (falling : history.Pairwise fun a b => b.1 < a.1) {pattern : String} :
    key ∈ logs.keys now pattern ↔ tenantOf key = tenantOf pattern ∧
      ∃ record, latest key history = some record ∧ record.isExpired now = false ∧
        matchesPattern key pattern = true := by
  have only : ((history.filterMap rowOf).filter fun row =>
      decide (row.tenantId = tenantOf pattern) && true).find? (·.entityId = key) =
      if tenantOf key = tenantOf pattern
        then (history.filterMap rowOf).find? (·.entityId = key) else none := by
    rw [List.find?_filter]
    by_cases tenant : tenantOf key = tenantOf pattern
    · rw [if_pos tenant]
      refine List.find?_congr fun row inside => ?_
      obtain ⟨e, _, made⟩ := List.mem_filterMap.mp inside
      by_cases same : row.entityId = key
      · simp [rowOf_tenantId made, same, tenant]
      · simp [same]
    · rw [if_neg tenant, List.find?_eq_none]
      intro row inside
      obtain ⟨e, _, made⟩ := List.mem_filterMap.mp inside
      by_cases same : row.entityId = key
      · simp [rowOf_tenantId made, same, tenant]
      · simp [same]
  have listed : key ∈ logs.keys now pattern ↔ ∃ row,
      (AuditLogs.latestByKey (logs.findMany (tenantOf pattern) fun _ => true)).get key = some row ∧
        row.action ≠ "AGENT_MEMORY_DELETE" ∧ row.diff.isExpired now = false ∧
        matchesPattern key pattern = true := by
    simp only [AuditLogs.keys, List.mem_map, List.mem_filter, Prod.exists,
      OrderedMap.get_eq_some, Bool.and_eq_true, decide_eq_true_eq, Bool.not_eq_true', and_assoc]
    constructor
    · rintro ⟨_, row, inside, action, live, found, rfl⟩
      exact ⟨row, inside, action, live, found⟩
    · rintro ⟨row, inside, action, live, found⟩
      exact ⟨key, row, inside, action, live, found, rfl⟩
  rw [listed, get_latestByKey, mirrors.findMany falling, only]
  by_cases tenant : tenantOf key = tenantOf pattern
  · rw [if_pos tenant]
    refine Iff.trans ?_ (and_iff_right tenant).symm
    rcases find_rowOf key history with
      ⟨record, row, found, isRow, action, diff⟩ | ⟨none, deleted⟩
    · have expiry : row.diff.isExpired now = record.isExpired now := by rw [diff]; rfl
      simp [isRow, found, action, expiry]
    · simp only [none, reduceCtorEq, false_and, exists_false, iff_false]
      rintro ⟨row, isRow, action, _⟩
      exact action (deleted row isRow)
  · simp [tenant]

/-! ## Agreement -/

theorem Mirrors.step (mirrors : Mirrors history backend logs) (o : MemoryOp) :
    Mirrors ((now, o) :: history) (backend.performAt now o).2 (logs.perform now o).2 := by
  have read {key : String} : (backend.records.filter fun e => !e.2.isExpired now).get key =
      if ((latest key history).any (·.isExpired now) || swept key history) = true then none
      else latest key history := by
    rw [OrderedMap.get_filter, mirrors.records]
    cases isSwept : swept key history with
    | true => simp
    | false =>
        cases found : latest key history with
        | none => rfl
        | some record => cases expired : record.isExpired now <;> simp [Option.filter, expired]
  have appended {row : AuditLog} (isMemory : row.isMemory = true) (made : rowOf (now, o) = some row) :
      (logs ++ [row]).filter (·.isMemory) =
        (((now, o) :: history).filterMap rowOf).reverse := by
    rw [List.filter_append, mirrors.rows, List.filterMap_cons, made]
    simp [isMemory]
  have kept (made : rowOf (now, o) = none) :
      logs.filter (·.isMemory) = (((now, o) :: history).filterMap rowOf).reverse := by
    rw [mirrors.rows, List.filterMap_cons, made]
  cases o with
  | set key value ttlSeconds =>
      refine ⟨fun key' => ?_, appended (by simp [setRow, AuditLog.isMemory]) rfl⟩
      show (backend.records.set key { value, expiresAt := expiryOf now ttlSeconds }).get key' = _
      rw [OrderedMap.get_set, mirrors.records, swept, latest]
      by_cases same : key' = key
      · subst same
        simp
      · simp [same, Ne.symm same]
  | get key =>
      exact ⟨fun key' => read, kept rfl⟩
  | del key =>
      refine ⟨fun key' => ?_, appended (by simp [deleteRow, AuditLog.isMemory]) rfl⟩
      show (backend.records.filter fun e => decide (e.1 ≠ key)).get key' = _
      rw [OrderedMap.get_filter, mirrors.records, swept, latest]
      by_cases same : key' = key
      · subst same
        simp
      · have all (found : Option BackendRecord) : found.filter (fun _ => true) = found := by
          cases found <;> rfl
        simp [same, Ne.symm same, all]
  | keys pattern =>
      exact ⟨fun key' => read, kept rfl⟩

theorem tenantOf_latest (ofTenant : ∀ e ∈ history, e.2.OfTenant tenantId)
    (found : latest key history = some record) : tenantOf key = tenantId := by
  induction history with
  | nil => cases found
  | cons e earlier ih =>
      obtain ⟨time, o⟩ := e
      have own := ofTenant _ List.mem_cons_self
      have rest := ih fun e inside => ofTenant e (List.mem_cons_of_mem _ inside)
      cases o with
      | set key' value ttlSeconds =>
          by_cases same : key' = key
          · rw [← same]
            exact own
          · rw [latest, if_neg same] at found
            exact rest found
      | del key' =>
          by_cases same : key' = key
          · simp [latest, same] at found
          · rw [latest, if_neg same] at found
            exact rest found
      | get => exact rest found
      | keys => exact rest found

theorem Mirrors.mem_keys (mirrors : Mirrors history backend logs)
    (later : ∀ e ∈ history, e.1 < now) {pattern : String} :
    key ∈ (backend.performAt now (.keys pattern)).1 ↔
      ∃ record, latest key history = some record ∧ record.isExpired now = false ∧
        matchesPattern key pattern = true := by
  have live := mirrors.get_swept later key
  show key ∈ (({ backend with clock := now } : InMemory).sweepExpired.records.entries.map
    Prod.fst).filter (matchesPattern · pattern) ↔ _
  have inside : key ∈ ({ backend with clock := now } : InMemory).sweepExpired.records.entries.map
      Prod.fst ↔ ∃ record, latest key history = some record ∧ record.isExpired now = false := by
    simp only [List.mem_map, Prod.exists, exists_and_right, exists_eq_right,
      ← OrderedMap.get_eq_some, live, Option.filter_eq_some_iff, Bool.not_eq_true']
  rw [List.mem_filter, inside]
  constructor
  · rintro ⟨⟨record, found, live⟩, matched⟩
    exact ⟨record, found, live, matched⟩
  · rintro ⟨record, found, live, matched⟩
    exact ⟨⟨record, found, live⟩, matched⟩

/-- After a history the backends answer an operation the same if and only if it fits. -/
theorem same_iff (mirrors : Mirrors history backend logs)
    (falling : ((now, o) :: history).Pairwise fun a b => b.1 < a.1)
    (ofTenant : ∀ e ∈ history, e.2.OfTenant tenantId) :
    o.Same (backend.performAt now o).1 (logs.perform now o).1 ↔
      Fits tenantId history (now, o) := by
  obtain ⟨later, ordered⟩ := List.pairwise_cons.mp falling
  cases o with
  | set => exact iff_true_intro trivial
  | get key =>
      refine iff_of_true ?_ trivial
      show (({ backend with clock := now } : InMemory).sweepExpired.records.get key).map _ =
        logs.get now key
      rw [mirrors.get_swept later _, mirrors.get_audit ordered]
  | del key =>
      show (if (backend.records.get key).isSome then 1 else 0) =
        (if (logs.get now key).any (· ≠ "") then 1 else 0) ↔ _
      rw [mirrors.records, mirrors.get_audit ordered, Fits]
      cases found : latest key history with
      | none => simp
      | some record =>
          cases isSwept : swept key history with
          | true => simp [Option.filter, expired_of_swept later isSwept found]
          | false =>
              cases expired : record.isExpired now <;> simp [Option.filter, expired]
  | keys pattern =>
      have both (key : String) : key ∈ (backend.performAt now (.keys pattern)).1 ↔
          ∃ record, latest key history = some record ∧ record.isExpired now = false ∧
            matchesPattern key pattern = true := mirrors.mem_keys later
      have audit (key : String) : key ∈ logs.keys now pattern ↔ tenantOf key = tenantOf pattern ∧
          ∃ record, latest key history = some record ∧ record.isExpired now = false ∧
            matchesPattern key pattern = true := mirrors.mem_keys_audit ordered
      show (∀ key, key ∈ (backend.performAt now (.keys pattern)).1 ↔
        key ∈ logs.keys now pattern) ↔ _
      simp only [both, audit, Fits, iff_and_self, forall_exists_index, and_imp]
      constructor
      · intro agree
        by_cases tenant : tenantOf pattern = tenantId
        · exact .inl tenant
        · refine .inr fun key record found live => ?_
          by_contra matched
          have same := agree key record found live (Bool.eq_true_of_not_eq_false matched)
          exact tenant (same.symm.trans (tenantOf_latest ofTenant found))
      · rintro (tenant | unmatched) key record found live matched
        · rw [tenant]
          exact tenantOf_latest ofTenant found
        · rw [unmatched key record found live] at matched
          cases matched

theorem Mirrors.agree_iff {ops : List Timed} (mirrors : Mirrors history backend logs)
    (falling : (ops.reverse ++ history).Pairwise fun a b => b.1 < a.1)
    (ofTenant : ∀ e ∈ ops.reverse ++ history, e.2.OfTenant tenantId) :
    Agree backend logs ops ↔ ∀ before e after, ops = before ++ e :: after →
      Fits tenantId (before.reverse ++ history) e := by
  induction ops generalizing history backend logs with
  | nil => simp [Agree]
  | cons e rest ih =>
      obtain ⟨now, o⟩ := e
      rw [List.reverse_cons, List.append_assoc, List.singleton_append] at falling ofTenant
      have first := same_iff mirrors (List.pairwise_append.mp falling).2.1
        fun e inside => ofTenant e (by simp [inside])
      rw [Agree, first, ih (mirrors.step o) falling ofTenant]
      constructor
      · rintro ⟨fits, others⟩ before e after same
        cases before with
        | nil =>
            cases same
            exact fits
        | cons b before =>
            cases same
            simpa using others before e after rfl
      · intro all
        refine ⟨all [] (now, o) rest rfl, fun before e after same => ?_⟩
        simpa using all ((now, o) :: before) e after (by rw [same]; rfl)

/-- The two backends answer a sequence of operations the same if and only if each deletes what a
read has swept or what is neither expired nor empty, and lists keys of the tenant or none. -/
theorem backends_agree_iff {ops : List Timed} (rising : ops.Pairwise fun a b => a.1 < b.1)
    (ofTenant : ∀ e ∈ ops, e.2.OfTenant tenantId) (fresh : ∀ row ∈ logs, row.isMemory = false) :
    Agree {} logs ops ↔ ∀ before e after, ops = before ++ e :: after →
      Fits tenantId before.reverse e := by
  have start : Mirrors [] {} logs := by
    refine ⟨fun key => rfl, ?_⟩
    rw [List.filter_eq_nil_iff.mpr fun row inside => by simp [fresh row inside]]
    rfl
  have falling : (ops.reverse ++ []).Pairwise fun (a b : Timed) => b.1 < a.1 := by
    simpa only [List.append_nil, List.pairwise_reverse] using rising
  have ofTenant' : ∀ e ∈ ops.reverse ++ ([] : List Timed), e.2.OfTenant tenantId := by
    simpa only [List.append_nil, List.mem_reverse] using ofTenant
  simpa only [List.append_nil] using start.agree_iff falling ofTenant'

/-- A value that a listing sweeps before it is deleted. -/
theorem shortLife_agree :
    let ops : List Timed := [(0, .set "t:a:k" "v" (some 1)), (500, .get "t:a:k"),
      (1000, .keys "t:a:*"), (1001, .del "t:a:k")]
    Agree {} [] ops ∧ ∀ before e after, ops = before ++ e :: after →
      Fits "t" before.reverse e := by
  intro ops
  let stored := (InMemory.performAt {} 0 (.set "t:a:k" "v" (some 1))).2
  let logs := AuditLogs.set [] 0 "t:a:k" "v" (some 1)
  have value : (stored.performAt 500 (.get "t:a:k")).1 = logs.get 500 "t:a:k" := by
    decide +kernel
  let read := (stored.performAt 500 (.get "t:a:k")).2
  have listed : (read.performAt 1000 (.keys "t:a:*")).1 = logs.keys 1000 "t:a:*" := by
    decide +kernel
  let left := (read.performAt 1000 (.keys "t:a:*")).2
  have count : (left.performAt 1001 (.del "t:a:k")).1 = (logs.del 1001 "t:a:k").1 := by
    decide +kernel
  have agree : Agree {} [] ops :=
    ⟨trivial, value, fun key => iff_of_eq (congrArg (key ∈ ·) listed), count, trivial⟩
  exact ⟨agree, (backends_agree_iff (by decide) (by decide) (by decide)).mp agree⟩

/-- To delete an empty value counts in memory only. -/
theorem emptyValue_disagrees :
    ¬∀ ops : List Timed, ops.Pairwise (fun a b => a.1 < b.1) →
      (∀ e ∈ ops, e.2.OfTenant "t") → Agree {} [] ops := by
  intro claimed
  have agree := claimed [(0, .set "t:a:k" "" none), (1, .del "t:a:k")] (by decide) (by decide)
  have counts : (1 : Nat) = 0 := agree.2.1
  cases counts

end

end Memory
