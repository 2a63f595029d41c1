import BirthHub.Effect.Counting
import BirthHub.Effect.Moves
import BirthHub.Effect.Stamped
import BirthHub.Quota.Model

/-!
# A shared quota is not exceeded

A call reads the row of its tenant that resets last, and counts itself on that row by a
later statement, which does not look at the limit. The row stays within its limit when a
call finds room on it only while the calls that found room before, and have not counted
themselves yet, leave some. Which row a call finds does not depend on that: rows are made
for the month of the clock, so the latest is that of the month, if there is one.
-/

namespace Quota

open Data Effect Workflow

/-! ## The property -/

/-- A world of quotas, with the store at the time of each event. -/
abbrev QuotaWorld (β : Type) := World QuotaIface QuotaTask (Store × List Store) β

abbrev QuotaState := QuotaWorld (Prog QuotaIface QuotaResponse)

abbrev stampedQuotas : System QuotaIface QuotaTask (Store × List Store) QuotaResponse :=
  quotas.stamped id

/-- The event is that a call has counted itself on the row. -/
def Charges (id : String) : Event QuotaIface → Bool
  | ⟨_, .runner (.incrementQuota id'), .ok _⟩ => decide (id' = id)
  | _ => false

/-- How many calls have succeeded against the row. -/
def charges (id : String) (trace : List (Event QuotaIface)) : Nat := trace.countP (Charges id)

/-- Call `i` found the row with the id, and it was that of the month, if there was one. -/
def FoundInMonth (log : List (Store × Event QuotaIface)) (i : Nat) (id : String) : Prop :=
  ∃ store tenantId, ∃ row : Workflow.QuotaUsage,
    (store, ⟨i, .runner (.findQuota tenantId), .ok (some row)⟩) ∈ log ∧ row.id = id ∧
      ∀ current ∈ store.quotas.rows, current.IsFor tenantId →
        current.period = currentMonthlyPeriod store.clock → current.id = id

structure Kept (w : QuotaState) : Prop where
  within : ∀ row ∈ w.store.1.quotas.rows, row.count ≤ row.limit
  counted : ∀ row ∈ w.store.1.quotas.rows, row.count = charges row.id w.trace
  monthly : ∀ {i id}, ⟨i, .runner (.incrementQuota id), .ok ()⟩ ∈ w.trace →
    FoundInMonth w.log i id

/-! ## The condition -/

/-- The operation that a call awaits. -/
def QuotaState.awaited (w : QuotaState) (i : Nat) : Option QuotaOp :=
  (w.threads[i]?).bind fun t => t.body.pending

/-- Whether a program is about to count itself on the row. -/
def IsCharging (id : String) (p : Prog QuotaIface QuotaResponse) : Bool :=
  match p.pending with
  | some (.runner (.incrementQuota id')) => decide (id' = id)
  | _ => false

/-- How many calls have found room on the row and have not counted themselves yet. -/
def QuotaState.charging (w : QuotaState) (id : String) : Nat :=
  w.threads.countP fun t => IsCharging id t.body

/-- A call finds room on a row only while the calls that found room before leave some, and
no call is counted without being told. -/
def Roomy (w : QuotaState) : Act Choice QuotaEvent → Prop
  | .env _ => True
  | .run i choice =>
      (∀ tenantId row, w.awaited i = some (.runner (.findQuota tenantId)) →
        w.store.1.latest tenantId = some row → row.count < row.limit →
        row.count + w.charging row.id < row.limit) ∧
      ∀ id, w.awaited i = some (.runner (.incrementQuota id)) → ∀ fault ∈ choice.fault,
        fault.lost = false

/-- The rows were made for months up to that of the clock, and no call has been counted. -/
def Store.Unused (store : Store) : Prop :=
  ∀ row ∈ store.quotas.rows, row.count = 0 ∧ 0 ≤ row.limit ∧ ∃ reference : Nat,
    reference ≤ store.clock ∧ row.period = currentMonthlyPeriod reference ∧
      row.resetAt = nextMonthlyReset reference

/-- No task has been started. -/
def start {β : Type} (store : Store) : QuotaWorld β := ⟨(store, []), [], []⟩

/-! ## The stages of a task -/

inductive Stage
  | asking (tenantId : String)
  /-- There was room on the row. -/
  | charging (id : String)
  | done
  | resetting (reference : Nat)

namespace Stage

inductive Move : QuotaTask → Stage → (o : QuotaOp) → QuotaIface.Answer o → Stage → Prop
  | unread {tag : QuotaTask} {tenantId : String} {e : Thrown} :
      Move tag (.asking tenantId) (.runner (.findQuota tenantId)) (.error e) .done
  | unlimited {tag : QuotaTask} {tenantId : String} :
      Move tag (.asking tenantId) (.runner (.findQuota tenantId)) (.ok none) .done
  | full {tag : QuotaTask} {tenantId : String} {row : Workflow.QuotaUsage}
      (full : row.limit ≤ row.count) :
      Move tag (.asking tenantId) (.runner (.findQuota tenantId)) (.ok (some row)) .done
  | room {tag : QuotaTask} {tenantId : String} {row : Workflow.QuotaUsage}
      (room : row.count < row.limit) :
      Move tag (.asking tenantId) (.runner (.findQuota tenantId)) (.ok (some row))
        (.charging row.id)
  | charge {tag : QuotaTask} {id : String} {answer : QuotaIface.Answer (.runner (.incrementQuota id))} :
      Move tag (.charging id) (.runner (.incrementQuota id)) answer .done
  | list {tag : QuotaTask} {reference : Nat} {answer : QuotaIface.Answer .findOrganizations} :
      Move tag (.resetting reference) .findOrganizations answer (.resetting reference)
  | ensure {tag : QuotaTask} {reference : Nat} {tenantId : String}
      {resourceType : QuotaResourceType}
      {answer : QuotaIface.Answer (.upsertQuota (newQuota reference tenantId resourceType))} :
      Move tag (.resetting reference) (.upsertQuota (newQuota reference tenantId resourceType))
        answer (.resetting reference)

def start : QuotaTask → Stage
  | .consume tenantId => .asking tenantId
  | .reset reference => .resetting reference

/-- Whether a task at this stage is about to count itself on the row. -/
def isCharging (id : String) : Stage → Bool
  | .charging id' => decide (id' = id)
  | _ => false

/-- A call that has found room does not end before it has counted itself. -/
def ends (_ : QuotaTask) (_ : Except Thrown QuotaResponse) (s : Stage) : Prop :=
  ∀ id, s.isCharging id = false

end Stage

theorem upsertAll_follows {tag : QuotaTask} {reference : Nat} (creates : List NewQuota)
    (each : ∀ create ∈ creates, ∃ tenantId resourceType,
      create = newQuota reference tenantId resourceType) :
    (upsertAll creates).Follows (Stage.Move tag) (fun _ s => s = .resetting reference)
      (.resetting reference) := by
  induction creates with
  | nil => exact rfl
  | cons create rest ih =>
      obtain ⟨tenantId, resourceType, rfl⟩ := each create List.mem_cons_self
      exact Prog.Follows.performBind
        (fun _ => ⟨_, .ensure, ih fun other inside => each other (List.mem_cons_of_mem _ inside)⟩)
        fun _ => ⟨_, .ensure, rfl⟩

/-- A call counts itself on the row. -/
def chargeRow (id : String) : Prog QuotaIface QuotaResponse :=
  .op (.runner (.incrementQuota id)) fun
    | .ok _ => .pure .consumed
    | .error e => .throw e

/-- What a call does about the row it has found. -/
def checkRow : Option Workflow.QuotaUsage → Prog QuotaIface QuotaResponse
  | none => .pure .consumed
  | some row =>
      if row.limit ≤ row.count then .throw (error "SHARED_RATE_LIMIT_EXCEEDED")
      else chargeRow row.id

theorem serve_consume (tenantId : String) :
    serve (.consume tenantId) = .op (.runner (.findQuota tenantId)) fun
      | .ok record => checkRow record
      | .error e => .throw e := by
  refine congrArg (Prog.op (I := QuotaIface) (.runner (.findQuota tenantId)))
    (funext fun answer => ?_)
  rcases answer with e | _ | row
  · rfl
  · rfl
  · by_cases full : row.limit ≤ row.count
    · have stop : checkRow (some row) = .throw (error "SHARED_RATE_LIMIT_EXCEEDED") := if_pos full
      have stops : (if row.count ≥ row.limit then .throw (error "SHARED_RATE_LIMIT_EXCEEDED")
          else Workflow.await (.incrementQuota row.id) : Prog RunnerIface Unit) =
            .throw (error "SHARED_RATE_LIMIT_EXCEEDED") := if_pos full
      dsimp only
      rw [stop]
      exact congrArg (fun p : Prog RunnerIface Unit =>
        (p.embed runnerOps).bind fun _ => .pure QuotaResponse.consumed) stops
    · have goes : (if row.count ≥ row.limit then .throw (error "SHARED_RATE_LIMIT_EXCEEDED")
          else Workflow.await (.incrementQuota row.id) : Prog RunnerIface Unit) =
            Workflow.await (.incrementQuota row.id) := if_neg full
      have same := congrArg (fun p : Prog RunnerIface Unit =>
        (p.embed runnerOps).bind fun _ => .pure QuotaResponse.consumed) goes
      have charge : checkRow (some row) = chargeRow row.id := if_neg full
      refine same.trans (Eq.trans ?_ charge.symm)
      refine congrArg (Prog.op (I := QuotaIface) (.runner (.incrementQuota row.id)))
        (funext fun answer => ?_)
      cases answer <;> rfl

theorem serve_follows (tag : QuotaTask) :
    (serve tag).Follows (Stage.Move tag) (Stage.ends tag) (Stage.start tag) := by
  cases tag with
  | consume tenantId =>
      rw [serve_consume]
      intro answer
      rcases answer with e | _ | row
      · exact ⟨_, .unread, fun _ => rfl⟩
      · exact ⟨_, .unlimited, fun _ => rfl⟩
      · dsimp only [checkRow]
        split
        · rename_i full
          exact ⟨_, .full full, fun _ => rfl⟩
        · rename_i room
          refine ⟨_, .room (not_le.mp room), fun answer => ⟨_, .charge, ?_⟩⟩
          cases answer <;> exact fun _ => rfl
  | reset reference =>
      have job : (quotaResetJob reference).Follows (Stage.Move (.reset reference))
          (fun _ s => s = .resetting reference) (.resetting reference) := by
        refine Prog.Follows.performBind (fun organizations => ⟨_, .list, ?_⟩)
          fun _ => ⟨_, .list, rfl⟩
        refine Prog.Follows.bind (Prog.Follows.mono (fun x s same => ?_)
          (upsertAll_follows _ fun create inside => ?_))
        · cases x <;> exact same
        · obtain ⟨tenantId, -, inside⟩ := List.mem_flatMap.mp inside
          obtain ⟨resourceType, -, rfl⟩ := List.mem_map.mp inside
          exact ⟨tenantId, resourceType, rfl⟩
      refine Prog.Follows.bind (Prog.Follows.mono (fun x s same => ?_) job)
      rw [same]
      cases x <;> exact fun _ => rfl

/-- The stages of the tasks of the system. -/
def taskStages : Discipline QuotaIface QuotaTask QuotaResponse :=
  movesDiscipline stampedQuotas Stage.start Stage.Move Stage.ends

theorem taskStages_starts (tag : QuotaTask) :
    (stampedQuotas.program tag).Follows (taskStages.step tag) (taskStages.ends tag)
      (taskStages.start tag) :=
  (serve_follows tag).marked

/-! ## The invariant -/

abbrev StagedThread := Thread QuotaTask (Marked Stage)

/-- How many calls are about to count themselves on the row. -/
def staged (a : QuotaWorld (Marked Stage)) (id : String) : Nat :=
  a.threads.countP fun t => t.body.stage.isCharging id

/-- The row was made for a month up to that of the clock. -/
def QuotaUsage.MadeBy (clock : Nat) (row : QuotaUsage) : Prop :=
  ∃ reference : Nat, reference ≤ clock ∧ row.period = currentMonthlyPeriod reference ∧
    row.resetAt = nextMonthlyReset reference

structure Metered (a : QuotaWorld (Marked Stage)) : Prop where
  made : ∀ row ∈ a.store.1.quotas.rows, row.MadeBy a.store.1.clock
  references : ∀ {i : Nat} {u : StagedThread} {reference : Nat}, a.threads[i]? = some u →
    u.body.stage = .resetting reference → reference ≤ a.store.1.clock
  /-- There is room for the calls that have found some. -/
  room : ∀ row ∈ a.store.1.quotas.rows, row.count + staged a row.id ≤ row.limit
  counted : ∀ row ∈ a.store.1.quotas.rows, row.count = charges row.id a.trace
  known : ∀ {i id}, ⟨i, .runner (.incrementQuota id), .ok ()⟩ ∈ a.trace →
    (∃ row ∈ a.store.1.quotas.rows, row.id = id) ∧ FoundInMonth a.log i id
  charging : ∀ {i : Nat} {u : StagedThread} {id : String}, a.threads[i]? = some u →
    u.body.stage = .charging id →
    (∃ row ∈ a.store.1.quotas.rows, row.id = id) ∧ FoundInMonth a.log i id

/-! ## Months -/

/-- Rows that are made for one month reset together, and a later one resets later. -/
theorem period_of_resetAt {clock : Nat} {row current : QuotaUsage} (made : row.MadeBy clock)
    (made' : current.MadeBy clock) (now : current.period = currentMonthlyPeriod clock)
    (latest : current.resetAt ≤ row.resetAt) : row.period = current.period := by
  obtain ⟨reference, before, period, resetAt⟩ := made
  obtain ⟨reference', before', period', resetAt'⟩ := made'
  have month := monthOf_of_period (period'.symm.trans now)
  have bound := Date.monthOf_mono (Int.ofNat_le.mpr before)
  rw [resetAt, resetAt'] at latest
  have order := monthOf_le_of_reset latest
  rw [period, period']
  exact period_of_monthOf (by omega)

/-- The row of the month is found, if there is one. -/
theorem latest_inMonth {store : Store} {tenantId : String} {row current : QuotaUsage}
    (made : ∀ row ∈ store.quotas.rows, row.MadeBy store.clock)
    (found : store.latest tenantId = some row) (inside : current ∈ store.quotas.rows)
    (own : current.IsFor tenantId) (now : current.period = currentMonthlyPeriod store.clock) :
    current = row := by
  obtain ⟨there, own', last⟩ := Store.latest_eq_some found
  have period := period_of_resetAt (made row there) (made current inside) now
    (last current inside own)
  refine Table.eq_of_keys inside there (List.mem_cons_of_mem _ List.mem_cons_self :
    QuotaKey.period current.tenantId current.resourceType current.period ∈ Schema.keys current) ?_
  rw [own.1, own.2, ← own'.1, ← own'.2, ← period]
  exact List.mem_cons_of_mem _ List.mem_cons_self

/-! ## What one step keeps -/

section Steps

variable {w : QuotaState} {a : QuotaWorld (Marked Stage)} {i : Nat} {u : StagedThread}
  {b : Marked Stage} {o : QuotaOp} {answer : QuotaIface.Answer o} {store : Store} {id : String}

theorem FoundInMonth.later {log : List (Store × Event QuotaIface)} {e : Store × Event QuotaIface}
    (found : FoundInMonth log i id) : FoundInMonth (e :: log) i id := by
  obtain ⟨store, tenantId, row, inside, same, current⟩ := found
  exact ⟨store, tenantId, row, List.mem_cons_of_mem e inside, same, current⟩

theorem charges_quiet {e : Event QuotaIface} {trace : List (Event QuotaIface)}
    (quiet : Charges id e = false) : charges id (e :: trace) = charges id trace :=
  List.countP_cons_of_neg (by simp [quiet])

/-- A call that is counted is counted on the row of its statement. -/
theorem charges_iff {e : Event QuotaIface} :
    Charges id e = true ↔ ∃ i, e = ⟨i, .runner (.incrementQuota id), .ok ()⟩ := by
  unfold Charges
  split
  · rename_i i id' answer
    simp only [decide_eq_true_eq]
    constructor
    · rintro rfl
      exact ⟨i, rfl⟩
    · rintro ⟨j, same⟩
      cases same
      rfl
  · rename_i other
    refine ⟨nofun, ?_⟩
    rintro ⟨j, rfl⟩
    exact (other j id () rfl).elim

/-- A step of a call that reads only, or is refused, keeps the invariant. -/
theorem Metered.keep (inv : Metered a) (there : a.threads[i]? = some u)
    (quiet : ∀ id, Charges id ⟨i, o, answer⟩ = false)
    (fewer : ∀ id, b.stage = .charging id → u.body.stage = .charging id)
    (resets : ∀ reference, b.stage = .resetting reference → u.body.stage = .resetting reference) :
    Metered (a.advance i b (a.store.1, a.store.1 :: a.store.2) ⟨i, o, answer⟩) := by
  constructor
  case made => exact inv.made
  case references =>
    intro j v reference there' stage
    rcases World.advance_cases there there' with ⟨rfl, rfl⟩ | ⟨_, before⟩
    · exact inv.references there (resets reference stage)
    · exact inv.references before stage
  case room =>
    intro row inside
    have count := @World.countP_advance _ _ _ _ (fun s : Marked Stage => s.stage.isCharging row.id)
      a i u b (a.store.1, a.store.1 :: a.store.2) ⟨i, o, answer⟩ there
    have room := inv.room row inside
    have less : b.stage.isCharging row.id = true → u.body.stage.isCharging row.id = true := by
      intro charging
      cases stage : b.stage with
      | charging id =>
          rw [fewer id stage, ← stage]
          exact charging
      | _ =>
          rw [stage] at charging
          cases charging
    have fewer' : (if b.stage.isCharging row.id then 1 else 0) ≤
        if u.body.stage.isCharging row.id then 1 else 0 := by
      split
      · rw [if_pos (less ‹_›)]
      · exact Nat.zero_le _
    dsimp only [staged] at room ⊢
    omega
  case counted =>
    intro row inside
    rw [World.advance_trace, charges_quiet (quiet row.id)]
    exact inv.counted row inside
  case known =>
    intro j id inside
    rcases List.mem_cons.mp inside with same | before
    · have counted := charges_iff.mpr ⟨j, same.symm⟩
      rw [quiet id] at counted
      cases counted
    · obtain ⟨row, found⟩ := inv.known before
      exact ⟨row, found.later⟩
  case charging =>
    intro j v id there' stage
    rcases World.advance_cases there there' with ⟨rfl, rfl⟩ | ⟨_, before⟩
    · obtain ⟨row, found⟩ := inv.charging there (fewer id stage)
      exact ⟨row, found.later⟩
    · obtain ⟨row, found⟩ := inv.charging before stage
      exact ⟨row, found.later⟩

theorem isCharging_charging : Stage.isCharging id (.charging id) = true := decide_eq_true rfl

theorem isCharging_other {id' : String} (other : id' ≠ id) :
    Stage.isCharging id (.charging id') = false := decide_eq_false other

/-- A call that finds room where there is some for it keeps the invariant. -/
theorem Metered.findRoom (inv : Metered a) (there : a.threads[i]? = some u)
    (asking : ∀ id, u.body.stage.isCharging id = false) {tenantId : String} {row : QuotaUsage}
    (found : a.store.1.latest tenantId = some row)
    (roomy : row.count + staged a row.id < row.limit) (charging : b.stage = .charging row.id) :
    Metered (a.advance i b (a.store.1, a.store.1 :: a.store.2)
      ⟨i, .runner (.findQuota tenantId), .ok (some row.toQuotaUsage)⟩) := by
  obtain ⟨inside, _, _⟩ := Store.latest_eq_some found
  have inMonth : FoundInMonth ((a.store.1, ⟨i, .runner (.findQuota tenantId),
      .ok (some row.toQuotaUsage)⟩) :: a.log) i row.id :=
    ⟨a.store.1, tenantId, row.toQuotaUsage, List.mem_cons_self, rfl, fun current there own now => by
      rw [latest_inMonth inv.made found there own now]⟩
  constructor
  case made => exact inv.made
  case references =>
    intro j v reference there' stage
    rcases World.advance_cases there there' with ⟨rfl, rfl⟩ | ⟨_, before⟩
    · cases charging.symm.trans stage
    · exact inv.references before stage
  case room =>
    intro other inside'
    have count := @World.countP_advance _ _ _ _ (fun s : Marked Stage => s.stage.isCharging other.id)
      a i u b (a.store.1, a.store.1 :: a.store.2) ⟨i, .runner (.findQuota tenantId),
        .ok (some row.toQuotaUsage)⟩ there
    have room := inv.room other inside'
    simp only [asking, charging, Bool.false_eq_true, if_false] at count
    dsimp only [staged] at room roomy ⊢
    by_cases own : row.id = other.id
    · have same : other = row := Table.eq_of_keys inside' inside
        (List.mem_cons_self : QuotaKey.id other.id ∈ Schema.keys other)
        (own ▸ (List.mem_cons_self : QuotaKey.id row.id ∈ Schema.keys row))
      subst same
      rw [isCharging_charging, if_pos rfl] at count
      omega
    · rw [isCharging_other own, if_neg Bool.false_ne_true] at count
      omega
  case counted => exact fun other inside' => inv.counted other inside'
  case known =>
    intro j id inside'
    rcases List.mem_cons.mp inside' with same | before
    · cases same
    · obtain ⟨row, found⟩ := inv.known before
      exact ⟨row, found.later⟩
  case charging =>
    intro j v id there' stage
    rcases World.advance_cases there there' with ⟨rfl, rfl⟩ | ⟨_, before⟩
    · cases charging.symm.trans stage
      exact ⟨⟨row, inside, rfl⟩, inMonth⟩
    · obtain ⟨row, found⟩ := inv.charging before stage
      exact ⟨row, found.later⟩

/-- A row that is counted up has the id of the row before. -/
theorem increment_id {store : Store} {row : QuotaUsage}
    (inside : row ∈ (store.increment id).quotas.rows) :
    ∃ before ∈ store.quotas.rows, before.id = row.id ∧ before.limit = row.limit ∧
      before.period = row.period ∧ before.resetAt = row.resetAt ∧
      row.count = before.count + if row.id = id then 1 else 0 := by
  obtain ⟨before, there, rfl⟩ := Store.mem_increment.mp inside
  refine ⟨before, there, ?_⟩
  split
  · rename_i own
    simp [own]
  · simp

theorem mem_increment_id {store : Store} {row : QuotaUsage} (inside : row ∈ store.quotas.rows) :
    ∃ after ∈ (store.increment id).quotas.rows, after.id = row.id := by
  refine ⟨_, Store.mem_increment.mpr ⟨row, inside, rfl⟩, ?_⟩
  split <;> rfl

/-- A call that counts itself keeps the invariant. -/
theorem Metered.charge (inv : Metered a) (there : a.threads[i]? = some u)
    (charging : u.body.stage = .charging id) (done : b.stage = .done) :
    Metered (a.advance i b (a.store.1.increment id, a.store.1 :: a.store.2)
      ⟨i, .runner (.incrementQuota id), .ok ()⟩) := by
  have kept {id' : String} (known : ∃ row ∈ a.store.1.quotas.rows, row.id = id') :
      ∃ row ∈ (a.store.1.increment id).quotas.rows, row.id = id' := by
    obtain ⟨row, inside, same⟩ := known
    obtain ⟨after, inside', same'⟩ := @mem_increment_id id _ _ inside
    exact ⟨after, inside', same'.trans same⟩
  constructor
  case made =>
    intro row inside
    obtain ⟨before, inside', _, _, period, resetAt, _⟩ := increment_id inside
    obtain ⟨reference, bound, period', resetAt'⟩ := inv.made before inside'
    exact ⟨reference, bound, period.symm.trans period', resetAt.symm.trans resetAt'⟩
  case references =>
    intro j v reference there' stage
    rcases World.advance_cases there there' with ⟨rfl, rfl⟩ | ⟨_, before⟩
    · cases done.symm.trans stage
    · exact inv.references before stage
  case room =>
    intro row inside
    obtain ⟨before, inside', own, limit, _, _, count⟩ := increment_id inside
    have room := inv.room before inside'
    have staged' := @World.countP_advance _ _ _ _
      (fun s : Marked Stage => s.stage.isCharging row.id) a i u b
      (a.store.1.increment id, a.store.1 :: a.store.2) ⟨i, .runner (.incrementQuota id), .ok ()⟩ there
    rw [own, limit] at room
    have at' : u.body.stage.isCharging row.id = decide (id = row.id) := by rw [charging]; rfl
    have left : b.stage.isCharging row.id = false := by rw [done]; rfl
    simp only [at', left, Bool.false_eq_true, if_false, decide_eq_true_eq] at staged'
    dsimp only [staged] at room ⊢
    by_cases same : row.id = id
    · rw [if_pos same] at count
      rw [if_pos same.symm] at staged'
      omega
    · rw [if_neg same] at count
      rw [if_neg (Ne.symm same)] at staged'
      omega
  case counted =>
    intro row inside
    obtain ⟨before, inside', own, _, _, _, count⟩ := increment_id inside
    have counted := inv.counted before inside'
    rw [own] at counted
    rw [World.advance_trace, charges, List.countP_cons, ← charges, count, counted]
    simp [Charges, eq_comm]
  case known =>
    intro j id' inside
    rcases List.mem_cons.mp inside with same | before
    · cases same
      obtain ⟨row, found⟩ := inv.charging there charging
      exact ⟨kept row, found.later⟩
    · obtain ⟨row, found⟩ := inv.known before
      exact ⟨kept row, found.later⟩
  case charging =>
    intro j v id' there' stage
    rcases World.advance_cases there there' with ⟨rfl, rfl⟩ | ⟨_, before⟩
    · cases done.symm.trans stage
    · obtain ⟨row, found⟩ := inv.charging before stage
      exact ⟨kept row, found.later⟩

/-- A row that is made for the month keeps the invariant. -/
theorem Metered.append (inv : Metered a) (there : a.threads[i]? = some u) {reference : Nat}
    (resetting : u.body.stage = .resetting reference) (stays : b.stage = .resetting reference)
    {tenantId : String} {resourceType : QuotaResourceType} {quotas : Table QuotaUsage}
    {answer : QuotaIface.Answer (.upsertQuota (newQuota reference tenantId resourceType))}
    (rows : quotas.rows = a.store.1.quotas.rows ++ [(newQuota reference tenantId resourceType).row id])
    (fresh : ∀ row ∈ a.store.1.quotas.rows, row.id ≠ id) :
    Metered (a.advance i b ({ a.store.1 with quotas }, a.store.1 :: a.store.2)
      ⟨i, .upsertQuota (newQuota reference tenantId resourceType), answer⟩) := by
  have bound := inv.references there resetting
  have kept {id' : String} (known : ∃ row ∈ a.store.1.quotas.rows, row.id = id') :
      ∃ row ∈ quotas.rows, row.id = id' := by
    obtain ⟨row, inside, same⟩ := known
    exact ⟨row, rows ▸ List.mem_append_left _ inside, same⟩
  -- the new id is known to no call
  have unknown : charges id a.trace = 0 := by
    refine List.countP_eq_zero.mpr fun e inside counted => ?_
    obtain ⟨j, rfl⟩ := charges_iff.mp counted
    obtain ⟨⟨row, there', same⟩, _⟩ := inv.known inside
    exact fresh row there' same
  have unstaged : staged a id = 0 := by
    refine List.countP_eq_zero.mpr fun t inside counted => ?_
    obtain ⟨j, found⟩ := List.getElem?_of_mem inside
    have charging : t.body.stage = .charging id := by
      cases stage : t.body.stage with
      | charging id' =>
          rw [stage] at counted
          rw [of_decide_eq_true counted]
      | _ =>
          rw [stage] at counted
          cases counted
    obtain ⟨⟨row, there', same⟩, _⟩ := inv.charging found charging
    exact fresh row there' same
  have unchanged (id' : String) : staged (a.advance i b ({ a.store.1 with quotas },
      a.store.1 :: a.store.2) ⟨i, .upsertQuota (newQuota reference tenantId resourceType), answer⟩)
        id' = staged a id' := by
    have count := @World.countP_advance _ _ _ _ (fun s : Marked Stage => s.stage.isCharging id')
      a i u b ({ a.store.1 with quotas }, a.store.1 :: a.store.2)
      ⟨i, .upsertQuota (newQuota reference tenantId resourceType), answer⟩ there
    have before : u.body.stage.isCharging id' = false := by rw [resetting]; rfl
    have after : b.stage.isCharging id' = false := by rw [stays]; rfl
    simp only [before, after] at count
    exact count
  constructor
  case made =>
    intro row inside
    rcases List.mem_append.mp (rows ▸ inside) with old | new
    · exact inv.made row old
    · rw [List.mem_singleton.mp new]
      exact ⟨reference, bound, rfl, rfl⟩
  case references =>
    intro j v reference' there' stage
    rcases World.advance_cases there there' with ⟨rfl, rfl⟩ | ⟨_, before⟩
    · cases stays.symm.trans stage
      exact bound
    · exact inv.references before stage
  case room =>
    intro row inside
    rw [unchanged]
    rcases List.mem_append.mp (rows ▸ inside) with old | new
    · exact inv.room row old
    · rw [List.mem_singleton.mp new]
      have limit : 0 ≤ defaultLimits resourceType := by cases resourceType <;> decide
      simpa [NewQuota.row, newQuota, unstaged] using limit
  case counted =>
    intro row inside
    rw [World.advance_trace, charges_quiet rfl]
    rcases List.mem_append.mp (rows ▸ inside) with old | new
    · exact inv.counted row old
    · rw [List.mem_singleton.mp new]
      simp [NewQuota.row, unknown]
  case known =>
    intro j id' inside
    rcases List.mem_cons.mp inside with same | before
    · cases same
    · obtain ⟨row, found⟩ := inv.known before
      exact ⟨kept row, found.later⟩
  case charging =>
    intro j v id' there' stage
    rcases World.advance_cases there there' with ⟨rfl, rfl⟩ | ⟨_, before⟩
    · cases stays.symm.trans stage
    · obtain ⟨row, found⟩ := inv.charging before stage
      exact ⟨kept row, found.later⟩

/-- No more calls are at the stage than await the statement. -/
theorem staged_le (refines : taskStages.Refines w a) : staged a id ≤ w.charging id := by
  refine countP_le_of_places refines.length fun {j u t} there found charging => ?_
  obtain ⟨_, _, follows⟩ := refines.follows found there
  have stage : u.body.stage = .charging id := by
    cases stage : u.body.stage with
    | charging id' =>
        rw [stage] at charging
        rw [of_decide_eq_true charging]
    | _ =>
        rw [stage] at charging
        cases charging
  rcases t with ⟨tag, body, settled⟩
  cases body with
  | pure response =>
      have ended := follows.2 id
      rw [charging] at ended
      cases ended
  | throw e =>
      have ended := follows.2 id
      rw [charging] at ended
      cases ended
  | op o k =>
      obtain ⟨b, ⟨_, move⟩, _⟩ := follows (.error (error ""))
      rw [stage] at move
      generalize b.stage = s' at move
      cases move
      exact decide_eq_true rfl

section Step

variable {choice : Choice} {t : Thread QuotaTask (Prog QuotaIface QuotaResponse)}
  {k : QuotaIface.Answer o → Prog QuotaIface QuotaResponse} {store : Store × List Store}

/-- An operation keeps the invariant. -/
theorem Metered.run (inv : Metered a) (refines : taskStages.Refines w a)
    (roomy : Roomy w (.run i choice)) (found : w.threads[i]? = some t) (pending : t.body = .op o k)
    (there : a.threads[i]? = some u)
    (answered : stampedQuotas.handle o choice a.store = some (answer, store))
    (step : taskStages.step u.tag u.body o answer b) :
    Metered (a.advance i b store ⟨i, o, answer⟩) := by
  obtain ⟨_, move⟩ := step
  have awaited : w.awaited i = some o := by
    rw [QuotaState.awaited, found, Option.bind_some, pending, Prog.pending_op]
  obtain ⟨after, handled, rfl⟩ := System.stamped_handle answered
  generalize stage : u.body.stage = s at move
  generalize stage' : b.stage = s' at move
  cases move with
  | unread | unlimited | full =>
      obtain ⟨rfl, _⟩ := Store.handle_findQuota handled
      exact inv.keep there (fun _ => rfl) (fun _ same => nomatch stage'.symm.trans same)
        fun _ same => nomatch stage'.symm.trans same
  | @room tenantId row room =>
      obtain ⟨rfl, same⟩ := Store.handle_findQuota handled
      obtain ⟨row', latest, rfl⟩ := Option.map_eq_some_iff.mp (same _ rfl).symm
      have left := roomy.1 tenantId row' awaited (refines.store ▸ latest) room
      refine inv.findRoom there (fun _ => by rw [stage]; rfl) latest ?_ stage'
      have bound := @staged_le w a row'.id refines
      omega
  | @charge id =>
      rcases Store.handle_incrementQuota handled (roomy.2 id awaited) with
        ⟨rfl, rfl, _⟩ | ⟨rfl, e, rfl⟩
      · exact inv.charge there stage stage'
      · exact inv.keep there (fun _ => rfl) (fun _ same => nomatch stage'.symm.trans same)
          fun _ same => nomatch stage'.symm.trans same
  | list =>
      have unchanged : after = a.store.1 := Store.handle_findOrganizations handled
      subst unchanged
      exact inv.keep there (fun _ => rfl) (fun _ same => nomatch stage'.symm.trans same)
        fun _ same => by rw [stage, ← stage', same]
  | ensure =>
      rcases Store.handle_upsertQuota handled with rfl | ⟨quotas, id, rfl, rows, fresh⟩
      · exact inv.keep there (fun _ => rfl) (fun _ same => nomatch stage'.symm.trans same)
          fun _ same => by rw [stage, ← stage', same]
      · exact inv.append there stage stage' rows fresh

end Step

/-- A task that starts, and time that passes, keep the invariant. -/
theorem Metered.env {event : QuotaEvent} {c : Change QuotaTask (Store × List Store)}
    {threads : List (Thread QuotaTask Outcome)} (inv : Metered a)
    (change : stampedQuotas.env event a.store threads = some c) {begin : QuotaTask → Marked Stage}
    (begins : ∀ tag, (begin tag).stage = Stage.start tag) : Metered (a.change begin c) := by
  have spawns : c.settle = none ∧ c.store.1.quotas = a.store.1.quotas ∧ c.store.2 = a.store.2 ∧
      a.store.1.clock ≤ c.store.1.clock ∧
      ∀ reference, .reset reference ∈ c.spawn → reference = a.store.1.clock := by
    cases event with
    | consume tenantId =>
        cases change
        exact ⟨rfl, rfl, rfl, le_rfl, fun _ inside => by simp at inside⟩
    | reset =>
        cases change
        exact ⟨rfl, rfl, rfl, le_rfl, fun _ inside => by simpa using inside⟩
    | tick ms =>
        cases change
        exact ⟨rfl, rfl, rfl, Nat.le_add_right _ _, nofun⟩
  obtain ⟨unsettled, rows, stamps, later, references⟩ := spawns
  have log : (a.change begin c).log = a.log := by
    rw [World.log, World.change_store, World.change_trace, stamps, World.log]
  have count (id : String) : staged (a.change begin c) id = staged a id :=
    @World.countP_change _ _ _ _ (fun s : Marked Stage => s.stage.isCharging id) a _ c unsettled
      fun tag => by rw [begins]; cases tag <;> rfl
  constructor
  case made =>
    intro row inside
    rw [World.change_store, rows] at inside
    obtain ⟨reference, bound, period, resetAt⟩ := inv.made row inside
    exact ⟨reference, Nat.le_trans bound later, period, resetAt⟩
  case references =>
    intro j v reference there' stage
    rcases World.change_cases there' with ⟨v', before, rfl⟩ | ⟨tag, _, spawned, rfl⟩
    · exact Nat.le_trans (inv.references before stage) later
    · rw [begins] at stage
      cases tag with
      | consume => cases stage
      | reset reference' =>
          cases stage
          rw [references _ (List.mem_of_getElem? spawned)]
          exact later
  case room =>
    intro row inside
    rw [World.change_store, rows] at inside
    rw [count]
    exact inv.room row inside
  case counted =>
    intro row inside
    rw [World.change_store, rows] at inside
    exact inv.counted row inside
  case known =>
    intro j id inside
    rw [log, World.change_store, rows]
    exact inv.known inside
  case charging =>
    intro j v id there' stage
    rw [log, World.change_store, rows]
    rcases World.change_cases there' with ⟨v', before, rfl⟩ | ⟨tag, _, _, rfl⟩
    · exact inv.charging before stage
    · rw [begins] at stage
      cases tag <;> cases stage

theorem refines_start {store : Store} : taskStages.Refines (start store) (start store) where
  store := rfl
  trace := rfl
  length := rfl
  follows found := nomatch found

theorem Metered.start {store : Store} (unused : store.Unused) : Metered (start store) where
  made row inside := (unused row inside).2.2
  references found := nomatch found
  room row inside := by
    obtain ⟨count, limit, _⟩ := unused row inside
    rw [count]
    exact (Int.add_zero 0).symm ▸ limit
  counted row inside := (unused row inside).1
  known inside := nomatch inside
  charging found := nomatch found

/-- When calls find room only where there is some for them, the rows stay within their limits
and count the calls that succeeded. -/
theorem kept_of_roomy {store : Store} (unused : store.Unused)
    (reached : stampedQuotas.Run Roomy (start store) w) : Kept w := by
  obtain ⟨a, refines, inv⟩ : ∃ a, taskStages.Refines w a ∧ Metered a :=
    System.Run.invariant taskStages_starts
      (fun inv refines roomy found pending there answered step =>
        inv.run refines roomy found pending there answered step)
      (fun inv _ _ change => inv.env change fun _ => rfl) refines_start (.start unused) reached
  have log : a.log = w.log := by rw [World.log, World.log, refines.store, refines.trace]
  constructor
  · intro row inside
    have room := inv.room row (refines.store ▸ inside)
    omega
  · intro row inside
    rw [← refines.trace]
    exact inv.counted row (refines.store ▸ inside)
  · intro i id inside
    rw [← log]
    exact (inv.known (refines.trace ▸ inside)).2

end Steps

/-! ### Two calls that find the last prompt of a month -/

/-- No operation fails. -/
def Faultless (_ : QuotaState) : Act Choice QuotaEvent → Prop
  | .env _ => True
  | .run _ choice => choice.fault = none

def faultless (_ : QuotaState) : Act Choice QuotaEvent → Bool
  | .env _ => true
  | .run _ choice => choice.fault.isNone

theorem faultless_sound (w : QuotaState) (act : Act Choice QuotaEvent)
    (passes : faultless w act = true) : Faultless w act := by
  cases act with
  | env => trivial
  | run i choice => exact Option.isNone_iff_eq_none.mp passes

/-- A tenant with one quota of prompts, for the month of the clock. -/
def promptStore (limit : Int) : Store where
  organizations := ["tenant-a"]
  quotas := ⟨[({ newQuota 0 "tenant-a" .AI_PROMPTS with limit }).row "quota-1"],
    List.pairwise_singleton _ _⟩

theorem promptStore_unused {limit : Int} (bound : 0 ≤ limit) : (promptStore limit).Unused := by
  intro row inside
  rw [List.mem_singleton.mp inside]
  exact ⟨rfl, bound, 0, le_rfl, rfl, rfl⟩

def consumes : Act Choice QuotaEvent := .env (.consume "tenant-a")

def goesOn (i : Nat) : Act Choice QuotaEvent := .run i {}

/-- Both calls are counted on a row whose limit is one. -/
theorem crossedCalls_not_kept : ∃ store : Store, store.Unused ∧
    ∃ w, stampedQuotas.Run Faultless (start store) w ∧ ¬ Kept w := by
  have evaluated : (stampedQuotas.execute faultless (start (promptStore 1))
      [consumes, consumes, goesOn 0, goesOn 1, goesOn 0, goesOn 1]).any (fun w =>
        w.store.1.quotas.rows.any fun row => decide (row.limit < row.count)) = true := by
    decide
  obtain ⟨w, ran, exceeds⟩ := System.Run.exists_of_execute faultless_sound evaluated
  obtain ⟨row, inside, above⟩ := List.any_eq_true.mp exceeds
  exact ⟨promptStore 1, promptStore_unused (by decide), w, ran, fun kept =>
    absurd (kept.within row inside) (not_le.mpr (of_decide_eq_true above))⟩

/-- A call that looks for a row finds room for itself, or none at all, and no operation fails. -/
def roomy (w : QuotaState) : Act Choice QuotaEvent → Bool
  | .env _ => true
  | .run i choice => choice.fault.isNone &&
      match w.awaited i with
      | some (.runner (.findQuota tenantId)) =>
          (w.store.1.latest tenantId).all fun row =>
            decide (row.limit ≤ row.count ∨ row.count + (w.charging row.id : Int) < row.limit)
      | _ => true

theorem roomy_sound (w : QuotaState) (act : Act Choice QuotaEvent)
    (passes : roomy w act = true) : Roomy w act := by
  cases act with
  | env => trivial
  | run i choice =>
      obtain ⟨sound, room⟩ := Bool.and_eq_true_iff.mp passes
      constructor
      · intro tenantId row awaited latest less
        rw [awaited] at room
        simp only [latest, Option.all_some, decide_eq_true_eq] at room
        omega
      · intro id _ fault failed
        rw [Option.isNone_iff_eq_none.mp sound] at failed
        cases failed

/-- Two calls that find room for both are counted. -/
theorem twoCalls_kept : ∃ w, stampedQuotas.Run Roomy (start (promptStore 2)) w ∧ Kept w ∧
    charges "quota-1" w.trace = 2 := by
  have evaluated : (stampedQuotas.execute roomy (start (promptStore 2))
      [consumes, consumes, goesOn 0, goesOn 1, goesOn 0, goesOn 1]).any (fun w =>
        decide (charges "quota-1" w.trace = 2)) = true := by decide
  obtain ⟨w, ran, counted⟩ := System.Run.exists_of_execute roomy_sound evaluated
  exact ⟨w, ran, kept_of_roomy (promptStore_unused (by decide)) ran, of_decide_eq_true counted⟩

end Quota
