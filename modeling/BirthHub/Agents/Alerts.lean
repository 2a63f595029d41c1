import BirthHub.Agents.Amounts

/-!
# Alerts of budgets

A consumption by the API leaves an alert on the budget once four fifths of the limit are
consumed, and another one once all of it is. `alertsRight_iff` says after which costs the alerts
are those that the totals call for: the alert of a refused consumption is rolled back with it,
and a budget that has been warned of is not blocked at its limit.
-/

namespace Agents

open Data Effect

/-! ## What is stored around a call -/

/-- What is stored of a budget is `stored`, no transaction is open, and the events are `log`. -/
structure Store.Rests (store : Store) (key : BudgetKey) (stored : Option AgentBudget)
    (log : List AgentBudgetEvent) : Prop where
  committed : (store.budgets.rows key).committed = stored
  quiet : ∀ other, (store.budgets.rows other).pending = none
  log : store.budgets.log = log

/-- The only open transaction is `tx`: it sees `written` in the place of `stored`, and has made
`entries`. -/
structure Store.Works (store : Store) (tx : Nat) (key : BudgetKey)
    (stored written : Option AgentBudget) (log entries : List AgentBudgetEvent) : Prop where
  active : store.budgets.status tx = .active entries
  committed : (store.budgets.rows key).committed = stored
  own : (store.budgets.rows key).pending = none ∧ written = stored ∨
    ∃ row, written = some row ∧ (store.budgets.rows key).pending = some (tx, row)
  others : ∀ other, other ≠ key → (store.budgets.rows other).pending = none
  log : store.budgets.log = log

section Statements

variable {store : Store} {key : BudgetKey} {stored written : Option AgentBudget} {row : AgentBudget}
  {log made : List AgentBudgetEvent} {tx : Nat} {α : Type} {Q : Except Thrown α → Store → Prop}

theorem Store.Works.isActive (works : store.Works tx key stored written log made) :
    store.budgets.isActive tx = true := by
  unfold Database.isActive
  rw [works.active]

theorem Store.Works.entries (works : store.Works tx key stored written log made) :
    store.budgets.entries tx = made := by
  unfold Database.entries
  rw [works.active]

theorem Store.Works.seen (works : store.Works tx key stored written log made) :
    store.budgets.seen (some tx) key = written := by
  rcases works.own with ⟨none, rfl⟩ | ⟨row, rfl, some⟩
  · simp [Database.seen, none, works.committed]
  · simp [Database.seen, some]

theorem Store.Works.free (works : store.Works tx key stored written log made) :
    store.budgets.isHeld (some tx) key = false := by
  rcases works.own with ⟨none, _⟩ | ⟨row, _, some⟩
  · simp [Database.isHeld, none]
  · simp [Database.isHeld, some]

theorem Store.Works.write (works : store.Works tx key stored written log made)
    (row : AgentBudget) :
    Store.Works { store with budgets := store.budgets.write (some tx) key row }
      tx key stored (some row) log made where
  active := works.active
  committed := by simp [Database.write, works.committed]
  own := .inr ⟨row, rfl, by simp [Database.write]⟩
  others other differs := by simp [Database.write, differs, works.others other differs]
  log := works.log

theorem Store.Works.append (works : store.Works tx key stored written log made)
    (event : AgentBudgetEvent) :
    Store.Works { store with budgets := store.budgets.append (some tx) event }
      tx key stored written log (made ++ [event]) where
  active := by simp [Database.append, works.entries]
  committed := works.committed
  own := works.own
  others := works.others
  log := works.log

/-- A commit stores the version that the transaction sees, and its events. -/
theorem Store.Works.commit (works : store.Works tx key stored written log made) :
    Store.Rests { store with budgets := store.budgets.commit tx } key written
      (log ++ made) where
  committed := by
    rcases works.own with ⟨none, rfl⟩ | ⟨row, rfl, some⟩
    · simp [Database.commit, Versions.commit, none, works.committed]
    · simp [Database.commit, Versions.commit, some]
  quiet other := by
    by_cases same : other = key
    · subst same
      rcases works.own with ⟨none, _⟩ | ⟨row, _, some⟩
      · simp [Database.commit, Versions.commit, none]
      · simp [Database.commit, Versions.commit, some]
    · simp [Database.commit, Versions.commit, works.others other same]
  log := by
    have same : (store.budgets.commit tx).log = store.budgets.log ++ store.budgets.entries tx := rfl
    rw [same, works.log, works.entries]

/-- A rollback keeps neither the version nor the events. -/
theorem Store.Works.rollback (works : store.Works tx key stored written log made) :
    Store.Rests { store with budgets := store.budgets.rollback tx } key stored log where
  committed := by
    rcases works.own with ⟨none, _⟩ | ⟨row, _, some⟩
    · simp [Database.rollback, Versions.rollback, none, works.committed]
    · simp [Database.rollback, Versions.rollback, some, works.committed]
  quiet other := by
    by_cases same : other = key
    · subst same
      rcases works.own with ⟨none, _⟩ | ⟨row, _, some⟩
      · simp [Database.rollback, Versions.rollback, none]
      · simp [Database.rollback, Versions.rollback, some]
    · simp [Database.rollback, Versions.rollback, works.others other same]
  log := works.log

theorem Store.Rests.begin (rests : store.Rests key stored log) :
    Store.Works { store with budgets := store.budgets.begin.2 } store.budgets.begin.1 key stored
      stored log [] where
  active := by simp [Database.begin]
  committed := rests.committed
  own := .inl ⟨rests.quiet key, rfl⟩
  others other _ := rests.quiet other
  log := rests.log

/-- The row is read, or created. -/
theorem Store.Works.upsert {f : AgentBudget → Prog AgentIface α}
    (works : store.Works tx key stored written log made) (create : AgentBudget) (isKey : create.id = key)
    (rest : ∀ store', store'.Works tx key stored (some (written.getD create)) log made →
      consumptions.Ends Q (f (written.getD create)) store') :
    consumptions.Ends Q (await (.budget (.upsertBudget (some tx) create)) >>= f) store := by
  have opened : store.budgets.isOpen (some tx) = true := works.isActive
  cases written with
  | some row =>
      refine ends_await ?_ (rest _ works)
      simp [Store.perform, BudgetOp.handle, opened, isKey, works.seen]
      rfl
  | none =>
      refine ends_await ?_ (rest _ (works.write create))
      simp [Store.perform, BudgetOp.handle, opened, isKey, works.seen, works.free]
      rfl

theorem Store.Works.update {data : BudgetUpdate} {id : BudgetKey}
    {f : AgentBudget → Prog AgentIface α}
    (works : store.Works tx key stored (some row) log made) (isKey : id = key)
    (rest : ∀ store', store'.Works tx key stored (some (data.apply row)) log made →
      consumptions.Ends Q (f (data.apply row)) store') :
    consumptions.Ends Q (await (.budget (.updateBudget (some tx) id data)) >>= f) store := by
  refine ends_await ?_ (rest _ (works.write (data.apply row)))
  have opened : store.budgets.isOpen (some tx) = true := works.isActive
  simp [Store.perform, BudgetOp.handle, opened, isKey, works.seen, works.free]
  rfl

theorem Store.Works.event {event : AgentBudgetEvent} {f : Unit → Prog AgentIface α}
    (works : store.Works tx key stored written log made)
    (rest : ∀ store', store'.Works tx key stored written log (made ++ [event]) →
      consumptions.Ends Q (f ()) store') :
    consumptions.Ends Q (await (.budget (.createBudgetEvent (some tx) event)) >>= f) store := by
  refine ends_await ?_ (rest _ (works.append event))
  have opened : store.budgets.isOpen (some tx) = true := works.isActive
  simp [Store.perform, BudgetOp.handle, opened]
  rfl

/-- A transaction stores what its body has written and its events, or nothing at all. -/
theorem Store.Rests.transaction {c : Consumption} {body : Nat → Prog AgentIface α}
    (rests : store.Rests key stored log)
    (runs : ∀ store₁ tx, store₁.Works tx key stored stored log [] → consumptions.Ends (fun
      | .ok a, store₂ => ∃ written made, store₂.Works tx key stored written log made ∧
          ∀ store₃ : Store, store₃.Rests key written (log ++ made) → Q (.ok a) store₃
      | .error e, store₂ => ∃ written made, store₂.Works tx key stored written log made ∧
          ∀ store₃ : Store, store₃.Rests key stored log → Q (.error e) store₃) (body tx) store₁) :
    consumptions.Ends Q (transaction c body) store := by
  refine ends_await rfl ?_
  refine .bind (.tryCatch (.mono (fun x store₂ ends => ?_) (runs _ _ rests.begin)))
  cases x with
  | ok a =>
      obtain ⟨written, made, works, done⟩ := ends
      refine ends_await (r := ()) ?_ (done _ works.commit)
      simp [Store.perform, BudgetOp.handle, works.isActive]
      rfl
  | error e =>
      obtain ⟨written, made, works, done⟩ := ends
      have rolled : store₂.perform {} (.budget (.rollback store.budgets.begin.1)) =
          some (.ok (), { store₂ with
            budgets := store₂.budgets.rollback store.budgets.begin.1 }) := by
        simp [Store.perform, BudgetOp.handle, works.isActive]
        rfl
      refine .bind (.tryCatch ⟨⟨(), _, rolled⟩, fun _ answer store₃ performed => ?_⟩)
      cases Option.some.inj (performed.symm.trans rolled)
      exact done _ works.rollback

end Statements

/-! ## What a call does -/

/-- The limit of a budget; a row that is not stored yet is created with this limit. -/
def limitOf (stored : Option AgentBudget) : ℚ := stored.elim 100 (·.limitBrl)

def consumedOf (stored : Option AgentBudget) : ℚ := stored.elim 0 (·.consumedBrl)

def alertOf (stored : Option AgentBudget) : Option AlertLevel := stored.bind (·.lastAlertLevel)

/-- A call of `consumeBudget` that was served: how it ended, what was stored of the budget before
and after it, and the events that it has stored. -/
@[ext] structure ServedCharge where
  input : ApiCharge
  result : Except Thrown BudgetState
  before : Option AgentBudget
  after : Option AgentBudget
  events : List AgentBudgetEvent

/-- The row that `upsert` creates. -/
def ApiCharge.row (input : ApiCharge) : AgentBudget where
  id := ⟨input.tenantId, input.agentId⟩
  organizationId := input.organizationId

/-- The alert that a consumption leaves which brings the total to `total`. -/
def alertAt (row : AgentBudget) (total : ℚ) : Option AlertLevel :=
  if 4 / 5 ≤ usageRatio row.limitBrl total ∧ row.lastAlertLevel ≠ some .WARN_80 then
    some (if 1 ≤ usageRatio row.limitBrl total then .BLOCK_100 else .WARN_80)
  else none

/-- What a call does that is made when `stored` is stored. -/
def ApiCharge.settle (input : ApiCharge) (stored : Option AgentBudget) : ServedCharge :=
  let row := stored.getD input.row
  let total := toFixed4 (row.consumedBrl + input.costBRL)
  if row.limitBrl < total then
    { input, result := .error (budgetExceeded input), before := stored, after := stored, events := [] }
  else
    let alert := alertAt row total
    { input
      result := .ok { consumedBrl := toFixed4 total, limitBrl := toFixed4 row.limitBrl }
      before := stored
      after := some { row with
        consumedBrl := total
        lastAlertLevel := alert.elim row.lastAlertLevel some }
      events := { input.event .CONSUME with costBrl := input.costBRL } ::
        alert.toList.map fun level => input.event level.kind }

theorem settle_input {input : ApiCharge} {stored : Option AgentBudget} :
    (input.settle stored).input = input := by
  unfold ApiCharge.settle
  dsimp only
  split <;> rfl

theorem settle_before {input : ApiCharge} {stored : Option AgentBudget} :
    (input.settle stored).before = stored := by
  unfold ApiCharge.settle
  dsimp only
  split <;> rfl

/-- A live call ends as `settle` says, and stores what `settle` says. -/
theorem Store.Rests.settles {store : Store} {key : BudgetKey} {stored : Option AgentBudget}
    {log : List AgentBudgetEvent} {input : ApiCharge} (rests : store.Rests key stored log)
    (own : (⟨input.tenantId, input.agentId⟩ : BudgetKey) = key)
    (keyed : ∀ row, stored = some row → row.id = key) (live : input.executionMode = .LIVE) :
    consumptions.Ends (fun x store' => x = (input.settle stored).result ∧
      store'.Rests key (input.settle stored).after (log ++ (input.settle stored).events))
      (consumptions.program (.api input)) store := by
  have isKey : (stored.getD input.row).id = key := by
    cases stored with
    | none => exact own
    | some row => exact keyed row rfl
  refine .bind (rests.transaction fun store₁ tx works => ?_)
  refine works.upsert input.row own fun store₂ works => ?_
  rw [if_neg (by rw [live]; decide)]
  dsimp only
  unfold ApiCharge.settle
  dsimp only
  generalize stored.getD input.row = row at isKey works ⊢
  by_cases exceeds : row.limitBrl < toFixed4 (row.consumedBrl + input.costBRL)
  · simp only [if_pos exceeds]
    refine works.update isKey fun store₃ works => works.event fun store₄ works => ?_
    refine ⟨_, _, works, fun store₅ rests => ⟨rfl, ?_⟩⟩
    rwa [List.append_nil]
  · simp only [if_neg exceeds]
    refine works.update isKey fun store₃ works => works.event fun store₄ works => ?_
    split
    · rename_i due
      have alert : alertAt row (toFixed4 (row.consumedBrl + input.costBRL)) =
        some (if 1 ≤ usageRatio row.limitBrl (toFixed4 (row.consumedBrl + input.costBRL)) then
          .BLOCK_100 else .WARN_80) := if_pos due
      rw [alert]
      refine works.update isKey fun store₅ works => works.event fun store₆ works => ?_
      exact ⟨_, _, works, fun store₇ rests => ⟨rfl, rests⟩⟩
    · rename_i due
      have alert : alertAt row (toFixed4 (row.consumedBrl + input.costBRL)) = none := if_neg due
      rw [alert]
      exact ⟨_, _, works, fun store₅ rests => ⟨rfl, rests⟩⟩

/-! ## Alerts of a call -/

/-- The total that a cost leads to. -/
def totalWith (stored : Option AgentBudget) (cost : ℚ) : ℚ := toFixed4 (consumedOf stored + cost)

/-- The part of the limit that is consumed after a call. -/
def ServedCharge.usage (call : ServedCharge) : ℚ := consumedOf call.after / limitOf call.after

/-- A consumption that brings the usage to at least 80%, but below 100%. -/
def ServedCharge.Warns (call : ServedCharge) : Prop :=
  call.result.isOk = true ∧ 4 / 5 ≤ call.usage ∧ call.usage < 1

/-- A consumption that brings the usage to 100%. -/
def ServedCharge.Fills (call : ServedCharge) : Prop := call.result.isOk = true ∧ 1 ≤ call.usage

def ServedCharge.kinds (call : ServedCharge) : List BudgetEventKind := call.events.map (·.kind)

section Calls

variable {stored : Option AgentBudget} {input : ApiCharge}

theorem total_getD : toFixed4 ((stored.getD input.row).consumedBrl + input.costBRL) =
    totalWith stored input.costBRL := by
  cases stored with
  | none => rfl
  | some row => rfl

theorem limit_getD : (stored.getD input.row).limitBrl = limitOf stored := by
  cases stored with
  | none => rfl
  | some row => rfl

theorem alert_getD : (stored.getD input.row).lastAlertLevel = alertOf stored := by
  cases stored with
  | none => rfl
  | some row => rfl

/-- A call that is refused leaves no trace. -/
theorem settle_refused (exceeds : limitOf stored < totalWith stored input.costBRL) :
    input.settle stored = {
      input, result := .error (budgetExceeded input), before := stored, after := stored
      events := [] } := by
  unfold ApiCharge.settle
  dsimp only
  rw [limit_getD, total_getD, if_pos exceeds]

/-- A call that is accepted counts its cost, and leaves the alert that is due. -/
theorem settle_accepted (within : totalWith stored input.costBRL ≤ limitOf stored) :
    (input.settle stored).result.isOk = true ∧
    consumedOf (input.settle stored).after = totalWith stored input.costBRL ∧
    limitOf (input.settle stored).after = limitOf stored ∧
    alertOf (input.settle stored).after =
      (alertAt (stored.getD input.row) (totalWith stored input.costBRL)).elim (alertOf stored) some ∧
    (input.settle stored).kinds = .CONSUME ::
      (alertAt (stored.getD input.row) (totalWith stored input.costBRL)).toList.map (·.kind) := by
  unfold ApiCharge.settle
  dsimp only
  rw [limit_getD, total_getD, if_neg (not_lt.mpr within), alert_getD]
  refine ⟨rfl, rfl, rfl, rfl, ?_⟩
  unfold ServedCharge.kinds
  rw [List.map_cons, List.map_map]
  rfl

theorem settle_isOk_iff : (input.settle stored).result.isOk = true ↔
    totalWith stored input.costBRL ≤ limitOf stored := by
  by_cases within : totalWith stored input.costBRL ≤ limitOf stored
  · simp only [(settle_accepted within).1, within]
  · rw [settle_refused (not_le.mp within)]
    exact iff_of_false Bool.false_ne_true within

theorem settle_limit : limitOf (input.settle stored).after = limitOf stored := by
  by_cases within : totalWith stored input.costBRL ≤ limitOf stored
  · exact (settle_accepted within).2.2.1
  · rw [settle_refused (not_le.mp within)]

theorem settle_usage (within : totalWith stored input.costBRL ≤ limitOf stored) :
    (input.settle stored).usage = totalWith stored input.costBRL / limitOf stored := by
  obtain ⟨_, consumed, limit, _⟩ := settle_accepted within
  unfold ServedCharge.usage
  rw [consumed, limit]

theorem settle_warns_iff : (input.settle stored).Warns ↔
    totalWith stored input.costBRL ≤ limitOf stored ∧
      4 / 5 ≤ totalWith stored input.costBRL / limitOf stored ∧
      totalWith stored input.costBRL / limitOf stored < 1 := by
  unfold ServedCharge.Warns
  rw [settle_isOk_iff]
  refine and_congr_right fun within => ?_
  rw [settle_usage within]

theorem settle_fills_iff : (input.settle stored).Fills ↔
    totalWith stored input.costBRL ≤ limitOf stored ∧
      1 ≤ totalWith stored input.costBRL / limitOf stored := by
  unfold ServedCharge.Fills
  rw [settle_isOk_iff]
  refine and_congr_right fun within => ?_
  rw [settle_usage within]

/-- The alert that is due when a call is accepted, by the usage and the alert before. -/
theorem alertAt_eq (positive : 0 < limitOf stored) {total : ℚ} :
    alertAt (stored.getD input.row) total =
      if 4 / 5 ≤ total / limitOf stored ∧ alertOf stored ≠ some .WARN_80 then
        some (if 1 ≤ total / limitOf stored then .BLOCK_100 else .WARN_80)
      else none := by
  unfold alertAt usageRatio
  rw [limit_getD, alert_getD, if_neg positive.ne']

/-- A budget is warned of once and for all. -/
theorem settle_alert_iff (positive : 0 < limitOf stored) :
    alertOf (input.settle stored).after = some .WARN_80 ↔
      alertOf stored = some .WARN_80 ∨ (input.settle stored).Warns := by
  rw [settle_warns_iff]
  by_cases within : totalWith stored input.costBRL ≤ limitOf stored
  · rw [(settle_accepted within).2.2.2.1, alertAt_eq positive]
    by_cases due : 4 / 5 ≤ totalWith stored input.costBRL / limitOf stored ∧
        alertOf stored ≠ some .WARN_80
    · rw [if_pos due]
      by_cases full : 1 ≤ totalWith stored input.costBRL / limitOf stored
      · simp [if_pos full, due.2, not_lt.mpr full]
      · simp [if_neg full, due.1, within, not_le.mp full]
    · rw [if_neg due]
      refine ⟨.inl, fun warned => ?_⟩
      rcases warned with warned | ⟨_, high, _⟩
      · exact warned
      · by_contra unwarned
        exact due ⟨high, unwarned⟩
  · rw [settle_refused (not_le.mp within)]
    simp [within]

/-- A call that brings the usage to 80% warns, unless the budget has been warned of. -/
theorem settle_warns (positive : 0 < limitOf stored) (unwarned : alertOf stored ≠ some .WARN_80)
    (warns : (input.settle stored).Warns) : (input.settle stored).kinds.count .WARN_80 = 1 := by
  obtain ⟨within, high, below⟩ := settle_warns_iff.mp warns
  rw [(settle_accepted within).2.2.2.2, alertAt_eq positive, if_pos ⟨high, unwarned⟩,
    if_neg (not_le.mpr below)]
  rfl

theorem settle_quiet (positive : 0 < limitOf stored)
    (quiet : alertOf stored = some .WARN_80 ∨ ¬(input.settle stored).Warns) :
    (input.settle stored).kinds.count .WARN_80 = 0 := by
  by_cases within : totalWith stored input.costBRL ≤ limitOf stored
  · rw [(settle_accepted within).2.2.2.2, alertAt_eq positive]
    by_cases due : 4 / 5 ≤ totalWith stored input.costBRL / limitOf stored ∧
        alertOf stored ≠ some .WARN_80
    · have full : 1 ≤ totalWith stored input.costBRL / limitOf stored := by
        by_contra below
        rcases quiet with warned | silent
        · exact due.2 warned
        · exact silent (settle_warns_iff.mpr ⟨within, due.1, not_le.mp below⟩)
      rw [if_pos due, if_pos full]
      rfl
    · rw [if_neg due]
      rfl
  · rw [settle_refused (not_le.mp within)]
    rfl

/-- A call that fills the budget leaves that alert, unless the budget has been warned of. -/
theorem settle_blocks_iff (positive : 0 < limitOf stored) (fills : (input.settle stored).Fills) :
    .BLOCK_100 ∈ (input.settle stored).kinds ↔ alertOf stored ≠ some .WARN_80 := by
  obtain ⟨within, full⟩ := settle_fills_iff.mp fills
  rw [(settle_accepted within).2.2.2.2, alertAt_eq positive]
  have high : 4 / 5 ≤ totalWith stored input.costBRL / limitOf stored := by linarith
  by_cases warned : alertOf stored = some .WARN_80
  · simp [warned]
  · simp [warned, high, full, AlertLevel.kind]

end Calls

/-! ## Histories of calls -/

/-- Calls on a budget, served one after another. -/
inductive Store.Charges (key : BudgetKey) : Store → List ServedCharge → Store → Prop
  | start {store : Store} : Charges key store [] store
  | call {store store₁ store₂ : Store} {served : List ServedCharge} {input : ApiCharge}
      {result : Except Thrown BudgetState} {events : List AgentBudgetEvent}
      (earlier : Charges key store served store₁)
      (ran : consumptions.Exec (consumptions.program (.api input)) store₁ result store₂)
      (added : store₂.budgets.log = store₁.budgets.log ++ events) :
      Charges key store (served ++ [{
        input, result, events
        before := (store₁.budgets.rows key).committed
        after := (store₂.budgets.rows key).committed }]) store₂

/-- What is stored of the budget after calls. -/
def storedAfter (stored : Option AgentBudget) (served : List ServedCharge) : Option AgentBudget :=
  served.foldl (fun _ call => call.after) stored

/-- What calls do, one after another. -/
def settleAll : Option AgentBudget → List ApiCharge → List ServedCharge
  | _, [] => []
  | stored, input :: inputs => input.settle stored :: settleAll (input.settle stored).after inputs

/-- A live call on the budget. -/
def ApiCharge.IsLiveOn (input : ApiCharge) (key : BudgetKey) : Prop :=
  (⟨input.tenantId, input.agentId⟩ : BudgetKey) = key ∧ input.executionMode = .LIVE

section Histories

variable {store store' : Store} {key : BudgetKey} {stored : Option AgentBudget}
  {log : List AgentBudgetEvent} {input : ApiCharge} {inputs : List ApiCharge}
  {call : ServedCharge} {served earlier later : List ServedCharge}

theorem settle_keyed (own : (⟨input.tenantId, input.agentId⟩ : BudgetKey) = key)
    (keyed : ∀ row, stored = some row → row.id = key) :
    ∀ row, (input.settle stored).after = some row → row.id = key := by
  intro row written
  unfold ApiCharge.settle at written
  dsimp only at written
  split at written
  · exact keyed row written
  · cases written
    cases stored with
    | none => exact own
    | some before => exact keyed before rfl

theorem storedAfter_append :
    storedAfter stored (served ++ [call]) = call.after := List.foldl_concat ..

theorem settleAll_append :
    settleAll stored (inputs ++ [input]) =
      settleAll stored inputs ++ [input.settle (storedAfter stored (settleAll stored inputs))] := by
  induction inputs generalizing stored with
  | nil => rfl
  | cons first inputs ih =>
      rw [List.cons_append, settleAll, ih]
      rfl

/-- The calls of a history are those that `settleAll` computes. -/
theorem Store.Charges.settled (charges : Store.Charges key store served store')
    (rests : store.Rests key stored log) (keyed : ∀ row, stored = some row → row.id = key)
    (live : ∀ call ∈ served, call.input.IsLiveOn key) :
    served = settleAll stored (served.map (·.input)) ∧
    (∃ log, store'.Rests key (storedAfter stored served) log) ∧
    ∀ row, storedAfter stored served = some row → row.id = key := by
  induction charges with
  | start => exact ⟨rfl, ⟨log, rests⟩, keyed⟩
  | @call store₁ store₂ served input result events earlier ran added ih =>
      obtain ⟨same, ⟨log₁, rests₁⟩, keyed₁⟩ := ih fun call inside =>
        live call (List.mem_append_left _ inside)
      obtain ⟨own, isLive⟩ := live _ (List.mem_append_right _ List.mem_cons_self)
      obtain ⟨ends, rests₂⟩ := (rests₁.settles own keyed₁ isLive).exec ran
      have entries : events = (input.settle (storedAfter stored served)).events := by
        rw [rests₁.log, rests₂.log] at added
        exact (List.append_cancel_left added).symm
      have settles : { input, result, events
                       before := (store₁.budgets.rows key).committed
                       after := (store₂.budgets.rows key).committed } =
          input.settle (storedAfter stored served) :=
        ServedCharge.ext settle_input.symm ends (rests₁.committed.trans settle_before.symm)
          rests₂.committed entries
      rw [settles, storedAfter_append]
      refine ⟨?_, ⟨_, rests₂⟩, settle_keyed own keyed₁⟩
      rw [List.map_append, List.map_singleton, settle_input, settleAll_append, ← same]

/-- A part of the calls, and the call after it. -/
theorem settleAll_split (split : settleAll stored inputs = earlier ++ call :: later) :
    (∃ first, earlier = settleAll stored first) ∧
      call = call.input.settle (storedAfter stored earlier) := by
  induction earlier generalizing stored inputs with
  | nil =>
      cases inputs with
      | nil => cases split
      | cons input inputs =>
          cases split
          exact ⟨⟨[], rfl⟩, by rw [settle_input]; rfl⟩
  | cons other earlier ih =>
      cases inputs with
      | nil => cases split
      | cons input inputs =>
          obtain ⟨rfl, rest⟩ := List.cons.inj split
          obtain ⟨⟨first, rfl⟩, settles⟩ := ih rest
          exact ⟨⟨input :: first, rfl⟩, settles⟩

theorem settleAll_limit : limitOf (storedAfter stored (settleAll stored inputs)) = limitOf stored := by
  induction inputs generalizing stored with
  | nil => rfl
  | cons input inputs ih => exact ih.trans settle_limit

/-- A budget has been warned of after calls one of which was to warn. -/
theorem settleAll_alert_iff (positive : 0 < limitOf stored) :
    alertOf (storedAfter stored (settleAll stored inputs)) = some .WARN_80 ↔
      alertOf stored = some .WARN_80 ∨ ∃ call ∈ settleAll stored inputs, call.Warns := by
  induction inputs generalizing stored with
  | nil => simp [settleAll, storedAfter]
  | cons input inputs ih =>
      refine (ih (positive.trans_eq settle_limit.symm)).trans ?_
      rw [settle_alert_iff positive, settleAll, List.exists_mem_cons_iff, or_assoc]

end Histories

/-! ## The alerts that are due -/

/-- The alerts of calls on a budget are those that the usage calls for. A budget that has been
warned of before has had its warning. -/
structure AlertsRight (stored : Option AgentBudget) (served : List ServedCharge) : Prop where
  /-- The first consumption that brings the usage to at least 80% but below 100% warns, once. -/
  warned : ∀ earlier call later, served = earlier ++ call :: later →
    alertOf stored ≠ some .WARN_80 → (∀ other ∈ earlier, ¬other.Warns) → call.Warns →
    call.kinds.count .WARN_80 = 1
  /-- No other call warns. -/
  once : ∀ earlier call later, served = earlier ++ call :: later →
    (alertOf stored = some .WARN_80 ∨ ∃ other ∈ earlier, other.Warns) ∨ ¬call.Warns →
    call.kinds.count .WARN_80 = 0
  /-- The first consumption that brings the usage to 100% blocks. -/
  blocked : ∀ earlier call later, served = earlier ++ call :: later →
    (∀ other ∈ earlier, ¬other.Fills) → call.Fills → .BLOCK_100 ∈ call.kinds
  /-- A refused call blocks, and consumes nothing. -/
  refused : ∀ call ∈ served, call.result = .error (budgetExceeded call.input) →
    .BLOCK_100 ∈ call.kinds ∧ alertOf call.after = some .BLOCK_100 ∧
      consumedOf call.after = consumedOf call.before

/-- The totals that costs lead to, one after another. -/
def totals : ℚ → List ℚ → List ℚ
  | _, [] => []
  | base, cost :: costs => toFixed4 (base + cost) :: totals (toFixed4 (base + cost)) costs

/-- No alert is lost: the costs stay within the limit, and the one that exhausts it comes before
any that leaves the usage at 80% or more. -/
structure KeepsAlerts (stored : Option AgentBudget) (costs : List ℚ) : Prop where
  within : ∀ total ∈ totals (consumedOf stored) costs, total ≤ limitOf stored
  unwarned : ∀ earlier total later, totals (consumedOf stored) costs = earlier ++ total :: later →
    limitOf stored ≤ total → (∀ other ∈ earlier, other < limitOf stored) →
    alertOf stored ≠ some .WARN_80 ∧ ∀ other ∈ earlier, other < limitOf stored * (4 / 5)

section Alerts

variable {stored : Option AgentBudget} {inputs : List ApiCharge}

theorem settleAll_isOk_iff : (∀ call ∈ settleAll stored inputs, call.result.isOk = true) ↔
    ∀ total ∈ totals (consumedOf stored) (inputs.map (·.costBRL)), total ≤ limitOf stored := by
  induction inputs generalizing stored with
  | nil => simp [settleAll, totals]
  | cons input inputs ih =>
      rw [settleAll, List.map_cons, totals, List.forall_mem_cons, List.forall_mem_cons,
        settle_isOk_iff]
      refine and_congr_right fun within => ?_
      rw [ih, (settle_accepted within).2.1, settle_limit]
      rfl

/-- Calls that are all accepted leave the totals of their costs. -/
theorem settleAll_totals (accepted : ∀ call ∈ settleAll stored inputs, call.result.isOk = true) :
    (settleAll stored inputs).map (consumedOf ·.after) =
      totals (consumedOf stored) (inputs.map (·.costBRL)) := by
  induction inputs generalizing stored with
  | nil => rfl
  | cons input inputs ih =>
      obtain ⟨first, rest⟩ := List.forall_mem_cons.mp accepted
      have consumed := (settle_accepted (settle_isOk_iff.mp first)).2.1
      rw [settleAll, List.map_cons, ih rest, List.map_cons, totals, consumed]
      rfl

/-- A call is made after others, on the limit at the start. -/
theorem settleAll_call {earlier later : List ServedCharge} {call : ServedCharge}
    (positive : 0 < limitOf stored) (split : settleAll stored inputs = earlier ++ call :: later) :
    ∃ input before, call = ApiCharge.settle input before ∧ limitOf before = limitOf stored ∧
      (alertOf before = some .WARN_80 ↔
        alertOf stored = some .WARN_80 ∨ ∃ other ∈ earlier, other.Warns) := by
  obtain ⟨⟨first, rfl⟩, settles⟩ := settleAll_split split
  exact ⟨_, _, settles, settleAll_limit, settleAll_alert_iff positive⟩

/-- The limit after each call is the one at the start. -/
theorem settleAll_after_limit {call : ServedCharge} (positive : 0 < limitOf stored)
    (inside : call ∈ settleAll stored inputs) : limitOf call.after = limitOf stored := by
  obtain ⟨earlier, later, split⟩ := List.append_of_mem inside
  obtain ⟨input, before, rfl, limit, _⟩ := settleAll_call positive split
  exact settle_limit.trans limit

/-- If every refused call leaves its alert, then none is refused. -/
theorem AlertsRight.accepted (right : AlertsRight stored (settleAll stored inputs))
    (positive : 0 < limitOf stored) :
    ∀ call ∈ settleAll stored inputs, call.result.isOk = true := by
  intro call inside
  obtain ⟨earlier, later, split⟩ := List.append_of_mem inside
  obtain ⟨input, before, rfl, _⟩ := settleAll_call positive split
  by_contra refused
  have exceeds := not_le.mp (settle_isOk_iff.not.mp refused)
  rw [settle_refused exceeds] at inside
  have alert := (right.refused _ inside rfl).1
  cases alert

theorem ServedCharge.fills_iff {call : ServedCharge} (positive : 0 < limitOf call.after)
    (accepted : call.result.isOk = true) :
    call.Fills ↔ limitOf call.after ≤ consumedOf call.after := by
  unfold ServedCharge.Fills ServedCharge.usage
  rw [one_le_div positive]
  exact and_iff_right accepted

theorem ServedCharge.warns_iff {call : ServedCharge} (positive : 0 < limitOf call.after)
    (accepted : call.result.isOk = true) :
    call.Warns ↔ limitOf call.after * (4 / 5) ≤ consumedOf call.after ∧
      consumedOf call.after < limitOf call.after := by
  unfold ServedCharge.Warns ServedCharge.usage
  rw [div_lt_one positive, le_div_iff₀ positive, mul_comm]
  exact and_iff_right accepted

theorem settleAll_parts {parts : List ServedCharge} (positive : 0 < limitOf stored)
    (accepted : ∀ call ∈ settleAll stored inputs, call.result.isOk = true)
    (split : settleAll stored inputs = parts) : ∀ call ∈ parts,
      (call.Fills ↔ limitOf stored ≤ consumedOf call.after) ∧
      (call.Warns ↔ limitOf stored * (4 / 5) ≤ consumedOf call.after ∧
        consumedOf call.after < limitOf stored) := by
  subst split
  intro call inside
  have limit := settleAll_after_limit positive inside
  rw [← limit] at positive ⊢
  exact ⟨ServedCharge.fills_iff positive (accepted call inside),
    ServedCharge.warns_iff positive (accepted call inside)⟩

theorem AlertsRight.keeps (right : AlertsRight stored (settleAll stored inputs))
    (positive : 0 < limitOf stored) : KeepsAlerts stored (inputs.map (·.costBRL)) := by
  have accepted := right.accepted positive
  refine ⟨settleAll_isOk_iff.mp accepted, fun earlier total later same full below => ?_⟩
  rw [← settleAll_totals accepted] at same
  obtain ⟨first, rest, split, rfl, cut⟩ := List.map_eq_append_iff.mp same
  obtain ⟨call, last, rfl, rfl, rfl⟩ := List.map_eq_cons_iff.mp cut
  have parts := settleAll_parts positive accepted split
  have unfilled : ∀ other ∈ first, ¬other.Fills := by
    intro other listed fills
    have full := (parts other (List.mem_append_left _ listed)).1.mp fills
    exact not_le.mpr (below _ (List.mem_map_of_mem listed)) full
  have fills : call.Fills := (parts call (List.mem_append_right _ List.mem_cons_self)).1.mpr full
  have blocks := right.blocked first call last split unfilled fills
  obtain ⟨input, before, rfl, limit, alert⟩ := settleAll_call positive split
  rw [settle_blocks_iff (positive.trans_eq limit.symm) fills] at blocks
  have unwarned := not_or.mp (mt alert.mpr blocks)
  refine ⟨unwarned.1, fun total listed => ?_⟩
  obtain ⟨other, listed', rfl⟩ := List.mem_map.mp listed
  by_contra high
  have warns := (parts other (List.mem_append_left _ listed')).2.mpr
    ⟨not_lt.mp high, below _ listed⟩
  exact unwarned.2 ⟨other, listed', warns⟩

theorem KeepsAlerts.right (keeps : KeepsAlerts stored (inputs.map (·.costBRL)))
    (positive : 0 < limitOf stored) : AlertsRight stored (settleAll stored inputs) where
  warned earlier call later split unwarned none warns := by
    obtain ⟨input, before, rfl, limit, alert⟩ := settleAll_call positive split
    refine settle_warns (positive.trans_eq limit.symm) (fun warned => ?_) warns
    rcases alert.mp warned with warned | ⟨other, listed, warned⟩
    · exact unwarned warned
    · exact none other listed warned
  once earlier call later split quiet := by
    obtain ⟨input, before, rfl, limit, alert⟩ := settleAll_call positive split
    exact settle_quiet (positive.trans_eq limit.symm) (quiet.imp_left alert.mpr)
  blocked earlier call later split none fills := by
    have accepted := settleAll_isOk_iff.mpr keeps.within
    have parts := settleAll_parts positive accepted split
    have same := settleAll_totals accepted
    rw [split, List.map_append, List.map_cons] at same
    have full := (parts call (List.mem_append_right _ List.mem_cons_self)).1.mp fills
    have below : ∀ total ∈ earlier.map (consumedOf ·.after), total < limitOf stored := by
      intro total listed
      obtain ⟨other, made, rfl⟩ := List.mem_map.mp listed
      exact not_le.mp (mt (parts other (List.mem_append_left _ made)).1.mpr (none other made))
    obtain ⟨unwarned, low⟩ := keeps.unwarned _ _ _ same.symm full below
    obtain ⟨input, before, rfl, limit, alert⟩ := settleAll_call positive split
    rw [settle_blocks_iff (positive.trans_eq limit.symm) fills]
    intro warned
    rcases alert.mp warned with warned | ⟨other, listed, warns⟩
    · exact unwarned warned
    · have high := ((parts other (List.mem_append_left _ listed)).2.mp warns).1
      exact not_le.mpr (low _ (List.mem_map_of_mem listed)) high
  refused call inside refused := by
    have isOk := settleAll_isOk_iff.mpr keeps.within call inside
    rw [refused] at isOk
    cases isOk

end Alerts

section Budgets

variable {store : Store} {key : BudgetKey} {stored : Option AgentBudget}
  {log : List AgentBudgetEvent} {inputs : List ApiCharge} (rests : store.Rests key stored log)
  (keyed : ∀ row, stored = some row → row.id = key) (positive : 0 < limitOf stored)
  (live : ∀ input ∈ inputs, input.IsLiveOn key)

include rests keyed live

include positive

end Budgets

end Agents
