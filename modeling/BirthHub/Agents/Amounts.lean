import BirthHub.Agents.Protocol
import BirthHub.Effect.Total

/-!
# Amounts of the API and of the worker

Both consumptions compute a new total from the row and write it back: the API rounds it to four
decimals, the worker to whole centavos. Served one after another without failures they add up
exactly only as long as the worker meets totals in whole centavos. `amounts_agree_iff` says for
which budgets and costs every order and every way to share the costs out adds up.
-/

namespace Agents

open Data Effect

/-! ## Consumptions without failures -/

/-- Consumptions are served one after another, and no operation fails. -/
def consumptions : System AgentIface Consumption Store BudgetState where
  Choice := Unit
  handle o _ store := store.perform {} o
  program
    | .worker input => chargeExecution input
    | .api input => do
        let record ← Agents.consumeBudget input
        pure { consumedBrl := record.consumed, limitBrl := record.limit }
  Env := Empty
  env event _ _ := event.elim

/-- The row is stored, and no transaction is open on any row. -/
structure Store.Keeps (store : Store) (row : AgentBudget) : Prop where
  committed : (store.budgets.rows row.id).committed = some row
  quiet : ∀ key, (store.budgets.rows key).pending = none

/-- The only open transaction is `tx`, which sees `written` in the place of `row`. -/
structure Store.InTx (store : Store) (tx : Nat) (row written : AgentBudget) : Prop where
  active : store.budgets.isActive tx = true
  committed : (store.budgets.rows row.id).committed = some row
  id : written.id = row.id
  own : (store.budgets.rows row.id).pending = none ∧ written = row ∨
    (store.budgets.rows row.id).pending = some (tx, written)
  others : ∀ key, key ≠ row.id → (store.budgets.rows key).pending = none

section Statements

variable {store : Store} {row written : AgentBudget} {tx : Nat} {α : Type}
  {Q : Except Thrown α → Store → Prop}

theorem ends_await {o : AgentOp} {f : o.Result → Prog AgentIface α} {r : o.Result} {store' : Store}
    (performed : store.perform {} o = some (.ok r, store'))
    (rest : consumptions.Ends Q (f r) store') : consumptions.Ends Q (await o >>= f) store :=
  .performBind ⟨(), performed⟩
    (fun _ _ answered => Option.some.inj (answered.symm.trans performed)) rest

theorem ends_begin {c : Consumption} {f : Nat → Prog AgentIface α} (keeps : store.Keeps row)
    (rest : ∀ store' tx, store'.InTx tx row row → consumptions.Ends Q (f tx) store') :
    consumptions.Ends Q (await (.budget (.begin c)) >>= f) store := by
  refine ends_await rfl (rest _ _ ⟨?_, keeps.committed, rfl, .inl ⟨keeps.quiet _, rfl⟩,
    fun key _ => keeps.quiet key⟩)
  simp [Database.isActive, Database.begin]

/-- The transaction sees what it has written. -/
theorem Store.InTx.seen (inTx : store.InTx tx row written) :
    store.budgets.seen (some tx) row.id = some written := by
  rcases inTx.own with ⟨none, rfl⟩ | some
  · simp [Database.seen, none, inTx.committed]
  · simp [Database.seen, some]

theorem Store.InTx.free (inTx : store.InTx tx row written) :
    store.budgets.isHeld (some tx) row.id = false := by
  rcases inTx.own with ⟨none, _⟩ | some
  · simp [Database.isHeld, none]
  · simp [Database.isHeld, some]

theorem ends_upsert {create : AgentBudget} {f : AgentBudget → Prog AgentIface α}
    (inTx : store.InTx tx row written) (key : create.id = row.id)
    (rest : consumptions.Ends Q (f written) store) :
    consumptions.Ends Q (await (.budget (.upsertBudget (some tx) create)) >>= f) store := by
  refine ends_await ?_ rest
  have opened : store.budgets.isOpen (some tx) = true := inTx.active
  simp [Store.perform, BudgetOp.handle, opened, key, inTx.seen]
  rfl

theorem Store.InTx.write (inTx : store.InTx tx row written) (data : BudgetUpdate) :
    Store.InTx { store with budgets := store.budgets.write (some tx) row.id (data.apply written) }
      tx row (data.apply written) where
  active := inTx.active
  committed := by simp [Database.write, inTx.committed]
  id := inTx.id
  own := .inr (by simp [Database.write])
  others key differs := by simp [Database.write, differs, inTx.others key differs]

theorem ends_update {data : BudgetUpdate} {key : BudgetKey}
    {f : AgentBudget → Prog AgentIface α} (inTx : store.InTx tx row written) (isKey : key = row.id)
    (rest : ∀ store', store'.InTx tx row (data.apply written) →
      consumptions.Ends Q (f (data.apply written)) store') :
    consumptions.Ends Q (await (.budget (.updateBudget (some tx) key data)) >>= f) store := by
  refine ends_await ?_ (rest _ (inTx.write data))
  have opened : store.budgets.isOpen (some tx) = true := inTx.active
  simp [Store.perform, BudgetOp.handle, opened, isKey, inTx.seen, inTx.free]
  rfl

theorem Store.InTx.append (inTx : store.InTx tx row written) (event : AgentBudgetEvent) :
    Store.InTx { store with budgets := store.budgets.append (some tx) event } tx row written where
  active := by simp [Database.append, Database.isActive]
  committed := inTx.committed
  id := inTx.id
  own := inTx.own
  others := inTx.others

theorem ends_event {event : AgentBudgetEvent} {f : Unit → Prog AgentIface α}
    (inTx : store.InTx tx row written)
    (rest : ∀ store', store'.InTx tx row written → consumptions.Ends Q (f ()) store') :
    consumptions.Ends Q (await (.budget (.createBudgetEvent (some tx) event)) >>= f) store := by
  refine ends_await ?_ (rest _ (inTx.append event))
  have opened : store.budgets.isOpen (some tx) = true := inTx.active
  simp [Store.perform, BudgetOp.handle, opened]
  rfl

theorem Store.InTx.commit (inTx : store.InTx tx row written) :
    Store.Keeps { store with budgets := store.budgets.commit tx } written := by
  refine ⟨?_, fun key => ?_⟩
  · rcases inTx.own with ⟨none, rfl⟩ | some
    · simp [Database.commit, Versions.commit, none, inTx.committed]
    · simp [Database.commit, Versions.commit, inTx.id, some]
  · by_cases own : key = row.id
    · subst own
      rcases inTx.own with ⟨none, rfl⟩ | some
      · simp [Database.commit, Versions.commit, none]
      · simp [Database.commit, Versions.commit, some]
    · simp [Database.commit, Versions.commit, inTx.others key own]

theorem Store.InTx.rollback (inTx : store.InTx tx row written) :
    Store.Keeps { store with budgets := store.budgets.rollback tx } row := by
  refine ⟨?_, fun key => ?_⟩
  · rcases inTx.own with ⟨none, rfl⟩ | some
    · simp [Database.rollback, Versions.rollback, none, inTx.committed]
    · simp [Database.rollback, Versions.rollback, some, inTx.committed]
  · by_cases own : key = row.id
    · subst own
      rcases inTx.own with ⟨none, rfl⟩ | some
      · simp [Database.rollback, Versions.rollback, none]
      · simp [Database.rollback, Versions.rollback, some]
    · simp [Database.rollback, Versions.rollback, inTx.others key own]

/-- A transaction commits what its body has written, or leaves the row as it was. -/
theorem ends_transaction {c : Consumption} {body : Nat → Prog AgentIface α} (keeps : store.Keeps row)
    (runs : ∀ store₁ tx, store₁.InTx tx row row → consumptions.Ends (fun
      | .ok a, store₂ => ∃ written, store₂.InTx tx row written ∧
          ∀ store₃ : Store, store₃.Keeps written → Q (.ok a) store₃
      | .error e, store₂ => ∃ written, store₂.InTx tx row written ∧
          ∀ store₃ : Store, store₃.Keeps row → Q (.error e) store₃) (body tx) store₁) :
    consumptions.Ends Q (transaction c body) store := by
  refine ends_begin keeps fun store₁ tx inTx => ?_
  refine .bind (.tryCatch (.mono (fun x store₂ ends => ?_) (runs store₁ tx inTx)))
  cases x with
  | ok a =>
      obtain ⟨written, inTx, done⟩ := ends
      refine ends_await (r := ()) ?_ (done _ inTx.commit)
      simp [Store.perform, BudgetOp.handle, inTx.active]
      rfl
  | error e =>
      obtain ⟨written, inTx, done⟩ := ends
      have rolled : store₂.perform {} (.budget (.rollback tx)) =
          some (.ok (), { store₂ with budgets := store₂.budgets.rollback tx }) := by
        simp [Store.perform, BudgetOp.handle, inTx.active]
        rfl
      refine .bind (.tryCatch ⟨⟨(), _, rolled⟩, fun _ answer store₃ performed => ?_⟩)
      cases Option.some.inj (performed.symm.trans rolled)
      exact done _ inTx.rollback

end Statements

/-! ## What a consumption settles -/

instance (row : AgentBudget) (c : Consumption) : Decidable (c.Accepts row) := by
  cases c with
  | worker input => exact inferInstanceAs (Decidable True)
  | api input =>
      exact inferInstanceAs (Decidable (toFixed4 (row.consumedBrl + input.costBRL) ≤ row.limitBrl))

/-- The row with the total after a consumption, which may be refused. -/
def Consumption.settled (row : AgentBudget) (c : Consumption) : AgentBudget :=
  if c.Accepts row then { row with consumedBrl := c.next row } else row

/-- The cost that a consumption adds. -/
def Consumption.charge (row : AgentBudget) (c : Consumption) : ℚ :=
  if c.Accepts row then c.cost else 0

/-- A stored row has the limit and the total of `row`. -/
def Store.Stands (store : Store) (row : AgentBudget) : Prop :=
  ∃ stored, store.Keeps stored ∧ stored.id = row.id ∧ stored.limitBrl = row.limitBrl ∧
    stored.consumedBrl = row.consumedBrl

/-- A consumption that is not a dry run. -/
def Consumption.IsLive : Consumption → Prop
  | .worker _ => True
  | .api input => input.executionMode = .LIVE

section Settling

variable {store : Store} {row : AgentBudget}

theorem ends_chargeExecution {input : WorkerCharge} {stored : AgentBudget}
    (keeps : store.Keeps stored) (key : (⟨input.tenantId, input.agentId⟩ : BudgetKey) = stored.id) :
    consumptions.Ends (fun x store' => ∃ written, store'.Keeps written ∧ written.id = stored.id ∧
      written.limitBrl = stored.limitBrl ∧
      written.consumedBrl = roundCurrency (stored.consumedBrl + input.costBrl) ∧ ∃ r, x = .ok r)
      (chargeExecution input) store := by
  refine ends_transaction keeps fun store₁ tx inTx => ?_
  refine ends_upsert inTx key (ends_update inTx rfl fun store₂ inTx => ?_)
  refine ends_event inTx fun store₃ inTx => ?_
  cases nextAlertLevel stored (roundCurrency (stored.consumedBrl + input.costBrl)) with
  | none => exact ⟨_, inTx, fun store₄ keeps => ⟨_, keeps, rfl, rfl, rfl, _, rfl⟩⟩
  | some level =>
      refine ends_event inTx fun store₄ inTx => ?_
      exact ⟨_, inTx, fun store₅ keeps => ⟨_, keeps, rfl, rfl, rfl, _, rfl⟩⟩

theorem ends_consumeBudget {input : ApiCharge} {stored : AgentBudget} (keeps : store.Keeps stored)
    (key : (⟨input.tenantId, input.agentId⟩ : BudgetKey) = stored.id)
    (live : input.executionMode = .LIVE) :
    consumptions.Ends (fun x store' => ∃ written, store'.Keeps written ∧ written.id = stored.id ∧
      written.limitBrl = stored.limitBrl ∧
      (toFixed4 (stored.consumedBrl + input.costBRL) ≤ stored.limitBrl ∧
        written.consumedBrl = toFixed4 (stored.consumedBrl + input.costBRL) ∧ (∃ r, x = .ok r) ∨
      stored.limitBrl < toFixed4 (stored.consumedBrl + input.costBRL) ∧
        written.consumedBrl = stored.consumedBrl ∧ ∃ e, x = .error e))
      (Agents.consumeBudget input) store := by
  refine ends_transaction keeps fun store₁ tx inTx => ?_
  refine ends_upsert inTx key ?_
  rw [if_neg (by rw [live]; decide)]
  dsimp only
  split
  · rename_i exceeds
    refine ends_update inTx rfl fun store₂ inTx => ends_event inTx fun store₃ inTx => ?_
    exact ⟨_, inTx, fun store₄ keeps => ⟨_, keeps, rfl, rfl, .inr ⟨exceeds, rfl, _, rfl⟩⟩⟩
  · rename_i within
    have within := not_lt.mp within
    refine ends_update inTx rfl fun store₂ inTx => ends_event inTx fun store₃ inTx => ?_
    split
    · refine ends_update inTx rfl fun store₄ inTx => ?_
      refine ends_event inTx fun store₅ inTx => ?_
      exact ⟨_, inTx, fun store₆ keeps => ⟨_, keeps, rfl, rfl, .inl ⟨within, rfl, _, rfl⟩⟩⟩
    · exact ⟨_, inTx, fun store₄ keeps => ⟨_, keeps, rfl, rfl, .inl ⟨within, rfl, _, rfl⟩⟩⟩

/-- A live consumption settles the row, and returns if it is accepted. -/
theorem ends_consumption {c : Consumption} (stands : store.Stands row) (key : c.budget = row.id)
    (live : c.IsLive) :
    consumptions.Ends (fun x store' => store'.Stands (c.settled row) ∧
      (c.Accepts row ↔ ∃ r, x = .ok r)) (consumptions.program c) store := by
  obtain ⟨stored, keeps, id, limit, total⟩ := stands
  cases c with
  | worker input =>
      refine .mono (fun x store' ends => ?_) (ends_chargeExecution keeps (key.trans id.symm))
      obtain ⟨written, keeps', id', limit', total', returns⟩ := ends
      refine ⟨⟨written, keeps', id'.trans id, limit'.trans limit, ?_⟩, fun _ => returns,
        fun _ => trivial⟩
      rw [total', total]
      rfl
  | api input =>
      refine .bind (.mono (fun x store' ends => ?_)
        (ends_consumeBudget keeps (key.trans id.symm) live))
      obtain ⟨written, keeps', id', limit', ends⟩ := ends
      rw [total, limit] at ends
      rcases ends with ⟨within, total', r, rfl⟩ | ⟨exceeds, total', e, rfl⟩
      · have accepts : (Consumption.api input).Accepts row := within
        refine ⟨⟨written, keeps', ?_⟩, fun _ => ⟨_, rfl⟩, fun _ => accepts⟩
        rw [Consumption.settled, if_pos accepts]
        exact ⟨id'.trans id, limit'.trans limit, total'⟩
      · have refused : ¬(Consumption.api input).Accepts row := not_le.mpr exceeds
        refine ⟨⟨written, keeps', ?_⟩, fun accepts => (refused accepts).elim, fun ⟨r, same⟩ => ?_⟩
        · rw [Consumption.settled, if_neg refused]
          exact ⟨id'.trans id, limit'.trans limit, total'⟩
        · cases same

end Settling

/-! ## Histories of consumptions -/

/-- The row after consumptions. -/
def settledAll (row : AgentBudget) (cs : List Consumption) : AgentBudget :=
  cs.foldl Consumption.settled row

/-- The costs that consumptions add, one after another. -/
def charged : AgentBudget → List Consumption → ℚ
  | _, [] => 0
  | row, c :: cs => c.charge row + charged (c.settled row) cs

/-- The costs of the consumptions that have returned. -/
def returnedCosts (calls : List (Effect.Call AgentIface Consumption BudgetState)) : ℚ :=
  ((calls.filter (·.result.isOk)).map (·.request.cost)).sum

section Histories

variable {store store' : Store} {row : AgentBudget} {cs later : List Consumption}
  {calls : List (Effect.Call AgentIface Consumption BudgetState)}

theorem settledAll_append : settledAll row (cs ++ later) = settledAll (settledAll row cs) later :=
  List.foldl_append

theorem charged_append :
    charged row (cs ++ later) = charged row cs + charged (settledAll row cs) later := by
  induction cs generalizing row with
  | nil => simp [charged, settledAll]
  | cons c cs ih =>
      rw [List.cons_append, charged, ih, charged, add_assoc]
      rfl

theorem settled_id (row : AgentBudget) (c : Consumption) : (c.settled row).id = row.id := by
  unfold Consumption.settled
  split <;> rfl

theorem settledAll_id (row : AgentBudget) (cs : List Consumption) :
    (settledAll row cs).id = row.id := by
  induction cs generalizing row with
  | nil => rfl
  | cons c cs ih => exact (ih _).trans (settled_id row c)

/-- What is stored after a history, and which costs have been returned. -/
theorem serves_stands (stands : store.Stands row)
    (served : consumptions.Serves (fun _ _ => True) store calls store')
    (own : ∀ c ∈ calls.map (·.request), c.budget = row.id ∧ c.IsLive) :
    store'.Stands (settledAll row (calls.map (·.request))) ∧
      returnedCosts calls = charged row (calls.map (·.request)) := by
  induction served with
  | refl => exact ⟨stands, rfl⟩
  | @call store₁ store₂ calls c result before _ ran ih =>
      rw [List.map_append, List.map_cons, List.map_nil] at own ⊢
      obtain ⟨stands₁, returned⟩ := ih fun c inside => own c (List.mem_append_left _ inside)
      obtain ⟨key, live⟩ := own c (List.mem_append_right _ List.mem_cons_self)
      obtain ⟨stands₂, accepted⟩ :=
        (ends_consumption stands₁ (key.trans (settledAll_id row _).symm) live).exec ran
      refine ⟨settledAll_append ▸ stands₂, ?_⟩
      rw [charged_append, ← returned]
      simp only [returnedCosts, List.filter_append, List.map_append, List.sum_append, charged,
        add_zero, Consumption.charge]
      cases result with
      | ok r =>
          rw [if_pos (accepted.mpr ⟨r, rfl⟩)]
          simp [Except.isOk, Except.toBool]
      | error e =>
          rw [if_neg fun accepts => by obtain ⟨r, same⟩ := accepted.mp accepts; cases same]
          simp [Except.isOk, Except.toBool]

theorem exists_serves (stands : store.Stands row)
    (own : ∀ c ∈ cs, c.budget = row.id ∧ c.IsLive) :
    ∃ calls store', consumptions.Serves (fun _ _ => True) store calls store' ∧
      calls.map (·.request) = cs := by
  induction cs using List.reverseRecOn with
  | nil => exact ⟨[], store, .refl, rfl⟩
  | append_singleton cs c ih =>
      have ownBefore : ∀ c ∈ cs, c.budget = row.id ∧ c.IsLive :=
        fun c inside => own c (List.mem_append_left _ inside)
      obtain ⟨calls, store₁, served, rfl⟩ := ih ownBefore
      obtain ⟨stands₁, _⟩ := serves_stands stands served ownBefore
      obtain ⟨key, live⟩ := own c (List.mem_append_right _ List.mem_cons_self)
      obtain ⟨x, store₂, ran⟩ :=
        (ends_consumption stands₁ (key.trans (settledAll_id row _).symm) live).exists_exec
      exact ⟨calls ++ [⟨c, x⟩], store₂, .call served trivial ran, by simp⟩

end Histories

/-! ## Orders and ways to share the costs out -/

/-- The consumptions are of these costs, live and of the budget of the row, and the worker's are
in whole centavos. -/
structure ShareOut (row : AgentBudget) (costs : List ℚ) (cs : List Consumption) : Prop where
  costs : (cs.map (·.cost)).Perm costs
  own : ∀ c ∈ cs, c.budget = row.id ∧ c.IsLive
  cents : ∀ input, Consumption.worker input ∈ cs → IsCents input.costBrl

/-- The total that is stored for a budget. -/
def Store.totalOf (store : Store) (key : BudgetKey) : Option ℚ :=
  (store.budgets.rows key).committed.map (·.consumedBrl)

/-- In every order and however the costs are shared out, the total grows by exactly the costs of
the consumptions that have returned. -/
def AddsUp (store : Store) (row : AgentBudget) (costs : List ℚ) : Prop :=
  ∀ calls store', consumptions.Serves (fun _ _ => True) store calls store' →
    ShareOut row costs (calls.map (·.request)) →
    store'.totalOf row.id = some (row.consumedBrl + returnedCosts calls)

/-- The consumptions add up exactly. -/
def Exact (row : AgentBudget) (cs : List Consumption) : Prop :=
  (settledAll row cs).consumedBrl = row.consumedBrl + charged row cs

theorem Store.Stands.totalOf {store : Store} {row : AgentBudget} (stands : store.Stands row) :
    store.totalOf row.id = some row.consumedBrl := by
  obtain ⟨stored, keeps, id, _, total⟩ := stands
  rw [Store.totalOf, ← id, keeps.committed, ← total]
  rfl

theorem addsUp_iff {store : Store} {row : AgentBudget} (keeps : store.Keeps row) {costs : List ℚ} :
    AddsUp store row costs ↔ ∀ cs, ShareOut row costs cs → Exact row cs := by
  have stands : store.Stands row := ⟨row, keeps, rfl, rfl, rfl⟩
  constructor
  · intro addsUp cs shared
    obtain ⟨calls, store', served, rfl⟩ := exists_serves stands shared.own
    obtain ⟨stands', returned⟩ := serves_stands stands served shared.own
    have total := addsUp calls store' served shared
    rw [← settledAll_id row, stands'.totalOf, returned] at total
    exact Option.some.inj total
  · intro exact calls store' served shared
    obtain ⟨stands', returned⟩ := serves_stands stands served shared.own
    rw [← settledAll_id row, stands'.totalOf, returned]
    exact congrArg some (exact _ shared)

/-! ## Rounding -/

/-- An amount with four decimals. -/
def IsDecimals (q : ℚ) : Prop := ∃ n : Int, q = n / 10000

theorem IsDecimals.add {p q : ℚ} (first : IsDecimals p) (second : IsDecimals q) :
    IsDecimals (p + q) := by
  obtain ⟨m, rfl⟩ := first
  obtain ⟨n, rfl⟩ := second
  exact ⟨m + n, by push_cast; ring⟩

theorem IsDecimals.of_add {p q : ℚ} (sum : IsDecimals (p + q)) (second : IsDecimals q) :
    IsDecimals p := by
  obtain ⟨m, sum⟩ := sum
  obtain ⟨n, rfl⟩ := second
  exact ⟨m - n, by push_cast; linarith⟩

theorem IsCents.of_add {p q : ℚ} (sum : IsCents (p + q)) (second : IsCents q) : IsCents p := by
  obtain ⟨m, sum⟩ := sum
  obtain ⟨n, rfl⟩ := second
  exact ⟨m - n, by push_cast; linarith⟩

theorem IsCents.decimals {q : ℚ} (whole : IsCents q) : IsDecimals q := by
  obtain ⟨n, rfl⟩ := whole
  exact ⟨n * 100, by push_cast; ring⟩

theorem toFixed4_decimals (q : ℚ) : IsDecimals (toFixed4 q) := by
  unfold toFixed4
  dsimp only
  split
  · exact ⟨-mathRound (|q| * 10000), by push_cast; ring⟩
  · exact ⟨mathRound (|q| * 10000), rfl⟩

/-- Four decimals are not changed by rounding. -/
theorem IsDecimals.toFixed4 {q : ℚ} (decimals : IsDecimals q) : toFixed4 q = q := by
  obtain ⟨n, rfl⟩ := decimals
  have rounds (m : Int) : mathRound ((m : ℚ) / 10000 * 10000) = m := by
    rw [mathRound, Int.floor_eq_iff]
    constructor <;> linarith
  unfold Agents.toFixed4
  dsimp only
  split
  · rename_i negative
    have size : |(n : ℚ) / 10000| = ((-n : Int) : ℚ) / 10000 := by
      rw [abs_of_neg negative]
      push_cast
      ring
    rw [size, rounds]
    push_cast
    ring
  · rename_i positive
    rw [abs_of_nonneg (not_lt.mp positive), rounds]

/-- The worker adds whole centavos exactly to whole centavos only. -/
theorem roundCurrency_add {p q : ℚ} (whole : IsCents q) :
    roundCurrency (p + q) = p + q ↔ IsCents p :=
  ⟨fun exact => (exact ▸ roundCurrency_cents : IsCents (p + q)).of_add whole,
    fun cents => (cents.add whole).roundCurrency⟩

/-- The API adds four decimals exactly to four decimals only. -/
theorem toFixed4_add {p q : ℚ} (decimals : IsDecimals q) :
    toFixed4 (p + q) = p + q ↔ IsDecimals p :=
  ⟨fun exact => (exact ▸ toFixed4_decimals (p + q) : IsDecimals (p + q)).of_add decimals,
    fun first => (first.add decimals).toFixed4⟩

/-! ## When consumptions add up -/

section Exactness

variable {row : AgentBudget} {costs : List ℚ} {cs rest : List Consumption}

/-- A consumption that keeps an invariant and adds exactly under it. -/
theorem exact_of_invariant {P : AgentBudget → Prop} {A : Consumption → Prop}
    (each : ∀ {row c}, P row → A c → P (c.settled row) ∧
      (c.settled row).consumedBrl = row.consumedBrl + c.charge row)
    (holds : P row) (all : ∀ c ∈ cs, A c) : Exact row cs := by
  induction cs generalizing row with
  | nil => simp [Exact, settledAll, charged]
  | cons c cs ih =>
      obtain ⟨kept, adds⟩ := each holds (all c List.mem_cons_self)
      have later := ih kept fun c inside => all c (List.mem_cons_of_mem _ inside)
      unfold Exact at later ⊢
      rw [charged, ← add_assoc, ← adds]
      exact later

theorem settled_accepted {c : Consumption} (accepts : c.Accepts row) :
    c.settled row = { row with consumedBrl := c.next row } ∧ c.charge row = c.cost := by
  simp [Consumption.settled, Consumption.charge, accepts]

theorem settled_refused {c : Consumption} (refused : ¬c.Accepts row) :
    c.settled row = row ∧ c.charge row = 0 := by
  simp [Consumption.settled, Consumption.charge, refused]

/-- A consumption that adds exactly where it is accepted. -/
theorem settled_exact {c : Consumption}
    (exact : c.Accepts row → c.next row = row.consumedBrl + c.cost) :
    (c.settled row).consumedBrl = row.consumedBrl + c.charge row := by
  by_cases accepts : c.Accepts row
  · rw [(settled_accepted accepts).1, (settled_accepted accepts).2]
    exact exact accepts
  · rw [(settled_refused accepts).1, (settled_refused accepts).2, add_zero]

/-- Whole centavos alone, on whole centavos. -/
theorem exact_of_cents (total : IsCents row.consumedBrl) (all : ∀ c ∈ cs, IsCents c.cost) :
    Exact row cs := by
  refine exact_of_invariant (P := fun row => IsCents row.consumedBrl)
    (A := fun c => IsCents c.cost) (fun {row c} total whole => ?_) total all
  have exact : c.next row = row.consumedBrl + c.cost := by
    cases c with
    | worker input => exact (roundCurrency_add whole).mpr total
    | api input => exact (toFixed4_add whole.decimals).mpr total.decimals
  refine ⟨?_, settled_exact fun _ => exact⟩
  rw [settled_exact fun _ => exact]
  unfold Consumption.charge
  split
  · exact total.add whole
  · rwa [add_zero]

/-- A consumption by the API of four decimals. -/
def Consumption.IsFine : Consumption → Prop
  | .worker _ => False
  | .api input => IsDecimals input.costBRL

theorem fine_settled {c : Consumption} (total : IsDecimals row.consumedBrl) (fine : c.IsFine) :
    IsDecimals (c.settled row).consumedBrl ∧
      (c.settled row).consumedBrl = row.consumedBrl + c.charge row := by
  cases c with
  | worker input => exact fine.elim
  | api input =>
      have exact : (Consumption.api input).next row =
          row.consumedBrl + (Consumption.api input).cost := (toFixed4_add fine).mpr total
      have adds := settled_exact fun _ => exact
      refine ⟨?_, adds⟩
      rw [adds]
      unfold Consumption.charge
      split
      · exact total.add fine
      · rwa [add_zero]

/-- The API alone, on four decimals. -/
theorem exact_of_decimals (total : IsDecimals row.consumedBrl) (all : ∀ c ∈ cs, c.IsFine) :
    Exact row cs :=
  exact_of_invariant (P := fun row => IsDecimals row.consumedBrl) fine_settled total all

theorem exact_of_refused {base : ℚ} (total : IsCents row.consumedBrl)
    (above : base ≤ row.consumedBrl)
    (all : ∀ c ∈ cs, 0 < c.cost ∧ (IsCents c.cost ∨ c.IsFine ∧ row.limitBrl < base + c.cost)) :
    Exact row cs := by
  refine exact_of_invariant
    (P := fun settled => IsCents settled.consumedBrl ∧ base ≤ settled.consumedBrl ∧
      settled.limitBrl = row.limitBrl)
    (A := fun c => 0 < c.cost ∧ (IsCents c.cost ∨ c.IsFine ∧ row.limitBrl < base + c.cost))
    (fun {settled c} holds allowed => ?_) ⟨total, above, rfl⟩ all
  obtain ⟨total, above, limit⟩ := holds
  obtain ⟨positive, whole | ⟨fine, exceeds⟩⟩ := allowed
  · have exact : c.next settled = settled.consumedBrl + c.cost := by
      cases c with
      | worker input => exact (roundCurrency_add whole).mpr total
      | api input => exact (toFixed4_add whole.decimals).mpr total.decimals
    refine ⟨?_, settled_exact fun _ => exact⟩
    by_cases accepts : c.Accepts settled
    · rw [(settled_accepted accepts).1]
      refine ⟨?_, ?_, limit⟩
      · rw [exact]
        exact total.add whole
      · rw [exact]
        linarith
    · rw [(settled_refused accepts).1]
      exact ⟨total, above, limit⟩
  · cases c with
    | worker input => exact fine.elim
    | api input =>
        have refused : ¬(Consumption.api input).Accepts settled := by
          have sum : toFixed4 (settled.consumedBrl + input.costBRL) =
              settled.consumedBrl + input.costBRL := (toFixed4_add fine).mpr total.decimals
          have cost : row.limitBrl < base + input.costBRL := exceeds
          refine not_le.mpr ?_
          rw [sum, limit]
          linarith
        rw [(settled_refused refused).1, (settled_refused refused).2, add_zero]
        exact ⟨⟨total, above, limit⟩, rfl⟩

theorem exact_of_all_refused (all : ∀ c ∈ cs, ¬c.Accepts row) : Exact row cs := by
  refine exact_of_invariant (P := fun settled => settled = row) (A := fun c => ¬c.Accepts row)
    (fun {settled c} same refused => ?_) rfl all
  subst same
  rw [(settled_refused refused).1, (settled_refused refused).2, add_zero]
  exact ⟨rfl, rfl⟩

/-- Once the total is off, and has four decimals, the API does not bring it back. -/
theorem not_exact_append (total : IsDecimals (settledAll row cs).consumedBrl)
    (off : ¬Exact row cs) (all : ∀ c ∈ rest, c.IsFine) : ¬Exact row (cs ++ rest) := by
  intro exact
  have later := exact_of_decimals total all
  unfold Exact at exact later off
  rw [settledAll_append, charged_append, later] at exact
  exact off (by linarith)

/-! ### The budgets and costs that add up -/

/-- A budget and costs whose sums need no rounding: whole centavos throughout, or four decimals
that the API alone adds, or fractions of a centavo that the API refuses. -/
def AgreeOn (row : AgentBudget) (costs : List ℚ) : Prop :=
  IsCents row.consumedBrl ∧ ((∀ x ∈ costs, IsCents x) ∨ (∀ x ∈ costs, ¬IsCents x) ∨
    ∀ x ∈ costs, ¬IsCents x → row.limitBrl < row.consumedBrl + x) ∨
  ¬IsCents row.consumedBrl ∧ (∀ x ∈ costs, ¬IsCents x) ∧
    (IsDecimals row.consumedBrl ∨ ∀ x ∈ costs, row.limitBrl < toFixed4 (row.consumedBrl + x))

def AgentBudget.byWorker (row : AgentBudget) (cost : ℚ) : Consumption :=
  .worker {
    actorId := ""
    agentId := row.id.agentId
    costBrl := cost
    executionId := ""
    organizationId := row.organizationId
    tenantId := row.id.tenantId }

def AgentBudget.byApi (row : AgentBudget) (cost : ℚ) : Consumption :=
  .api {
    actorId := ""
    agentId := row.id.agentId
    costBRL := cost
    organizationId := row.organizationId
    tenantId := row.id.tenantId }

/-- Some consumptions first, and the API for the rest of the costs. -/
theorem shareOut_append {first : List Consumption} {others : List ℚ}
    (perm : (first.map (·.cost) ++ others).Perm costs)
    (own : ∀ c ∈ first, c.budget = row.id ∧ c.IsLive)
    (cents : ∀ input, Consumption.worker input ∈ first → IsCents input.costBrl) :
    ShareOut row costs (first ++ others.map row.byApi) := by
  refine ⟨?_, fun c inside => ?_, fun input inside => ?_⟩
  · have rest : (others.map row.byApi).map (·.cost) = others := by
      rw [List.map_map]
      exact List.map_id others
    rwa [List.map_append, rest]
  · rcases List.mem_append.mp inside with inside | inside
    · exact own c inside
    · obtain ⟨x, _, rfl⟩ := List.mem_map.mp inside
      exact ⟨rfl, rfl⟩
  · rcases List.mem_append.mp inside with inside | inside
    · exact cents input inside
    · obtain ⟨x, _, same⟩ := List.mem_map.mp inside
      cases same

/-- Consumptions that are off at first make a way to share the costs out that is off. -/
theorem not_all_exact {first : List Consumption} {others : List ℚ}
    (perm : (first.map (·.cost) ++ others).Perm costs) (decimals : ∀ x ∈ costs, IsDecimals x)
    (own : ∀ c ∈ first, c.budget = row.id ∧ c.IsLive)
    (cents : ∀ input, Consumption.worker input ∈ first → IsCents input.costBrl)
    (total : IsDecimals (settledAll row first).consumedBrl) (off : ¬Exact row first) :
    ¬∀ cs, ShareOut row costs cs → Exact row cs := by
  intro all
  refine not_exact_append total off (fun c inside => ?_) (all _ (shareOut_append perm own cents))
  obtain ⟨x, listed, rfl⟩ := List.mem_map.mp inside
  exact decimals x (perm.mem_iff.mp (List.mem_append_right _ listed))

/-- The worker starts from a total that is not in whole centavos. -/
theorem not_exact_worker {x : ℚ} (broken : ¬IsCents row.consumedBrl) (whole : IsCents x) :
    ¬Exact row [row.byWorker x] := by
  intro exact
  have sum : roundCurrency (row.consumedBrl + x) = row.consumedBrl + (x + 0) := exact
  rw [add_zero] at sum
  exact broken ((roundCurrency_add whole).mp sum)

/-- The API makes the total one that is not in whole centavos, and then the worker rounds it. -/
theorem not_exact_api_worker {x y : ℚ} (total : IsCents row.consumedBrl) (whole : IsCents x)
    (decimals : IsDecimals y) (broken : ¬IsCents y) (within : row.consumedBrl + y ≤ row.limitBrl) :
    ¬Exact row [row.byApi y, row.byWorker x] := by
  have sum : toFixed4 (row.consumedBrl + y) = row.consumedBrl + y :=
    (toFixed4_add decimals).mpr total.decimals
  have accepts : (row.byApi y).Accepts row := sum.trans_le within
  obtain ⟨settled, charge⟩ := settled_accepted accepts
  intro exact
  have sums : roundCurrency (((row.byApi y).settled row).consumedBrl + x) =
      row.consumedBrl + ((row.byApi y).charge row + (x + 0)) := exact
  have next : ((row.byApi y).settled row).consumedBrl = row.consumedBrl + y := by
    rw [settled]
    exact sum
  rw [next, charge, add_zero, show (row.byApi y).cost = y from rfl, ← add_assoc,
    roundCurrency_add whole] at sums
  rw [add_comm] at sums
  exact broken (sums.of_add total)

/-- The API starts from a total with more than four decimals. -/
theorem not_exact_api {y : ℚ} (broken : ¬IsDecimals row.consumedBrl) (decimals : IsDecimals y)
    (within : toFixed4 (row.consumedBrl + y) ≤ row.limitBrl) : ¬Exact row [row.byApi y] := by
  have accepts : (row.byApi y).Accepts row := within
  obtain ⟨settled, charge⟩ := settled_accepted accepts
  intro exact
  have sum : ((row.byApi y).settled row).consumedBrl =
      row.consumedBrl + ((row.byApi y).charge row + 0) := exact
  rw [settled, charge, add_zero] at sum
  exact broken ((toFixed4_add decimals).mp sum)

end Exactness

/-- **When the amounts agree.** For a budget and positive costs of at most four decimals, every
order and every way to share the costs out between the API and, where they are whole centavos,
the worker adds up to exactly what was charged, if and only if the budget and the costs are among
those of `AgreeOn`. -/
theorem amounts_agree_iff {store : Store} {row : AgentBudget} (keeps : store.Keeps row)
    {costs : List ℚ} (positive : ∀ x ∈ costs, 0 < x) (decimals : ∀ x ∈ costs, IsDecimals x) :
    AddsUp store row costs ↔ AgreeOn row costs := by
  rw [addsUp_iff keeps]
  constructor
  · intro all
    by_cases total : IsCents row.consumedBrl
    · refine .inl ⟨total, ?_⟩
      by_contra none
      push Not at none
      obtain ⟨_, ⟨x, listed, whole⟩, y, listed', broken, within⟩ := none
      have differs : x ≠ y := fun same => broken (same ▸ whole)
      have perm : (([row.byApi y, row.byWorker x].map (·.cost)) ++
          (costs.erase y).erase x).Perm costs :=
        ((List.perm_cons_erase ((List.mem_erase_of_ne differs).mpr listed)).symm.cons y).trans
          (List.perm_cons_erase listed').symm
      refine not_all_exact perm decimals ?_ ?_ ?_
        (not_exact_api_worker total whole (decimals y listed') broken within) all
      · simp [AgentBudget.byApi, AgentBudget.byWorker, Consumption.budget, Consumption.IsLive]
      · simp [AgentBudget.byApi, AgentBudget.byWorker, whole]
      · exact roundCurrency_cents.decimals
    · refine .inr ⟨total, fun x listed whole => ?_, ?_⟩
      · have perm : (([row.byWorker x].map (·.cost)) ++ costs.erase x).Perm costs :=
          (List.perm_cons_erase listed).symm
        refine not_all_exact perm decimals ?_ ?_ ?_ (not_exact_worker total whole) all
        · simp [AgentBudget.byWorker, Consumption.budget, Consumption.IsLive]
        · simp [AgentBudget.byWorker, whole]
        · exact roundCurrency_cents.decimals
      · by_contra none
        push Not at none
        obtain ⟨broken, y, listed, within⟩ := none
        have perm : (([row.byApi y].map (·.cost)) ++ costs.erase y).Perm costs :=
          (List.perm_cons_erase listed).symm
        refine not_all_exact perm decimals ?_ ?_ ?_
          (not_exact_api broken (decimals y listed) within) all
        · simp [AgentBudget.byApi, Consumption.budget, Consumption.IsLive]
        · simp [AgentBudget.byApi]
        · have accepts : (row.byApi y).Accepts row := within
          rw [settledAll, List.foldl_cons, List.foldl_nil, (settled_accepted accepts).1]
          exact toFixed4_decimals _
  · intro agree cs shared
    have cost_mem {c : Consumption} (inside : c ∈ cs) : c.cost ∈ costs :=
      shared.costs.mem_iff.mp (List.mem_map_of_mem inside)
    have fine_of {c : Consumption} (inside : c ∈ cs) (broken : ¬IsCents c.cost) : c.IsFine := by
      cases c with
      | worker input => exact absurd (shared.cents input inside) broken
      | api input => exact decimals _ (cost_mem inside)
    rcases agree with ⟨total, whole | broken | refused⟩ | ⟨_, broken, fine | refused⟩
    · exact exact_of_cents total fun c inside => whole _ (cost_mem inside)
    · exact exact_of_decimals total.decimals fun c inside =>
        fine_of inside (broken _ (cost_mem inside))
    · refine exact_of_refused total le_rfl fun c inside => ⟨positive _ (cost_mem inside), ?_⟩
      by_cases whole : IsCents c.cost
      · exact .inl whole
      · exact .inr ⟨fine_of inside whole, refused _ (cost_mem inside) whole⟩
    · exact exact_of_decimals fine fun c inside => fine_of inside (broken _ (cost_mem inside))
    · refine exact_of_all_refused fun c inside accepts => ?_
      have fine := fine_of inside (broken _ (cost_mem inside))
      cases c with
      | worker input => exact fine.elim
      | api input => exact absurd accepts (not_le.mpr (refused _ (cost_mem inside)))

/-- A budget of which nothing is consumed. -/
def freshRow : AgentBudget where
  id := ⟨"tenant", "agent"⟩
  organizationId := "organization"

/-- The budget is stored. -/
def freshStore : Store where
  budgets := {
    rows := Function.update (fun _ => {}) freshRow.id { committed := some freshRow }
    log := []
    begun := 0
    status := fun _ => .unknown }

theorem freshStore_keeps : freshStore.Keeps freshRow where
  committed := by simp [freshStore]
  quiet key := by
    by_cases own : key = freshRow.id
    · simp [freshStore, own]
    · simp [freshStore, own]

theorem two_centavos_agree : AddsUp freshStore freshRow [1 / 100, 2 / 100] := by
  have cents : ∀ x ∈ [1 / 100, 2 / 100], IsCents x := by
    simp only [List.forall_mem_cons, List.not_mem_nil, false_implies, implies_true, and_true]
    exact ⟨⟨1, by norm_num⟩, 2, by norm_num⟩
  exact (amounts_agree_iff freshStore_keeps (by norm_num)
    fun x listed => (cents x listed).decimals).mpr (.inl ⟨.zero, .inl cents⟩)

/-- The API charges two fifths of a centavo, which are gone once the worker has charged one
centavo. -/
theorem fractions_lost : ¬AddsUp freshStore freshRow [4 / 1000, 1 / 100] := by
  rw [addsUp_iff freshStore_keeps]
  have whole : IsCents (1 / 100) := ⟨1, by norm_num⟩
  have decimals : IsDecimals (4 / 1000) := ⟨40, by norm_num⟩
  have broken : ¬IsCents (4 / 1000) := by
    rintro ⟨n, same⟩
    have tenths : (n : ℚ) * 10 = 4 := by linarith
    have none : n * 10 = 4 := by exact_mod_cast tenths
    omega
  have perm : ([freshRow.byApi (4 / 1000), freshRow.byWorker (1 / 100)].map Consumption.cost ++
      []).Perm [4 / 1000, 1 / 100] := .refl _
  refine not_all_exact perm ?_ ?_ ?_ roundCurrency_cents.decimals
    (not_exact_api_worker .zero whole decimals broken (by norm_num [freshRow]))
  · simp only [List.forall_mem_cons, List.not_mem_nil, false_implies, implies_true, and_true]
    exact ⟨decimals, whole.decimals⟩
  · simp [AgentBudget.byApi, AgentBudget.byWorker, Consumption.budget, Consumption.IsLive]
  · simpa [AgentBudget.byApi, AgentBudget.byWorker] using whole

end Agents
