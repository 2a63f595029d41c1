import BirthHub.Effect.Total
import BirthHub.Tenancy.Isolation

/-!
# Results of updates and deletions

What `update` and `delete` of `BaseRepository` return, and what they do to the table, where
nothing else happens meanwhile. Both look a row up by the conditions of the call, apart from the
statement that writes: `update` afterwards, when the rows it has changed may no longer meet the
conditions, and `delete` before it deletes every row that does.
-/

namespace Tenancy

open Data Effect

variable {ν ρ κ δ : Type}

/-! ## The delegate of a table -/

/-- The conditions that the arguments of an operation give. -/
def conditionsOf (args : Members ν) : Members ν := spread (args.lookup "where")

def dataOf (args : Members ν) : Members ν := spread (args.lookup "data")

/-- Some row meets the conditions. -/
def Matches (holds : Members ν → ρ → Bool) (conditions : Members ν) (rows : κ → Option ρ) : Prop :=
  ∃ key, ∃ row ∈ rows key, holds conditions row = true

/-- The rows that meet the conditions take the data. -/
def assigned (holds : Members ν → ρ → Bool) (assign : Members ν → ρ → ρ)
    (conditions data : Members ν) (rows : κ → Option ρ) : κ → Option ρ :=
  fun key => (rows key).map fun row => if holds conditions row then assign data row else row

/-- The rows that meet the conditions are gone. -/
def removed (holds : Members ν → ρ → Bool) (conditions : Members ν) (rows : κ → Option ρ) :
    κ → Option ρ :=
  fun key => (rows key).filter fun row => !holds conditions row

/-- The delegate answers from the table: `holds` says which rows meet the conditions of an object,
and `assign` what a row becomes with the data of one. -/
structure Delegate.Exact (delegate : Delegate ν ρ κ δ) (holds : Members ν → ρ → Bool)
    (assign : Members ν → ρ → ρ) : Prop where
  chooses : Nonempty delegate.Choice
  findFirst : ∀ args choice rows, ∃ found : Option ρ,
    delegate.answer (.findFirst args) choice rows = (.ok found, rows) ∧
      (found = none → ¬ Matches holds (conditionsOf args) rows) ∧
      ∀ row ∈ found, holds (conditionsOf args) row = true ∧ ∃ key, rows key = some row
  updateMany : ∀ args choice rows, ∃ count : Nat,
    delegate.answer (.updateMany args) choice rows =
        (.ok count, assigned holds assign (conditionsOf args) (dataOf args) rows) ∧
      (count = 0 ↔ ¬ Matches holds (conditionsOf args) rows)
  deleteMany : ∀ args choice rows, ∃ count : Nat,
    delegate.answer (.deleteMany args) choice rows =
      (.ok count, removed holds (conditionsOf args) rows)

variable {holds : Members ν → ρ → Bool} {assign : Members ν → ρ → ρ} {rows rows' : κ → Option ρ}
  {conditions data : Members ν}

theorem assigned_of_not_matches (none : ¬ Matches holds conditions rows) :
    assigned holds assign conditions data rows = rows := by
  funext key
  cases there : rows key with
  | none => simp [assigned, there]
  | some row =>
      have unmet : ¬ holds conditions row = true := fun met => none ⟨key, row, there, met⟩
      simp [assigned, there, unmet]

/-- A row of the table after an update that meets the conditions is one that was updated. -/
theorem of_assigned {key : κ} {row' : ρ}
    (there : assigned holds assign conditions data rows key = some row')
    (met : holds conditions row' = true) :
    ∃ row, rows key = some row ∧ holds conditions row = true ∧ row' = assign data row := by
  obtain ⟨row, before, rfl⟩ := Option.map_eq_some_iff.mp there
  split at met
  · rename_i was
    exact ⟨row, before, was, if_pos was⟩
  · rename_i was
    exact (was met).elim

/-- An operation is answered whatever the delegate chooses. -/
theorem ends_await {α : Type} {delegate : Delegate ν ρ κ δ} (chooses : Nonempty delegate.Choice)
    {o : DelegateOp ν} {f : o.Result ρ → Prog (RepositoryIface ν ρ δ) α}
    {Q : Except (Failure δ) α → (κ → Option ρ) → Prop}
    {r : delegate.Choice → o.Result ρ} {after : delegate.Choice → κ → Option ρ}
    (answers : ∀ choice, delegate.answer o choice rows = (.ok (r choice), after choice)) :
    (repository delegate).Ends Q (await o >>= f) rows ↔
      ∀ choice, (repository delegate).Ends Q (f (r choice)) (after choice) := by
  constructor
  · intro ends choice
    exact ends.2 choice (.ok (r choice)) (after choice) (congrArg some (answers choice))
  · intro ends
    obtain ⟨any⟩ := chooses
    refine ⟨⟨any, _, rfl⟩, fun choice answer rows' answered => ?_⟩
    have same := (answers choice).symm.trans (Option.some.inj answered)
    cases same
    exact ends choice

/-! ## One call -/

/-- An update has thrown, no row met the conditions and the table is what it was; or the row that
it returned is one of those it updated, as it is now. -/
def UpdateAtomic (holds : Members ν → ρ → Bool) (assign : Members ν → ρ → ρ)
    (conditions data : Members ν) (rows : κ → Option ρ) :
    Except (Failure δ) ρ → (κ → Option ρ) → Prop
  | .ok record, rows' => ∃ key, ∃ row ∈ rows key, holds conditions row = true ∧
      record = assign data row ∧ rows' key = some record
  | .error _, rows' => ¬ Matches holds conditions rows ∧ rows' = rows

/-- A deletion has thrown, no row met the conditions and the table is what it was; or the row that
it returned met the conditions and was removed, and no other. -/
def DeleteAtomic (holds : Members ν → ρ → Bool) (conditions : Members ν) (rows : κ → Option ρ) :
    Except (Failure δ) ρ → (κ → Option ρ) → Prop
  | .ok record, rows' => ∃ key, rows key = some record ∧ holds conditions record = true ∧
      rows' key = none ∧ ∀ other ≠ key, rows' other = rows other
  | .error _, rows' => ¬ Matches holds conditions rows ∧ rows' = rows

variable {delegate : Delegate ν ρ κ δ} {context : TenantContext}

/-- Where rows are updated, some still meet the conditions. -/
def StaysMatched (holds : Members ν → ρ → Bool) (assign : Members ν → ρ → ρ)
    (conditions data : Members ν) (rows : κ → Option ρ) : Prop :=
  Matches holds conditions rows →
    ∃ key, ∃ row ∈ rows key, holds conditions row = true ∧ holds conditions (assign data row) = true

/-- At most one row meets the conditions. -/
def MatchesOne (holds : Members ν → ρ → Bool) (conditions : Members ν) (rows : κ → Option ρ) :
    Prop :=
  ∀ key other, ∀ row ∈ rows key, ∀ row' ∈ rows other, holds conditions row = true →
    holds conditions row' = true → key = other

theorem conditionsOf_where (where_ : Members ν) :
    conditionsOf [("where", .object where_)] = where_ := rfl

theorem conditionsOf_update (args where_ data : Members ν) :
    conditionsOf (put (put args "data" (.object data)) "where" (.object where_)) = where_ := by
  rw [conditionsOf, lookup_put, spread_object]

theorem dataOf_update (args where_ data : Members ν) :
    dataOf (put (put args "data" (.object data)) "where" (.object where_)) = data := by
  rw [dataOf, lookup_put_other _ _ (by decide), lookup_put, spread_object]

theorem update_ends_iff (exact_ : delegate.Exact holds assign) (normal : Normal context.tenantId)
    (args : Members ν) :
    (repository delegate).Ends (UpdateAtomic holds assign (withTenant args "where" context.tenantId)
        (withTenant args "data" context.tenantId) rows) (update (some context) args) rows ↔
      StaysMatched holds assign (withTenant args "where" context.tenantId)
        (withTenant args "data" context.tenantId) rows := by
  rw [update, getScopedTenantId_bind normal]
  generalize withTenant args "where" context.tenantId = conditions
  generalize withTenant args "data" context.tenantId = data
  choose count counted zero using exact_.updateMany
    (put (put args "data" (.object data)) "where" (.object conditions))
  simp only [conditionsOf_update, dataOf_update] at counted zero
  rw [ends_await exact_.chooses fun choice => counted choice rows]
  choose found looked missing met using exact_.findFirst [("where", .object conditions)]
  simp only [conditionsOf_where] at looked missing met
  constructor
  · intro ends matched
    obtain ⟨any⟩ := exact_.chooses
    have updated : count any rows ≠ 0 := fun none => (zero any rows).mp none matched
    have ends := ends any
    rw [if_neg updated, ends_await exact_.chooses fun choice => looked choice _] at ends
    have ended := ends any
    cases last : found any (assigned holds assign conditions data rows) with
    | none =>
        rw [last] at ended
        exact (ended.1 matched).elim
    | some record =>
        obtain ⟨still, key, there⟩ := met any _ record last
        obtain ⟨row, before, was, rfl⟩ := of_assigned there still
        exact ⟨key, row, before, was, still⟩
  · intro stays choice
    split
    · rename_i none
      have unmatched := (zero choice rows).mp none
      exact ⟨unmatched, assigned_of_not_matches unmatched⟩
    · rename_i some
      have matched : Matches holds conditions rows := by
        by_contra none
        exact some ((zero choice rows).mpr none)
      rw [ends_await exact_.chooses fun choice => looked choice _]
      intro choice
      cases last : found choice (assigned holds assign conditions data rows) with
      | none =>
          obtain ⟨key, row, there, was, still⟩ := stays matched
          refine (missing choice _ last ⟨key, assign data row, ?_, still⟩).elim
          have there : rows key = .some row := there
          simp [assigned, there, was]
      | some record =>
          obtain ⟨still, key, there⟩ := met choice _ record last
          obtain ⟨row, before, was, same⟩ := of_assigned there still
          exact ⟨key, row, before, was, same, there⟩

theorem delete_ends_iff (exact_ : delegate.Exact holds assign) (normal : Normal context.tenantId)
    (args : Members ν) :
    (repository delegate).Ends (DeleteAtomic holds (withTenant args "where" context.tenantId) rows)
        (delete (some context) args) rows ↔
      MatchesOne holds (withTenant args "where" context.tenantId) rows := by
  rw [delete, getScopedTenantId_bind normal]
  generalize withTenant args "where" context.tenantId = conditions
  choose found looked missing met using exact_.findFirst [("where", .object conditions)]
  choose count counted using exact_.deleteMany [("where", .object conditions)]
  simp only [conditionsOf_where] at looked missing met counted
  rw [ends_await exact_.chooses fun choice => looked choice rows]
  constructor
  · intro ends key other row there row' there' was was'
    obtain ⟨any⟩ := exact_.chooses
    have ends := ends any
    cases first : found any rows with
    | none => exact (missing any rows first ⟨key, row, there, was⟩).elim
    | some record =>
        rw [first] at ends
        obtain ⟨own, stored, met, gone, kept⟩ :=
          (ends_await exact_.chooses fun choice => counted choice rows).mp ends any
        have only {key : κ} {row : ρ} (there : row ∈ rows key) (was : holds conditions row = true) :
            key = own := by
          by_contra differs
          have left := kept key differs
          have there : rows key = some row := there
          simp [removed, there, was] at left
        exact (only there was).trans (only there' was').symm
  · intro one choice
    cases first : found choice rows with
    | none =>
        have unmatched := missing choice rows first
        exact ⟨unmatched, rfl⟩
    | some record =>
        obtain ⟨was, key, there⟩ := met choice rows record first
        refine (ends_await exact_.chooses fun choice => counted choice rows).mpr fun choice =>
          ⟨key, there, was, by simp [removed, there, was], fun other differs => ?_⟩
        cases there' : rows other with
        | none => simp [removed, there']
        | some row =>
            have unmet : ¬ holds conditions row = true := fun was' =>
              differs (one key other record there row there' was was').symm
            simp [removed, there', unmet]

/-- **Atomic results.** In the context of a tenant an update is atomic just when no row meets its
conditions or one that it updates still does, and a deletion just when at most one row meets its
conditions. -/
theorem atomic_iff (exact_ : delegate.Exact holds assign) {contexts : List TenantContext}
    {tenantId : String} (entered : contextTenant none contexts = some tenantId) (args : Members ν)
    (rows : κ → Option ρ) :
    ((repository delegate).Ends (UpdateAtomic holds assign (withTenant args "where" tenantId)
          (withTenant args "data" tenantId) rows)
        (runWithin (fun store => update store args) contexts none) rows ↔
      StaysMatched holds assign (withTenant args "where" tenantId)
        (withTenant args "data" tenantId) rows) ∧
    ((repository delegate).Ends (DeleteAtomic holds (withTenant args "where" tenantId) rows)
        (runWithin (fun store => delete store args) contexts none) rows ↔
      MatchesOne holds (withTenant args "where" tenantId) rows) := by
  have inside {α : Type} (callback : Option TenantContext → Prog (RepositoryIface ν ρ δ) α) :
      ∃ context, context.tenantId = tenantId ∧ Normal context.tenantId ∧
        runWithin callback contexts none = callback (some context) := by
    rcases runWithin_cases callback (fun _ absent => (Option.not_mem_none _ absent).elim) contexts
      with ⟨innermost, tenant, normal, runs⟩ | ⟨outside, _⟩
    · rw [entered] at tenant
      obtain ⟨context, rfl, same⟩ := Option.map_eq_some_iff.mp tenant.symm
      exact ⟨context, same, normal context rfl, runs⟩
    · rw [entered] at outside
      cases outside
  constructor
  · obtain ⟨context, rfl, normal, runs⟩ :=
      inside fun store => (update store args : Prog (RepositoryIface ν ρ δ) ρ)
    rw [runs]
    exact update_ends_iff exact_ normal args
  · obtain ⟨context, rfl, normal, runs⟩ :=
      inside fun store => (delete store args : Prog (RepositoryIface ν ρ δ) ρ)
    rw [runs]
    exact delete_ends_iff exact_ normal args

/-! ### A small table -/

/-- A contact meets every condition of the object. -/
def Contact.meetsAll (conditions : Members Empty) (row : Contact) : Bool :=
  conditions.all row.satisfies

/-- A contact with the columns that the object gives. -/
def Contact.updated (data : Members Empty) (row : Contact) : Contact :=
  row.write [("data", .object data)]

theorem matches_contacts {conditions : Members Empty} {rows : Fin 4 → Option Contact} :
    Matches Contact.meetsAll conditions rows ↔
      ∃ row ∈ contactsOf rows, row.meetsAll conditions = true := by
  constructor
  · rintro ⟨key, row, there, met⟩
    exact ⟨row, List.mem_filterMap.mpr ⟨key, List.mem_finRange key, there⟩, met⟩
  · rintro ⟨row, inside, met⟩
    obtain ⟨key, _, there⟩ := List.mem_filterMap.mp inside
    exact ⟨key, row, there, met⟩

theorem contacts_exact : contacts.Exact Contact.meetsAll
    Contact.updated where
  chooses := ⟨()⟩
  findFirst args choice rows := by
    refine ⟨(contactsOf rows).find? (·.meets args), rfl, fun none matched => ?_, fun row found => ?_⟩
    · obtain ⟨row, inside, met⟩ := matches_contacts.mp matched
      exact List.find?_eq_none.mp none row inside met
    · obtain ⟨key, _, there⟩ := List.mem_filterMap.mp (List.mem_of_find?_eq_some found)
      exact ⟨List.find?_some found, key, there⟩
  updateMany args choice rows := by
    refine ⟨(contactsOf rows).countP (·.meets args), rfl, ?_⟩
    rw [matches_contacts, List.countP_eq_zero]
    push Not
    rfl
  deleteMany args choice rows := ⟨(contactsOf rows).countP (·.meets args), rfl⟩

/-- Two contacts of the tenant. -/
def twoContacts (key : Fin 4) : Option Contact :=
  [⟨"1", "alpha", "Ada"⟩, ⟨"2", "alpha", "Grace"⟩][key.val]?

/-- Grace is renamed under the conditions on her id. -/
def renameById : Members Empty :=
  [("where", .object [("id", .string "2")]), ("data", .object [("name", .string "Hopper")])]

theorem renameById_atomic :
    (repository contacts).Ends (UpdateAtomic Contact.meetsAll
        Contact.updated (withTenant renameById "where" "alpha") (withTenant renameById "data" "alpha")
        twoContacts)
      (runWithin (fun store => update store renameById) (inTenant "alpha") none) twoContacts ∧
    (repository contacts).Ends (DeleteAtomic Contact.meetsAll
        (withTenant renameById "where" "alpha") twoContacts)
      (runWithin (fun store => delete store renameById) (inTenant "alpha") none) twoContacts := by
  have both := atomic_iff contacts_exact (show contextTenant none (inTenant "alpha") = some "alpha"
    by decide) renameById twoContacts
  refine ⟨both.1.mpr fun _ => ⟨⟨1, by decide⟩, ⟨"2", "alpha", "Grace"⟩, rfl, by decide, by decide⟩,
    both.2.mpr ?_⟩
  unfold MatchesOne
  decide

/-- Ada is renamed under the conditions on her name. -/
def renameByName : Members Empty :=
  [("where", .object [("name", .string "Ada")]), ("data", .object [("name", .string "Lovelace")])]

/-- The update throws although it has renamed Ada; and a deletion with no conditions but the
tenant returns one contact and removes both. -/
theorem renameByName_not_atomic :
    (∃ rows, (repository contacts).Exec
        (runWithin (fun store => update store renameByName) (inTenant "alpha") none) twoContacts
        (.error (.error "Scoped record not found after update.")) rows ∧
      contactsOf rows = [⟨"1", "alpha", "Lovelace"⟩, ⟨"2", "alpha", "Grace"⟩] ∧
      ¬ UpdateAtomic (δ := String) Contact.meetsAll
        Contact.updated (withTenant renameByName "where" "alpha")
        (withTenant renameByName "data" "alpha") twoContacts
        (.error (.error "Scoped record not found after update.")) rows) ∧
    ∃ rows, (repository contacts).Exec
        (runWithin (fun store => delete store []) (inTenant "alpha") none) twoContacts
        (.ok ⟨"1", "alpha", "Ada"⟩) rows ∧
      contactsOf rows = [] ∧
      ¬ DeleteAtomic (δ := String) Contact.meetsAll
        (withTenant [] "where" "alpha") twoContacts (.ok ⟨"1", "alpha", "Ada"⟩) rows := by
  constructor
  · refine ⟨_, System.Exec.of_alone (show (repository contacts).alone _ [(), ()] _ = some _ from rfl),
      by decide, fun atomic => atomic.1 ?_⟩
    exact ⟨⟨0, by decide⟩, ⟨"1", "alpha", "Ada"⟩, rfl, by decide⟩
  · refine ⟨_, System.Exec.of_alone (show (repository contacts).alone _ [(), ()] _ = some _ from rfl),
      by decide, ?_⟩
    rintro ⟨key, there, _, _, kept⟩
    have grace : (⟨1, by decide⟩ : Fin 4) ≠ key := by
      rintro rfl
      exact absurd there (by decide)
    exact absurd (kept _ grace) (by decide)

end Tenancy
