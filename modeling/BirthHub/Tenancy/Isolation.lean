import BirthHub.Tenancy.Repository
import BirthHub.Data.Trim

/-!
# Rows of other tenants

In the context of a tenant every operation that a repository awaits carries the tenant in its
conditions and its data (`DelegateOp.ScopedTo`). A delegate that takes all conditions together
then answers with rows of the tenant, and leaves the others as they are.
-/

namespace Tenancy

open Data Effect

variable {ν ρ κ δ : Type}

/-! ## What the delegate is relied on for -/

section Delegates

variable (tenantOf : ρ → String) (holds : String × Value ν → ρ → Prop)

/-- A row meets all conditions at the top of `where`. -/
def Meets (args : Members ν) (row : ρ) : Prop :=
  ∀ condition ∈ spread (args.lookup "where"), holds condition row

/-- A row that is written has the tenant of `data`. -/
def Carries (args : Members ν) (row : ρ) : Prop :=
  ∀ tenantId, (spread (args.lookup "data")).lookup "tenantId" = some (.string tenantId) →
    tenantOf row = tenantId

/-- The rows that an operation may change or delete. -/
def DelegateOp.Replaces : DelegateOp ν → ρ → Prop
  | .deleteMany args => Meets holds args
  | .updateMany args => Meets holds args
  | _ => fun _ => False

/-- The rows that an operation may write. -/
def DelegateOp.Writes : DelegateOp ν → ρ → Prop
  | .create args => Carries tenantOf args
  | .updateMany args => Carries tenantOf args
  | _ => fun _ => False

def DelegateOp.rows : (o : DelegateOp ν) → o.Result ρ → List ρ
  | .create _, row => [row]
  | .findFirst _, row => Option.toList row
  | .findMany _, rows => rows
  | .deleteMany _, _ => []
  | .updateMany _, _ => []

/-- The rows that an operation may return. -/
def DelegateOp.Returns : DelegateOp ν → ρ → Prop
  | .create args => Carries tenantOf args
  | .findFirst args => Meets holds args
  | .findMany args => Meets holds args
  | _ => fun _ => False

/-- The delegate takes all conditions of `where` together, the one on `tenantId` as an
equality, and writes the tenant that `data` names. -/
structure Delegate.Conjunctive (delegate : Delegate ν ρ κ δ) : Prop where
  tenantId : ∀ {tenantId row}, holds ("tenantId", .string tenantId) row → tenantOf row = tenantId
  returns : ∀ {o choice rows r rows'}, delegate.answer o choice rows = (.ok r, rows') →
    ∀ row ∈ o.rows r, o.Returns tenantOf holds row
  writes : ∀ {o choice rows answer rows'}, delegate.answer o choice rows = (answer, rows') →
    ∀ key, rows' key = rows key ∨
      (∀ row ∈ rows key, o.Replaces holds row) ∧ ∀ row ∈ rows' key, o.Writes tenantOf row

end Delegates

/-! ## Operations in the context of a tenant -/

/-- The operation carries the tenant in its conditions and its data. -/
def DelegateOp.ScopedTo (tenantId : String) : DelegateOp ν → Prop
  | .create args => (spread (args.lookup "data")).lookup "tenantId" = some (.string tenantId)
  | .deleteMany args => ("tenantId", .string tenantId) ∈ spread (args.lookup "where")
  | .findFirst args => ("tenantId", .string tenantId) ∈ spread (args.lookup "where")
  | .findMany args => ("tenantId", .string tenantId) ∈ spread (args.lookup "where")
  | .updateMany args => ("tenantId", .string tenantId) ∈ spread (args.lookup "where") ∧
      (spread (args.lookup "data")).lookup "tenantId" = some (.string tenantId)

/-- The answer shows rows of the tenant only. -/
def Shows (tenantOf : ρ → String) (tenantId : String) (o : DelegateOp ν) :
    (RepositoryIface ν ρ δ).Answer o → Prop
  | .ok r => ∀ row ∈ o.rows r, tenantOf row = tenantId
  | .error _ => True

variable {tenantOf : ρ → String} {holds : String × Value ν → ρ → Prop}
  {delegate : Delegate ν ρ κ δ} {o : DelegateOp ν} {choice : delegate.Choice}
  {rows rows' : κ → Option ρ} {tenantId : String}

theorem Delegate.Conjunctive.shows (conjunctive : delegate.Conjunctive tenantOf holds)
    (scope : o.ScopedTo tenantId) {answer : (RepositoryIface ν ρ δ).Answer o}
    (answered : delegate.answer o choice rows = (answer, rows')) :
    Shows tenantOf tenantId o answer := by
  cases answer with
  | error e => trivial
  | ok r =>
      intro row inside
      have returned := conjunctive.returns answered row inside
      cases o with
      | create args => exact returned tenantId scope
      | findFirst args => exact conjunctive.tenantId (returned _ scope)
      | findMany args => exact conjunctive.tenantId (returned _ scope)
      | deleteMany args => exact returned.elim
      | updateMany args => exact returned.elim

/-- The rows of the other tenants. -/
def others (tenantOf : ρ → String) (tenantId : String) (rows : κ → Option ρ) : κ → Option ρ :=
  fun key => (rows key).filter (tenantOf · ≠ tenantId)

/-- The rows of the other tenants are left as they are. -/
theorem Delegate.Conjunctive.others_kept (conjunctive : delegate.Conjunctive tenantOf holds)
    (scope : o.ScopedTo tenantId) {answer : (RepositoryIface ν ρ δ).Answer o}
    (answered : delegate.answer o choice rows = (answer, rows')) :
    others tenantOf tenantId rows' = others tenantOf tenantId rows := by
  have replaced (row : ρ) (may : o.Replaces holds row) : tenantOf row = tenantId := by
    cases o with
    | create args => exact may.elim
    | findFirst args => exact may.elim
    | findMany args => exact may.elim
    | deleteMany args => exact conjunctive.tenantId (may _ scope)
    | updateMany args => exact conjunctive.tenantId (may _ scope.1)
  have written (row : ρ) (may : o.Writes tenantOf row) : tenantOf row = tenantId := by
    cases o with
    | create args => exact may tenantId scope
    | findFirst args => exact may.elim
    | findMany args => exact may.elim
    | deleteMany args => exact may.elim
    | updateMany args => exact may tenantId scope.2
  have none_of {row : Option ρ} (own : ∀ found ∈ row, tenantOf found = tenantId) :
      row.filter (tenantOf · ≠ tenantId) = none := by
    cases row with
    | none => rfl
    | some found => simp [own found rfl]
  funext key
  rcases conjunctive.writes answered key with same | ⟨before, after⟩
  · rw [others, others, same]
  · rw [others, others, none_of fun row inside => written row (after row inside),
      none_of fun row inside => replaced row (before row inside)]

/-! ## The arguments that the repository passes on -/

theorem spread_object (members : Members ν) : spread (some (.object members)) = members := rfl

theorem mem_withTenant (args : Members ν) (member tenantId : String) :
    ("tenantId", .string tenantId) ∈ withTenant args member tenantId := mem_put ..

theorem lookup_withTenant (args : Members ν) (member tenantId : String) :
    (withTenant args member tenantId).lookup "tenantId" = some (.string tenantId) :=
  lookup_put ..

theorem create_scoped (args : Members ν) (tenantId : String) :
    DelegateOp.ScopedTo tenantId
      (.create (put args "data" (.object (withTenant args "data" tenantId)))) := by
  rw [DelegateOp.ScopedTo, lookup_put, spread_object, lookup_withTenant]

theorem where_scoped (args : Members ν) (tenantId : String) :
    ("tenantId", .string tenantId) ∈ spread
      ((put args "where" (.object (withTenant args "where" tenantId))).lookup "where") := by
  rw [lookup_put, spread_object]
  exact mem_withTenant ..

theorem update_scoped (args : Members ν) (tenantId : String) :
    DelegateOp.ScopedTo tenantId (.updateMany (put (put args "data"
      (.object (withTenant args "data" tenantId))) "where"
        (.object (withTenant args "where" tenantId)))) := by
  refine ⟨?_, ?_⟩
  · rw [lookup_put, spread_object]
    exact mem_withTenant ..
  · rw [lookup_put_other _ _ (by decide), lookup_put, spread_object, lookup_withTenant]

/-! ## The calls -/

/-- The rows that a program of the tenant returns are the tenant's. -/
def Returned (tenantOf : ρ → String) (tenantId : String) :
    Except (Failure δ) (List ρ) → Prop
  | .ok returned => ∀ row ∈ returned, tenantOf row = tenantId
  | .error _ => True

/-- The tenant of a context whose id was normalized. -/
structure Normal (tenantId : String) : Prop where
  trimmed : trim tenantId = tenantId
  nonempty : tenantId ≠ ""

theorem getScopedTenantId_bind {α : Type} {context : TenantContext}
    (normal : Normal context.tenantId) (operation : String)
    (f : String → Prog (RepositoryIface ν ρ δ) α) :
    (getScopedTenantId (some context) operation >>= f) = f context.tenantId := by
  have entered : (getScopedTenantId (some context) operation :
      Prog (RepositoryIface ν ρ δ) String) = .pure context.tenantId := by
    simp [getScopedTenantId, normalizeTenantId, normal.trimmed, normal.nonempty, Prog.ofExcept]
  rw [entered]
  rfl

theorem run_under {context : TenantContext} (normal : Normal context.tenantId)
    (call : RepositoryCall ν) :
    (call.run (some context) : Prog (RepositoryIface ν ρ δ) (List ρ)).Under
      (DelegateOp.ScopedTo context.tenantId) (Shows tenantOf context.tenantId)
      (Returned tenantOf context.tenantId) := by
  cases call with
  | create args =>
      simp only [RepositoryCall.run, create, getScopedTenantId_bind normal]
      exact .performBind (create_scoped args _) (fun record shown => shown) fun _ _ => trivial
  | delete args =>
      simp only [RepositoryCall.run, delete, getScopedTenantId_bind normal]
      refine .bind (.performBind (mem_withTenant ..) (fun found shown => ?_) fun _ _ => trivial)
      cases found with
      | none => trivial
      | some existingRecord =>
          exact .performBind (mem_withTenant ..) (fun _ _ => shown) fun _ _ => trivial
  | findFirst args =>
      simp only [RepositoryCall.run, findFirst, getScopedTenantId_bind normal]
      exact .performBind (where_scoped args _) (fun found shown => shown) fun _ _ => trivial
  | findMany args =>
      simp only [RepositoryCall.run, findMany, getScopedTenantId_bind normal]
      refine Prog.Under.perform (I := RepositoryIface ν ρ δ) (o := .findMany
        (put args "where" (.object (withTenant args "where" context.tenantId))))
        (where_scoped args _) fun r shown => ?_
      cases r with
      | ok found => exact shown
      | error e => trivial
  | update args =>
      simp only [RepositoryCall.run, update, getScopedTenantId_bind normal]
      refine .bind (.performBind (update_scoped args _) (fun count _ => ?_) fun _ _ => trivial)
      dsimp only
      split
      · trivial
      · refine .performBind (mem_withTenant ..) (fun found shown => ?_) fun _ _ => trivial
        cases found with
        | none => trivial
        | some updatedRecord => exact shown

theorem run_outside (call : RepositoryCall ν) : ∃ operation,
    (call.run none : Prog (RepositoryIface ν ρ δ) (List ρ)) = .throw (.tenantRequired operation) := by
  cases call with
  | create args => exact ⟨"create", rfl⟩
  | delete args => exact ⟨"delete", rfl⟩
  | findFirst args => exact ⟨"findFirst", rfl⟩
  | findMany args => exact ⟨"findMany", rfl⟩
  | update args => exact ⟨"update", rfl⟩

/-! ## Contexts within contexts -/

/-- The tenant in whose context the call of a request is made, if every context around it has
one. -/
def contextTenant : Option TenantContext → List TenantContext → Option String
  | store, [] => store.map (·.tenantId)
  | _, context :: contexts =>
      if trim context.tenantId = "" then none
      else contextTenant (some { context with tenantId := trim context.tenantId }) contexts

def Request.tenant (request : Request ν) : Option String := contextTenant none request.contexts

theorem normal_trim {text : String} (nonempty : trim text ≠ "") : Normal (trim text) :=
  ⟨trim_trim text, nonempty⟩

/-- The callback of nested contexts runs in the innermost one, or it does not run. -/
theorem runWithin_cases {α : Type}
    (callback : Option TenantContext → Prog (RepositoryIface ν ρ δ) α)
    {store : Option TenantContext} (normal : ∀ context ∈ store, Normal context.tenantId)
    (contexts : List TenantContext) :
    (∃ innermost, contextTenant store contexts = innermost.map TenantContext.tenantId ∧
      (∀ context ∈ innermost, Normal context.tenantId) ∧
      runWithin callback contexts store = callback innermost) ∨
    contextTenant store contexts = none ∧
      ∃ operation, runWithin callback contexts store = .throw (.tenantRequired operation) := by
  induction contexts generalizing store with
  | nil => exact .inl ⟨store, rfl, normal, rfl⟩
  | cons context contexts ih =>
      by_cases blank : trim context.tenantId = ""
      · refine .inr ⟨if_pos blank, "tenant context bootstrap", ?_⟩
        simp [runWithin, runWithTenantContext, normalizeTenantId, blank, Prog.ofExcept]
      · have entered : runWithin callback (context :: contexts) store =
            runWithin callback contexts
              (some { context with tenantId := trim context.tenantId }) := by
          simp [runWithin, runWithTenantContext, normalizeTenantId, blank, Prog.ofExcept]
        rw [entered, contextTenant, if_neg blank]
        refine ih fun inner isInner => ?_
        cases isInner
        exact normal_trim blank

/-! ## Runs -/

/-- What a thread of a request does: nothing outside of a context, and within one only
operations that carry its tenant. -/
def Confined (tenantOf : ρ → String) (request : Request ν)
    (p : Prog (RepositoryIface ν ρ δ) (List ρ)) : Prop :=
  match request.tenant with
  | none => ∃ operation, p = .throw (.tenantRequired operation)
  | some tenantId => p.Under (DelegateOp.ScopedTo tenantId) (Shows tenantOf tenantId)
      (Returned tenantOf tenantId)

theorem program_confined (delegate : Delegate ν ρ κ δ) (tenantOf : ρ → String)
    (request : Request ν) :
    Confined tenantOf request ((repository delegate).program request) := by
  unfold Confined Request.tenant
  rcases runWithin_cases (fun store => request.call.run store)
    (fun _ absent => (Option.not_mem_none _ absent).elim) request.contexts with ⟨innermost, tenant, normal, entered⟩ | ⟨tenant, operation, thrown⟩
  · rw [tenant, show (repository delegate).program request = _ from entered]
    cases innermost with
    | none => exact run_outside request.call
    | some context => exact run_under (normal context rfl) request.call
  · rw [tenant]
    exact ⟨operation, thrown⟩

theorem confined_answer (conjunctive : delegate.Conjunctive tenantOf holds) {request : Request ν}
    {k : (RepositoryIface ν ρ δ).Answer o → Prog (RepositoryIface ν ρ δ) (List ρ)}
    {answer : (RepositoryIface ν ρ δ).Answer o} (confined : Confined tenantOf request (.op o k))
    (answered : delegate.answer o choice rows = (answer, rows')) :
    Confined tenantOf request (k answer) := by
  unfold Confined at confined ⊢
  cases tenant : request.tenant with
  | none =>
      rw [tenant] at confined
      obtain ⟨operation, thrown⟩ := confined
      cases thrown
  | some tenantId =>
      rw [tenant] at confined
      exact confined.2 answer (conjunctive.shows confined.1 answered)

/-- **Repositories keep to their tenant.** In every run of calls, in any contexts and with any
arguments, a call outside of a context has thrown; a call that has returned rows was made in the
context of the tenant of each of them; and an operation that the delegate answers was awaited in
the context of a tenant and leaves the rows of all others as they are. -/
theorem rows_isolated (conjunctive : delegate.Conjunctive tenantOf holds) {store : κ → Option ρ}
    {w : World (RepositoryIface ν ρ δ) (Request ν) (κ → Option ρ)
      (Prog (RepositoryIface ν ρ δ) (List ρ))}
    (reached : (repository delegate).Run (fun _ _ => True) ⟨store, [], []⟩ w) :
    (∀ t ∈ w.threads,
      (t.tag.tenant = none → ∃ operation, t.body = .throw (.tenantRequired operation)) ∧
      ∀ returned, t.body = .pure returned → ∀ row ∈ returned, t.tag.tenant = some (tenantOf row)) ∧
    ∀ i choice w', (repository delegate).step w (.run i choice) = some w' →
      ∃ t tenantId, w.threads[i]? = some t ∧ t.tag.tenant = some tenantId ∧
        others tenantOf tenantId w'.store = others tenantOf tenantId w.store := by
  have confined : ∀ t ∈ w.threads, Confined tenantOf t.tag t.body :=
    reached.threads (P := Confined tenantOf) (program_confined delegate tenantOf)
      (fun confined answered => confined_answer conjunctive confined (Option.some.inj answered))
      fun t absent => (List.not_mem_nil absent).elim
  refine ⟨fun t inside => ⟨fun outside => ?_, fun returned ends row shown => ?_⟩,
    fun i choice w' taken => ?_⟩
  · have holds := confined t inside
    unfold Confined at holds
    rw [outside] at holds
    exact holds
  · have holds := confined t inside
    unfold Confined at holds
    rw [ends] at holds
    cases tenant : t.tag.tenant with
    | none =>
        rw [tenant] at holds
        obtain ⟨operation, thrown⟩ := holds
        cases thrown
    | some tenantId =>
        rw [tenant] at holds
        rw [holds row shown]
  · obtain ⟨t, o, k, answer, rows, found, pending, answered, rfl⟩ := System.step_run taken
    have holds := confined t (List.mem_of_getElem? found)
    unfold Confined at holds
    rw [pending] at holds
    cases tenant : t.tag.tenant with
    | none =>
        rw [tenant] at holds
        obtain ⟨operation, thrown⟩ := holds
        cases thrown
    | some tenantId =>
        rw [tenant] at holds
        exact ⟨t, tenantId, found, tenant,
          conjunctive.others_kept holds.1 (Option.some.inj answered)⟩

/-! ### A small table -/

structure Contact where
  id : String
  tenantId : String
  name : String
deriving DecidableEq

/-- Whether a contact meets a condition; other conditions than equalities on its columns are
met by none. -/
def Contact.satisfies (row : Contact) : String × Value Empty → Bool
  | ("id", .string id) => row.id = id
  | ("tenantId", .string tenantId) => row.tenantId = tenantId
  | ("name", .string name) => row.name = name
  | _ => false

def Contact.meets (row : Contact) (args : Members Empty) : Bool :=
  (spread (args.lookup "where")).all row.satisfies

/-- The text of a column in `data`, or the one that is there. -/
def columnOf (args : Members Empty) (column : String) (current : String) : String :=
  match (spread (args.lookup "data")).lookup column with
  | some (.string text) => text
  | _ => current

def Contact.write (row : Contact) (args : Members Empty) : Contact where
  id := columnOf args "id" row.id
  tenantId := columnOf args "tenantId" row.tenantId
  name := columnOf args "name" row.name

/-- The rows of a table of four places. -/
def contactsOf (rows : Fin 4 → Option Contact) : List Contact := (List.finRange 4).filterMap rows

/-- Contacts are kept in four places, and a new one takes the first that is free. -/
def contacts : Delegate Empty Contact (Fin 4) String where
  Choice := Unit
  answer o _ rows :=
    match o with
    | .create args =>
        match (List.finRange 4).find? fun key => (rows key).isNone with
        | none => (.error (.delegate "full"), rows)
        | some key =>
            let row := Contact.write ⟨"", "", ""⟩ args
            (.ok row, Function.update rows key (some row))
    | .deleteMany args => (.ok ((contactsOf rows).countP (·.meets args)),
        fun key => (rows key).filter fun row => !row.meets args)
    | .findFirst args => (.ok ((contactsOf rows).find? (·.meets args)), rows)
    | .findMany args => (.ok ((contactsOf rows).filter (·.meets args)), rows)
    | .updateMany args => (.ok ((contactsOf rows).countP (·.meets args)),
        fun key => (rows key).map fun row => if row.meets args then row.write args else row)

theorem Contact.carries_write (row : Contact) (args : Members Empty) :
    Carries Contact.tenantId args (row.write args) := by
  intro tenantId given
  simp [Contact.write, columnOf, given]

theorem Contact.meets_iff {row : Contact} {args : Members Empty} :
    row.meets args = true ↔ Meets (fun condition row => Contact.satisfies row condition = true) args
      row := by
  simp [Contact.meets, Meets]

theorem contacts_conjunctive : contacts.Conjunctive Contact.tenantId
    (fun condition row => Contact.satisfies row condition = true) where
  tenantId holds := by simpa [Contact.satisfies] using holds
  returns := by
    intro o choice rows r rows' answered row inside
    cases o with
    | create args =>
        simp only [contacts] at answered
        split at answered
        · cases answered
        · cases answered
          cases List.mem_singleton.mp inside
          exact Contact.carries_write _ args
    | deleteMany args => cases inside
    | findFirst args =>
        cases answered
        exact Contact.meets_iff.mp (by simpa using List.find?_some (Option.mem_toList.mp inside))
    | findMany args =>
        cases answered
        exact Contact.meets_iff.mp (List.mem_filter.mp inside).2
    | updateMany args => cases inside
  writes := by
    intro o choice rows answer rows' answered key
    cases o with
    | create args =>
        simp only [contacts] at answered
        split at answered
        · cases answered
          exact .inl rfl
        · rename_i free found
          cases answered
          have empty : rows free = none := by simpa using List.find?_some found
          by_cases same : key = free
          · subst same
            refine .inr ⟨fun row inside => ?_, fun row inside => ?_⟩
            · rw [empty] at inside
              cases inside
            · rw [Function.update_self] at inside
              cases inside
              exact Contact.carries_write _ args
          · exact .inl (Function.update_of_ne same ..)
    | deleteMany args =>
        cases answered
        cases there : rows key with
        | none => exact .inl (by simp [there])
        | some row =>
            cases met : row.meets args with
            | false => exact .inl (by simp [there, met])
            | true =>
                refine .inr ⟨fun row' inside => ?_, fun row' inside => ?_⟩
                · cases inside
                  exact Contact.meets_iff.mp met
                · have gone : (Option.filter (fun row => !row.meets args) (some row)) = none := by
                    simp [met]
                  dsimp only at inside
                  rw [there, gone] at inside
                  cases inside
    | findFirst args =>
        cases answered
        exact .inl rfl
    | findMany args =>
        cases answered
        exact .inl rfl
    | updateMany args =>
        cases answered
        cases there : rows key with
        | none => exact .inl (by simp [there])
        | some row =>
            cases met : row.meets args with
            | false => exact .inl (by simp [there, met])
            | true =>
                refine .inr ⟨fun row' inside => ?_, fun row' inside => ?_⟩
                · cases inside
                  exact Contact.meets_iff.mp met
                · simp only [there, Option.map_some, met, if_true, Option.mem_some_iff] at inside
                  rw [← inside]
                  exact Contact.carries_write row args

/-- The context of a tenant. -/
def inTenant (tenantId : String) : List TenantContext :=
  [{ tenantId, source := .authenticated }]

/-- Two tenants make a contact with one id; the second then updates it under the first's name
for itself, and lists; a last call is made outside of a context. -/
def twoTenants : List (Act Unit (Request Empty)) :=
  [.env ⟨inTenant "alpha", .create [("data", .object [("id", .string "1"), ("name", .string "A")])]⟩,
   .run 0 (),
   .env ⟨inTenant " beta ", .create [("data", .object [("id", .string "1"), ("name", .string "B"),
     ("tenantId", .string "alpha")])]⟩,
   .run 1 (),
   .env ⟨inTenant "beta", .update [("where", .object [("id", .string "1"),
     ("tenantId", .string "alpha")]), ("data", .object [("name", .string "C")])]⟩,
   .run 2 (), .run 2 (),
   .env ⟨inTenant "beta", .findMany [("where", .object [("tenantId", .string "alpha")])]⟩,
   .run 3 (),
   .env ⟨[], .findMany []⟩]

theorem twoTenants_isolated : ∃ w, (repository contacts).Run (fun _ _ => True)
      ⟨fun _ => none, [], []⟩ w ∧
    contactsOf w.store = [⟨"1", "alpha", "A"⟩, ⟨"1", "beta", "C"⟩] ∧
    (∀ t ∈ w.threads, t.tag.tenant = none → ∃ operation, t.body = .throw (.tenantRequired operation)) ∧
    ∀ t ∈ w.threads, ∀ returned, t.body = .pure returned → ∀ row ∈ returned,
      t.tag.tenant = some row.tenantId := by
  obtain ⟨w, reached, table⟩ : ∃ w, (repository contacts).Run (fun _ _ => True)
      ⟨fun _ => none, [], []⟩ w ∧
      decide (contactsOf w.store = [⟨"1", "alpha", "A"⟩, ⟨"1", "beta", "C"⟩]) = true :=
    System.Run.exists_of_execute (fun _ _ _ => trivial)
      (show ((repository contacts).execute (fun _ _ => true) ⟨fun _ => none, [], []⟩
        twoTenants).any _ = true by decide)
  have kept := (rows_isolated contacts_conjunctive reached).1
  exact ⟨w, reached, of_decide_eq_true table, fun t inside => (kept t inside).1,
    fun t inside => (kept t inside).2⟩

end Tenancy
