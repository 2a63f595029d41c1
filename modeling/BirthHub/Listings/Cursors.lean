import BirthHub.Data.IsoDate
import BirthHub.Data.Pages
import BirthHub.Members.Model

/-!
# Listings by pages

The five listings of the API and of the database package that return pages: the members of an
organization, its audit logs, its invites, the notifications of a user and the invoices of an
organization. Each asks the database for one row more than a page has, from the row of the cursor
on, in an order of its own. Invoices are the ones that are ordered by a value that is not unique.

The database answers each request with the rows in the order that was asked for; how it arranges
rows that tie is a parameter of each request, as are its order of texts and `new Date` of a text.
-/

namespace Listings

open Data Data.Pages
open Members (Role MembershipStatus)

/-! ## Rows -/

structure OrganizationRow where
  id : String
  tenantId : String

structure UserRow where
  email : String
  name : String

structure MembershipRow where
  id : String
  tenantId : String
  organizationId : String
  userId : String
  role : Role
  status : MembershipStatus
  user : UserRow

structure AuditLogRow where
  id : String
  tenantId : String
  actorId : Option String
  action : String
  entityType : String
  entityId : String
  ip : Option String
  userAgent : Option String
  createdAt : Date
  stamped : createdAt.time.isSome

structure InviteRow where
  id : String
  tenantId : String
  organizationId : String
  email : String

structure NotificationRow where
  id : String
  tenantId : String
  userId : String
  content : String
  isRead : Bool
  createdAt : Int

structure InvoiceRow where
  id : String
  organizationId : String
  amountDueCents : Int
  createdAt : Int

/-- A table whose rows have an id, each another one. -/
structure Rows (ρ : Type) (id : ρ → String) where
  rows : List ρ
  distinct : (rows.map id).Nodup
  named : ∀ row ∈ rows, id row ≠ ""

theorem Rows.empty_distinct {ρ : Type} {id : ρ → String} : (([] : List ρ).map id).Nodup := .nil

theorem Rows.empty_named {ρ : Type} {id : ρ → String} : ∀ row ∈ ([] : List ρ), id row ≠ "" :=
  List.forall_mem_nil _

def Rows.empty {ρ : Type} {id : ρ → String} : Rows ρ id :=
  ⟨[], Rows.empty_distinct, Rows.empty_named⟩

structure Database where
  organizations : List OrganizationRow
  memberships : Rows MembershipRow MembershipRow.id
  auditLogs : Rows AuditLogRow AuditLogRow.id
  invites : Rows InviteRow InviteRow.id
  notifications : Rows NotificationRow NotificationRow.id
  invoices : Rows InvoiceRow InvoiceRow.id

inductive ListingError
  /-- A `ProblemDetailsError`. -/
  | problem (status : Nat) (title detail : String)
  /-- Prisma refuses an invalid date. -/
  | validation
deriving DecidableEq

/-! ## Queries -/

/-- `findMany`, with the database's arrangement of the rows that match. -/
def findMany {ρ : Type} (id : ρ → String) (arrange : List ρ → List ρ) (rows : List ρ)
    (where_ : ρ → Bool) (cursor : Option String) (skip take : Nat) : List ρ :=
  ((fromCursor id cursor (arrange (rows.filter where_))).drop skip).take take

/-- A text that is given and not empty. -/
def given (text : Option String) : Option String := text.filter (· ≠ "")

/-- One row more than a page has, after the row of the cursor. -/
def pageQuery {ρ : Type} (id : ρ → String) (arrange : List ρ → List ρ) (rows : List ρ)
    (where_ : ρ → Bool) (cursor : Option String) (take : Nat) : Page ρ :=
  .ofRows id take (findMany id arrange rows where_ (given cursor)
    (if (given cursor).isSome then 1 else 0) (take + 1))

section Queries

variable (db : Database)

def resolveScopedOrganization (organizationId tenantId : String) :
    Except ListingError OrganizationRow :=
  match db.organizations.find? fun row => row.id = organizationId && row.tenantId = tenantId with
  | some organization => .ok organization
  | none => .error (.problem 404 "Not Found"
      "The requested organization was not found for the active tenant.")

structure MemberItem where
  email : String
  id : String
  name : String
  role : Role
  status : MembershipStatus
  userId : String

def MembershipRow.item (membership : MembershipRow) : MemberItem where
  email := membership.user.email
  id := membership.id
  name := membership.user.name
  role := membership.role
  status := membership.status
  userId := membership.userId

def isMember (organizationId tenantId : String) (row : MembershipRow) : Bool :=
  row.organizationId = organizationId && row.tenantId = tenantId

def listMembersForOrganization (arrange : List MembershipRow → List MembershipRow)
    (cursor : Option String) (organizationId : String) (take : Nat) (tenantId : String) :
    Except ListingError (Page MemberItem) := do
  let _ ← resolveScopedOrganization db organizationId tenantId
  return (pageQuery MembershipRow.id arrange db.memberships.rows (isMember organizationId tenantId)
    cursor take).map MembershipRow.item

structure AuditFilter where
  actorId : Option String := none
  entityType : Option String := none
  from_ : Option String := none
  to_ : Option String := none

/-- A bound of `createdAt`, when it is given. -/
def bound (newDate : String → Date) (text : Option String) : Except ListingError (Option Int) :=
  match given text with
  | none => .ok none
  | some text =>
      match (newDate text).time with
      | some time => .ok (some time)
      | none => .error .validation

/-- The `where` of `listAuditLogs`, with the bounds of its dates. -/
def isAudited (filter : AuditFilter) (tenantId : String) (gte lte : Option Int)
    (row : AuditLogRow) : Bool :=
  ((given filter.actorId).all fun actorId => row.actorId = some actorId) &&
  (gte.all fun time => row.createdAt.time.any fun t => time ≤ t) &&
  (lte.all fun time => row.createdAt.time.any fun t => t ≤ time) &&
  ((given filter.entityType).all fun entityType => row.entityType = entityType) &&
  row.tenantId = tenantId

def listAuditLogs (newDate : String → Date) (arrange : List AuditLogRow → List AuditLogRow)
    (filter : AuditFilter) (cursor : Option String) (organizationId : String) (take : Nat)
    (tenantId : String) : Except ListingError (Page AuditLogRow) := do
  let _ ← resolveScopedOrganization db organizationId tenantId
  let gte ← bound newDate filter.from_
  let lte ← bound newDate filter.to_
  return pageQuery AuditLogRow.id arrange db.auditLogs.rows (isAudited filter tenantId gte lte)
    cursor take

def listInvites (arrange : List InviteRow → List InviteRow) (cursor : Option String) (take : Nat)
    (tenantId : String) : Except ListingError (Page InviteRow) :=
  .ok (pageQuery InviteRow.id arrange db.invites.rows (fun row => row.tenantId = tenantId)
    cursor take)

def isNotified (tenantId userId : String) (row : NotificationRow) : Bool :=
  row.tenantId = tenantId && row.userId = userId

/-- `Math.min(Math.max(limit ?? 10, 1), 50)`. -/
def notificationLimit (limit : Option Int) : Nat := (min (max (limit.getD 10) 1) 50).toNat

/-- The page, and `unreadCount`. -/
def listNotifications (arrange : List NotificationRow → List NotificationRow)
    (cursor : Option String) (limit : Option Int) (tenantId userId : String) :
    Page NotificationRow × Nat :=
  (pageQuery NotificationRow.id arrange db.notifications.rows (isNotified tenantId userId) cursor
      (notificationLimit limit),
    db.notifications.rows.countP fun row => !row.isRead && isNotified tenantId userId row)

def findOrganizationByReference (organizationReference : String) : Option OrganizationRow :=
  db.organizations.find? fun row =>
    row.id = organizationReference || row.tenantId = organizationReference

def listInvoicesForOrganization (arrange : List InvoiceRow → List InvoiceRow)
    (cursor : Option String) (organizationReference : String) (take : Nat) :
    Except ListingError (Page InvoiceRow) :=
  match findOrganizationByReference db organizationReference with
  | none => .error (.problem 404 "Not Found" "Organization not found while listing invoices.")
  | some organization =>
      .ok (pageQuery InvoiceRow.id arrange db.invoices.rows
        (fun row => row.organizationId = organization.id) cursor take)

end Queries

/-! ## Orders -/

/-- The order of texts in the database. -/
structure Collation where
  le : String → String → Prop
  isOrder : IsOrder le
  antisymm : ∀ a b, le a b → le b a → a = b

variable (collation : Collation)

/-- `orderBy: { id: "asc" }`. -/
def byId {ρ : Type} (id : ρ → String) (a b : ρ) : Prop := collation.le (id a) (id b)

/-- `orderBy: [{ createdAt: "desc" }, { id: "desc" }]`. -/
def newestFirst (a b : NotificationRow) : Prop :=
  b.createdAt < a.createdAt ∨ b.createdAt = a.createdAt ∧ collation.le b.id a.id

/-- `orderBy: { createdAt: "desc" }`. -/
def latestFirst (a b : InvoiceRow) : Prop := b.createdAt ≤ a.createdAt

/-- Each answer of the database has the rows that match in the order that is asked for. -/
def Answers {ρ : Type} (le : ρ → ρ → Prop) (rows : List ρ) (where_ : ρ → Bool)
    (arrange : Nat → List ρ → List ρ) : Prop :=
  ∀ k, Arranged le (rows.filter where_) (arrange k (rows.filter where_))

/-- Following the cursors of each listing returns each row that matches once, whatever the size of
the pages and however ties are arranged. -/
structure AllCovered (newDate : String → Date) (db : Database) : Prop where
  members : ∀ organizationId tenantId take arrange organization, 1 ≤ take →
    resolveScopedOrganization db organizationId tenantId = .ok organization →
    Answers (byId collation MembershipRow.id) db.memberships.rows (isMember organizationId tenantId)
      arrange →
    Covers (fun k cursor =>
        listMembersForOrganization db (arrange k) cursor organizationId take tenantId)
      ((db.memberships.rows.filter (isMember organizationId tenantId)).map MembershipRow.item)
  auditLogs : ∀ (filter : AuditFilter) organizationId tenantId take arrange organization gte lte,
    1 ≤ take → resolveScopedOrganization db organizationId tenantId = .ok organization →
    bound newDate filter.from_ = .ok gte → bound newDate filter.to_ = .ok lte →
    Answers (byId collation AuditLogRow.id) db.auditLogs.rows (isAudited filter tenantId gte lte)
      arrange →
    Covers (fun k cursor =>
        listAuditLogs db newDate (arrange k) filter cursor organizationId take tenantId)
      (db.auditLogs.rows.filter (isAudited filter tenantId gte lte))
  invites : ∀ tenantId take arrange, 1 ≤ take →
    Answers (byId collation InviteRow.id) db.invites.rows (fun row => row.tenantId = tenantId)
      arrange →
    Covers (fun k cursor => listInvites db (arrange k) cursor take tenantId)
      (db.invites.rows.filter fun row => row.tenantId = tenantId)
  notifications : ∀ limit tenantId userId arrange,
    Answers (newestFirst collation) db.notifications.rows (isNotified tenantId userId) arrange →
    Covers (fun k cursor => (.ok (listNotifications db (arrange k) cursor limit tenantId userId).1 :
        Except ListingError (Page NotificationRow)))
      (db.notifications.rows.filter (isNotified tenantId userId))
  invoices : ∀ organizationReference take arrange organization, 1 ≤ take →
    findOrganizationByReference db organizationReference = some organization →
    Answers latestFirst db.invoices.rows (fun row => row.organizationId = organization.id) arrange →
    Covers (fun k cursor =>
        listInvoicesForOrganization db (arrange k) cursor organizationReference take)
      (db.invoices.rows.filter fun row => row.organizationId = organization.id)

/-- No two invoices that are listed together were made at the same time. -/
def InvoicesApart (db : Database) : Prop :=
  ∀ organizationReference organization,
    findOrganizationByReference db organizationReference = some organization →
    ∀ a ∈ db.invoices.rows, ∀ b ∈ db.invoices.rows, a.organizationId = organization.id →
      b.organizationId = organization.id → a.createdAt = b.createdAt → a = b

/-! ## What is covered -/

section Covered

variable {collation} {ρ σ ε : Type} {id : ρ → String} {le : ρ → ρ → Prop} {where_ : ρ → Bool}

theorem pageQuery_eq {arrange : List ρ → List ρ} {rows : List ρ} {cursor : Option String}
    {take : Nat} (named : cursor ≠ some "") :
    pageQuery id arrange rows where_ cursor take =
      pageAfter id take (arrange (rows.filter where_)) cursor := by
  have same : given cursor = cursor := by
    cases cursor with
    | none => rfl
    | some text => exact Option.filter_some_pos (by simpa using named)
  rw [pageQuery, same]
  rfl

/-- A listing in an order without ties among the rows that match covers them. -/
theorem Rows.covers {request : Nat → Option String → Except ε (Page σ)} {item : ρ → σ} {take : Nat}
    {arrange : Nat → List ρ → List ρ} (table : Rows ρ id) (size : 1 ≤ take)
    (answers : Answers le table.rows where_ arrange)
    (untied : ∀ a ∈ table.rows, ∀ b ∈ table.rows, where_ a = true → where_ b = true →
      le a b → le b a → a = b)
    (asks : ∀ k cursor, request k cursor =
      .ok ((pageQuery id (arrange k) table.rows where_ cursor take).map item)) :
    Covers request ((table.rows.filter where_).map item) := by
  have named : ∀ row ∈ table.rows.filter where_, id row ≠ "" := fun row inside =>
    table.named row (List.mem_filter.mp inside).1
  refine covers_of_untied size named ?_ ?_ answers fun k cursor named => ?_
  · exact table.distinct.sublist (List.filter_sublist.map id)
  · intro a inside b inside'
    obtain ⟨here, matched⟩ := List.mem_filter.mp inside
    obtain ⟨here', matched'⟩ := List.mem_filter.mp inside'
    exact untied a here b here' matched matched'
  · rw [asks, pageQuery_eq named]

theorem Rows.eq_of_id {a b : ρ} (table : Rows ρ id) (here : a ∈ table.rows) (here' : b ∈ table.rows)
    (same : id a = id b) : a = b :=
  List.inj_on_of_nodup_map table.distinct here here' same

theorem Rows.untied_byId {a b : ρ} (table : Rows ρ id) (here : a ∈ table.rows)
    (here' : b ∈ table.rows) (below : byId collation id a b) (above : byId collation id b a) :
    a = b :=
  table.eq_of_id here here' (collation.antisymm _ _ below above)

theorem Rows.covers_rows {request : Nat → Option String → Except ε (Page ρ)} {take : Nat}
    {arrange : Nat → List ρ → List ρ} (table : Rows ρ id) (size : 1 ≤ take)
    (answers : Answers le table.rows where_ arrange)
    (untied : ∀ a ∈ table.rows, ∀ b ∈ table.rows, where_ a = true → where_ b = true →
      le a b → le b a → a = b)
    (asks : ∀ k cursor, request k cursor =
      .ok (pageQuery id (arrange k) table.rows where_ cursor take)) :
    Covers request (table.rows.filter where_) := by
  have same (page : Page ρ) : page.map (fun row => row) = page := by rw [Page.map, List.map_id']
  rw [← List.map_id' (table.rows.filter where_)]
  exact table.covers size answers untied fun k cursor => by rw [asks, same]

end Covered

section Each

variable {collation} {newDate : String → Date} {db : Database}

theorem isOrder_latestFirst : IsOrder latestFirst where
  total a b := le_total b.createdAt a.createdAt
  trans _ _ _ first second := le_trans second first

theorem one_le_notificationLimit (limit : Option Int) : 1 ≤ notificationLimit limit := by
  unfold notificationLimit
  omega

/-- Invoices that tie are not covered by pages of one. -/
theorem invoicesApart_of_covered (covered : AllCovered collation newDate db) : InvoicesApart db := by
  intro organizationReference organization found a here b here' own own' tie
  by_contra differ
  let where_ (row : InvoiceRow) : Bool := row.organizationId = organization.id
  have inside : a ∈ db.invoices.rows.filter where_ := List.mem_filter.mpr ⟨here, by simp [where_, own]⟩
  have inside' : b ∈ db.invoices.rows.filter where_ :=
    List.mem_filter.mpr ⟨here', by simp [where_, own']⟩
  obtain ⟨arranged, asked, missed⟩ := isOrder_latestFirst.exists_uncovered
    (fun row there => db.invoices.named row (List.mem_filter.mp there).1)
    (db.invoices.distinct.sublist (List.filter_sublist.map InvoiceRow.id)) inside inside' differ
    tie.ge tie.le
  refine missed _ (fun k cursor named => ?_)
    (covered.invoices organizationReference 1 (fun k _ => arranged k) organization (le_refl 1) found
      asked)
  simp only [listInvoicesForOrganization, found]
  exact congrArg Except.ok (pageQuery_eq named)

/-- **When the pages cover their lists.** Just when no two invoices of an organization were made at
the same time; the other listings cover theirs in any case. -/
theorem allCovered_iff (collation : Collation) (newDate : String → Date) (db : Database) :
    AllCovered collation newDate db ↔ InvoicesApart db := by
  refine ⟨invoicesApart_of_covered, fun apart => ⟨?_, ?_, ?_, ?_, ?_⟩⟩
  · intro organizationId tenantId take arrange organization size found answers
    refine db.memberships.covers size answers (fun a here b here' _ _ below above =>
      db.memberships.untied_byId here here' below above) fun k cursor => ?_
    simp only [listMembersForOrganization, found]
    rfl
  · intro filter organizationId tenantId take arrange organization gte lte size found after before
      answers
    refine db.auditLogs.covers_rows size answers (fun a here b here' _ _ below above =>
      db.auditLogs.untied_byId here here' below above) fun k cursor => ?_
    simp only [listAuditLogs, found, after, before]
    rfl
  · intro tenantId take arrange size answers
    exact db.invites.covers_rows size answers (fun a here b here' _ _ below above =>
      db.invites.untied_byId here here' below above) fun k cursor => rfl
  · intro limit tenantId userId arrange answers
    refine db.notifications.covers_rows (one_le_notificationLimit limit) answers
      (fun a here b here' _ _ below above => ?_) fun k cursor => rfl
    rcases below with earlier | ⟨same, below⟩
    · rcases above with later | ⟨same, _⟩
      · exact absurd later (not_lt_of_gt earlier)
      · exact absurd same.symm earlier.ne
    · rcases above with later | ⟨_, above⟩
      · exact absurd same later.ne'
      · exact db.notifications.eq_of_id here here' (collation.antisymm _ _ above below)
  · intro organizationReference take arrange organization size found answers
    refine db.invoices.covers_rows size answers (fun a here b here' own own' below above => ?_)
      fun k cursor => ?_
    · exact apart organizationReference organization found a here b here' (of_decide_eq_true own)
        (of_decide_eq_true own') (le_antisymm above below)
    · simp only [listInvoicesForOrganization, found]

/-- Two invoices that were made at once, with pages of one. -/
def twoInvoices : Database where
  organizations := [⟨"org", "tenant"⟩]
  memberships := .empty
  auditLogs := .empty
  invites := .empty
  notifications := .empty
  invoices := ⟨[⟨"a", "org", 100, 7⟩, ⟨"b", "org", 200, 7⟩], by decide, by decide⟩

def codePoints : Collation where
  le a b := a ≤ b
  isOrder := ⟨fun a b => le_total a b, fun _ _ _ first second => le_trans first second⟩
  antisymm _ _ below above := le_antisymm below above

theorem twoInvoices_uncovered : ¬AllCovered codePoints Date.parse twoInvoices := by
  intro covered
  have apart := invoicesApart_of_covered covered "org" ⟨"org", "tenant"⟩ rfl ⟨"a", "org", 100, 7⟩
    (by simp [twoInvoices]) ⟨"b", "org", 200, 7⟩ (by simp [twoInvoices]) rfl rfl rfl
  exact absurd (congrArg InvoiceRow.id apart) (by decide)

end Each

end Listings
