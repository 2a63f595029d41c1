import BirthHub.Data.Decimals
import BirthHub.Data.Grouping
import BirthHub.Data.UtcDays

/-!
# The daily export of invoices

`exportDailyBillingInvoices` of `apps/worker/src/jobs/billingExport.ts` uploads the invoices of the
day before, one document for each organization. The body of an upload stands for its JSON text. The
order that the database gives to rows with a tenant, an organization and a time is a parameter.
-/

namespace BillingExport

open Data

/-! ## The code -/

/-- A valid `Date`. -/
abbrev Instant := { t : Int // t.natAbs ≤ Date.maxTime }

def Instant.toISOString (instant : Instant) : String := String.ofList (Date.isoText instant.1)

structure Organization where
  id : String
  name : String
  slug : String
  tenantId : String
deriving DecidableEq

structure Subscription where
  id : String
  planId : String
  status : String
deriving DecidableEq

structure Invoice where
  id : String
  organizationId : String
  amountDueCents : Int
  amountPaidCents : Int
  createdAt : Instant
  currency : String
  dueDate : Option Instant
  hostedInvoiceUrl : Option String
  invoicePdfUrl : Option String
  periodEnd : Option Instant
  periodStart : Option Instant
  status : String
  stripeInvoiceId : String
  subscription : Option Subscription

/-- The rows of the database. An invoice refers to an organization, whose id the database made, so
that no slash is in it. -/
structure Ledger where
  organizations : List Organization
  invoices : List Invoice
  distinctOrganizations : (organizations.map (·.id)).Nodup
  distinctInvoices : (invoices.map (·.id)).Nodup
  referred : ∀ invoice ∈ invoices, invoice.organizationId ∈ organizations.map (·.id)
  slashless : ∀ organization ∈ organizations, '/' ∉ organization.id.toList

def Ledger.organization (ledger : Ledger) (id : String) : Option Organization :=
  ledger.organizations.find? (·.id = id)

/-- An invoice as the document has it. -/
structure InvoiceLine where
  amountDueCents : Int
  amountPaidCents : Int
  createdAt : String
  currency : String
  dueDate : Option String
  hostedInvoiceUrl : Option String
  id : String
  invoicePdfUrl : Option String
  periodEnd : Option String
  periodStart : Option String
  status : String
  stripeInvoiceId : String
  subscription : Option Subscription
deriving DecidableEq

def Invoice.line (invoice : Invoice) : InvoiceLine where
  amountDueCents := invoice.amountDueCents
  amountPaidCents := invoice.amountPaidCents
  createdAt := invoice.createdAt.toISOString
  currency := invoice.currency
  dueDate := invoice.dueDate.map Instant.toISOString
  hostedInvoiceUrl := invoice.hostedInvoiceUrl
  id := invoice.id
  invoicePdfUrl := invoice.invoicePdfUrl
  periodEnd := invoice.periodEnd.map Instant.toISOString
  periodStart := invoice.periodStart.map Instant.toISOString
  status := invoice.status
  stripeInvoiceId := invoice.stripeInvoiceId
  subscription := invoice.subscription

structure Totals where
  amountDueCents : Int
  amountPaidCents : Int
deriving DecidableEq

structure WindowText where
  day : String
  windowEnd : String
  start : String
deriving DecidableEq

structure Payload where
  exportedAt : String
  invoices : List InvoiceLine
  invoiceCount : Nat
  organization : Organization
  totals : Totals
  window : WindowText
deriving DecidableEq

structure BillingExportUploadInput where
  body : Payload
  contentType : String
  key : String
deriving DecidableEq

/-- Where an upload is stored, unless it is rejected. -/
abbrev BillingExportStorage := BillingExportUploadInput → Option String

structure Exported where
  invoiceCount : Nat
  organizationId : String
  storageUrl : String
  tenantId : String

structure Window where
  day : String
  windowEnd : Instant
  start : Instant

def Window.text (window : Window) : WindowText :=
  ⟨window.day, window.windowEnd.toISOString, window.start.toISOString⟩

structure ExportResult where
  exportedAt : String
  exports : List Exported
  window : WindowText

def startOfUtcDay (date : Date) : Date :=
  date.time.elim .invalid fun t => .ofTime (Date.utc (Date.dayOfNumber (t / Date.dayMillis)))

/-- `date.setUTCDate(date.getUTCDate() - 1)`. -/
def dayBefore (date : Date) : Date :=
  date.time.elim .invalid fun t =>
    let day := Date.dayOfNumber (t / Date.dayMillis)
    .ofTime (Date.numberOfDay { day with day := day.day - 1 } * Date.dayMillis +
      t % Date.dayMillis)

/-- A valid date as an instant; where the code prints an invalid one it throws. -/
def instantOf (date : Date) : Option Instant :=
  match date with
  | ⟨some t, inRange⟩ => some ⟨t, inRange t rfl⟩
  | ⟨none, _⟩ => none

def resolveBillingExportWindow (now : Date) : Option Window := do
  let windowEnd := startOfUtcDay now
  let start ← instantOf (dayBefore windowEnd)
  let windowEnd ← instantOf windowEnd
  pure { day := String.ofList ((Date.isoText start.1).take 10), windowEnd, start }

variable (order : Invoice → Invoice → Bool) (storage : BillingExportStorage) (ledger : Ledger)

/-- The invoices of the window. -/
def findMany (window : Window) : List Invoice :=
  (ledger.invoices.filter fun invoice => window.start.1 ≤ invoice.createdAt.1 &&
    decide (invoice.createdAt.1 < window.windowEnd.1)).mergeSort order

def documentOf (exportedAt : String) (window : Window) (organization : Organization)
    (invoices : List Invoice) : BillingExportUploadInput where
  body := {
    exportedAt
    invoices := invoices.map Invoice.line
    invoiceCount := invoices.length
    organization
    totals := {
      amountDueCents := invoices.foldl (fun sum invoice => sum + invoice.amountDueCents) 0
      amountPaidCents := invoices.foldl (fun sum invoice => sum + invoice.amountPaidCents) 0 }
    window := window.text }
  contentType := "application/json"
  key := window.day ++ "/" ++ organization.tenantId ++ "/" ++ organization.id ++ ".json"

/-- The upload of a group; its organization comes with its first invoice. -/
def uploadOf (exportedAt : String) (window : Window) (invoices : List Invoice) :
    Option BillingExportUploadInput := do
  let first ← invoices.head?
  let organization ← ledger.organization first.organizationId
  pure (documentOf exportedAt window organization invoices)

/-- The loop over the groups: what was uploaded, and what it returns unless an upload fails. -/
def uploadGroups (exportedAt : String) (window : Window) :
    List (List Invoice) → List BillingExportUploadInput × Option (List Exported)
  | [] => ([], some [])
  | invoices :: groups =>
      match uploadOf ledger exportedAt window invoices with
      | none => uploadGroups exportedAt window groups
      | some input =>
          match storage input with
          | none => ([], none)
          | some storageUrl =>
              let (uploads, exported) := uploadGroups exportedAt window groups
              (input :: uploads, exported.map fun exported => {
                invoiceCount := input.body.invoiceCount
                organizationId := input.body.organization.id
                storageUrl
                tenantId := input.body.organization.tenantId } :: exported)

def exportDailyBillingInvoices (now : Date) :
    List BillingExportUploadInput × Option ExportResult :=
  match instantOf now, resolveBillingExportWindow now with
  | some now, some window =>
      let grouped := OrderedMap.groupBy (·.organizationId) (findMany order ledger window)
      let exportedAt := Instant.toISOString now
      let (uploads, exported) := uploadGroups storage ledger exportedAt window grouped.values
      (uploads, exported.map fun exports => { exportedAt, exports, window := window.text })
  | _, _ => ([], none)

/-! ## The nights -/

/-- The number of the UTC day of an instant. -/
def Instant.day (instant : Instant) : Int := instant.1 / Date.dayMillis

/-- Runs at some instant of each of the days after a first one. -/
structure Nights where
  first : Int
  count : Nat
  now : Nat → Instant
  onDay : ∀ k < count, (now k).day = first + k + 1
  inRange : -100000000 ≤ first

namespace Nights

variable (nights : Nights)

def run (k : Nat) : List BillingExportUploadInput × Option ExportResult :=
  exportDailyBillingInvoices order storage ledger ⟨some (nights.now k).1, fun _ same =>
    Option.some.inj same ▸ (nights.now k).2⟩

/-- All that is uploaded, run by run. -/
def uploads : List BillingExportUploadInput :=
  (List.range nights.count).flatMap fun k => (nights.run order storage ledger k).1

end Nights

/-- The key of the creation day and the organization of an invoice. -/
def creationKey (organization : Organization) (invoice : Invoice) : String :=
  String.ofList (Date.dayText invoice.createdAt.day) ++ "/" ++ organization.tenantId ++ "/" ++
    organization.id ++ ".json"

/-- The documents are a partition of the invoices of the days. -/
structure Partition (nights : Nights) (uploads : List BillingExportUploadInput) : Prop where
  each : ∀ invoice ∈ ledger.invoices,
    nights.first ≤ invoice.createdAt.day → invoice.createdAt.day < nights.first + nights.count →
      ∃ organization upload, ledger.organization invoice.organizationId = some organization ∧
        upload ∈ uploads ∧ upload.key = creationKey organization invoice ∧
        invoice.line ∈ upload.body.invoices ∧
        ∀ other ∈ uploads, invoice.id ∈ other.body.invoices.map (·.id) → other = upload
  keys : (uploads.map (·.key)).Nodup
  once : ∀ upload ∈ uploads, (upload.body.invoices.map (·.id)).Nodup
  count : ∀ upload ∈ uploads, upload.body.invoiceCount = upload.body.invoices.length
  due : ∀ upload ∈ uploads, upload.body.totals.amountDueCents =
    (upload.body.invoices.map (·.amountDueCents)).sum
  paid : ∀ upload ∈ uploads, upload.body.totals.amountPaidCents =
    (upload.body.invoices.map (·.amountPaidCents)).sum

/-- The years of a day for which a run exports it under its date. -/
def isExported (day : Int) : Bool :=
  0 ≤ (Date.dayOfNumber day).year && decide ((Date.dayOfNumber day).year ≤ 9999) &&
    ! decide (0 ≤ (Date.dayOfNumber (day + 1)).year ∧ (Date.dayOfNumber (day + 1)).year ≤ 99)

/-- Where no upload fails, the documents are a partition. -/
def Nights.Exports (nights : Nights) : Prop :=
  ∀ (order : Invoice → Invoice → Bool) (storage : BillingExportStorage) (ledger : Ledger),
    (∀ k < nights.count, (nights.run order storage ledger k).2.isSome) →
      Partition ledger nights (nights.uploads order storage ledger)

/-! ## The window -/

section

variable {now : Instant} {day : Int}

/-- The day that a run on a day exports. -/
def windowDay (day : Int) : Int := Date.utc (Date.dayOfNumber day) / Date.dayMillis - 1

theorem windowDay_of_year
    (years : ¬ (0 ≤ (Date.dayOfNumber day).year ∧ (Date.dayOfNumber day).year ≤ 99)) :
    windowDay day = day - 1 := by
  rw [windowDay, Date.utc_dayOfNumber years, Int.mul_ediv_cancel _ (by decide)]

theorem windowDay_shifted
    (years : 0 ≤ (Date.dayOfNumber day).year ∧ (Date.dayOfNumber day).year ≤ 99) :
    -25568 ≤ windowDay day ∧ windowDay day < 11000 := by
  obtain ⟨shifted, start, low, high⟩ := Date.utc_of_shifted years
  rw [windowDay, start, Int.mul_ediv_cancel _ (by decide)]
  omega

theorem utc_eq : Date.utc (Date.dayOfNumber day) = (windowDay day + 1) * Date.dayMillis := by
  rw [windowDay, Int.sub_add_cancel, Date.utc, Int.mul_ediv_cancel _ (by decide)]

/-- The day before is a date too. -/
theorem windowDay_inRange (early : -100000000 < now.day) :
    (windowDay now.day * Date.dayMillis).natAbs ≤ Date.maxTime ∧
      ((windowDay now.day + 1) * Date.dayMillis).natAbs ≤ Date.maxTime := by
  have inRange := now.2
  simp only [Instant.day, Date.maxTime, Date.dayMillis] at early inRange ⊢
  by_cases years : 0 ≤ (Date.dayOfNumber now.day).year ∧ (Date.dayOfNumber now.day).year ≤ 99
  · have bounds := windowDay_shifted years
    simp only [Instant.day, Date.dayMillis] at bounds
    omega
  · have same := windowDay_of_year years
    simp only [Instant.day, Date.dayMillis] at same
    omega

theorem numberOfDay_pred {date : Date.Day} :
    Date.numberOfDay { date with day := date.day - 1 } = Date.numberOfDay date - 1 := by
  simp only [Date.numberOfDay]
  omega

theorem instantOf_ofTime {t : Int} (inRange : t.natAbs ≤ Date.maxTime) :
    instantOf (.ofTime t) = some ⟨t, inRange⟩ := by
  rw [Date.ofTime, dif_pos inRange]
  rfl

def windowOf (now : Instant) (early : -100000000 < now.day) : Window where
  day := String.ofList ((Date.isoText (windowDay now.day * Date.dayMillis)).take 10)
  windowEnd := ⟨(windowDay now.day + 1) * Date.dayMillis, (windowDay_inRange early).2⟩
  start := ⟨windowDay now.day * Date.dayMillis, (windowDay_inRange early).1⟩

theorem resolveBillingExportWindow_eq (early : -100000000 < now.day)
    (inRange : ∀ t ∈ some now.1, t.natAbs ≤ Date.maxTime) :
    resolveBillingExportWindow ⟨some now.1, inRange⟩ = some (windowOf now early) := by
  obtain ⟨valid, valid'⟩ := windowDay_inRange early
  have start : startOfUtcDay ⟨some now.1, inRange⟩ =
      .ofTime ((windowDay now.day + 1) * Date.dayMillis) := congrArg Date.ofTime utc_eq
  have time : (Date.ofTime ((windowDay now.day + 1) * Date.dayMillis)).time =
      some ((windowDay now.day + 1) * Date.dayMillis) := Date.ofTime_time valid'
  have before : dayBefore (.ofTime ((windowDay now.day + 1) * Date.dayMillis)) =
      .ofTime (windowDay now.day * Date.dayMillis) := by
    rw [dayBefore, time]
    refine congrArg Date.ofTime ?_
    rw [numberOfDay_pred, Int.mul_ediv_cancel _ (by decide), Date.numberOfDay_dayOfNumber,
      Int.mul_emod_left, Int.add_zero, Int.add_sub_cancel]
  rw [resolveBillingExportWindow, start, before, instantOf_ofTime valid, instantOf_ofTime valid']
  rfl

variable {order : Invoice → Invoice → Bool} {ledger : Ledger} {invoice : Invoice}

theorem mem_findMany {early : -100000000 < now.day} :
    invoice ∈ findMany order ledger (windowOf now early) ↔
      invoice ∈ ledger.invoices ∧ invoice.createdAt.day = windowDay now.day := by
  rw [findMany, (List.mergeSort_perm _ _).mem_iff, List.mem_filter, Bool.and_eq_true,
    decide_eq_true_eq, decide_eq_true_eq]
  refine and_congr_right fun _ => ?_
  simp only [windowOf, Instant.day, Date.dayMillis]
  omega

end

/-! ## The documents of a run -/

section

variable {order : Invoice → Invoice → Bool} {storage : BillingExportStorage} {ledger : Ledger}
  {exportedAt : String} {window window' : Window} {organization organization' : Organization}
  {invoice invoice' : Invoice} {group : List Invoice} {id : String} {now : Instant}

theorem organization_of_mem (inside : invoice ∈ ledger.invoices) : ∃ organization,
    ledger.organization invoice.organizationId = some organization ∧
      organization.id = invoice.organizationId ∧ '/' ∉ organization.id.toList := by
  obtain ⟨organization, there, same⟩ := List.mem_map.mp (ledger.referred invoice inside)
  cases found : ledger.organization invoice.organizationId with
  | none =>
      have missing := List.find?_eq_none.mp found organization there
      exact absurd (decide_eq_true same) missing
  | some other =>
      rw [Ledger.organization] at found
      have own := List.find?_some found
      exact ⟨other, rfl, of_decide_eq_true own,
        ledger.slashless other (List.mem_of_find?_eq_some found)⟩

theorem uploads_of_returned {groups : List (List Invoice)}
    (returned : (uploadGroups storage ledger exportedAt window groups).2.isSome) :
    (uploadGroups storage ledger exportedAt window groups).1 =
      groups.filterMap (uploadOf ledger exportedAt window) := by
  induction groups with
  | nil => rfl
  | cons invoices groups ih =>
      rw [List.filterMap_cons]
      rw [uploadGroups] at returned ⊢
      cases input : uploadOf ledger exportedAt window invoices with
      | none =>
          rw [input] at returned
          exact ih returned
      | some input' =>
          rw [input] at returned
          simp only at returned ⊢
          cases stored : storage input' with
          | none =>
              rw [stored] at returned
              cases returned
          | some storageUrl =>
              rw [stored] at returned
              exact congrArg (input' :: ·) (ih (by simpa using returned))

theorem uploadGroups_returns {groups : List (List Invoice)}
    (takes : ∀ input, (storage input).isSome) :
    (uploadGroups storage ledger exportedAt window groups).2.isSome := by
  induction groups with
  | nil => rfl
  | cons invoices groups ih =>
      rw [uploadGroups]
      cases uploadOf ledger exportedAt window invoices with
      | none => exact ih
      | some input =>
          obtain ⟨storageUrl, stored⟩ := Option.isSome_iff_exists.mp (takes input)
          simp only [stored]
          simpa using ih

/-- The invoices of the window by organization. -/
abbrev grouped (order : Invoice → Invoice → Bool) (ledger : Ledger) (window : Window) :
    OrderedMap String (List Invoice) :=
  OrderedMap.groupBy (·.organizationId) (findMany order ledger window)

theorem mem_of_group (inside : (id, group) ∈ (grouped order ledger window).entries)
    (there : invoice ∈ group) :
    invoice ∈ findMany order ledger window ∧ invoice.organizationId = id := by
  obtain ⟨same, _⟩ := OrderedMap.group_of_entry inside
  rw [same] at there
  obtain ⟨listed, named⟩ := List.mem_filter.mp there
  exact ⟨listed, of_decide_eq_true named⟩

theorem mem_invoices_of_findMany (listed : invoice ∈ findMany order ledger window) :
    invoice ∈ ledger.invoices :=
  (List.mem_filter.mp ((List.mergeSort_perm _ _).mem_iff.mp listed)).1

theorem uploadOf_group (inside : (id, group) ∈ (grouped order ledger window).entries) :
    ∃ organization, ledger.organization id = some organization ∧ organization.id = id ∧
      '/' ∉ organization.id.toList ∧
      uploadOf ledger exportedAt window group =
        some (documentOf exportedAt window organization group) := by
  obtain ⟨same, some'⟩ := OrderedMap.group_of_entry inside
  cases group with
  | nil => exact absurd rfl some'
  | cons first rest =>
      obtain ⟨listed, named⟩ := mem_of_group inside List.mem_cons_self
      obtain ⟨organization, found, own, slashless⟩ :=
        organization_of_mem (mem_invoices_of_findMany listed)
      refine ⟨organization, named ▸ found, own.trans named, slashless, ?_⟩
      rw [uploadOf, List.head?_cons, Option.bind_eq_bind, Option.bind_some, Option.bind_eq_bind,
        found]
      rfl

theorem nodup_group (inside : (id, group) ∈ (grouped order ledger window).entries) :
    (group.map (·.id)).Nodup := by
  obtain ⟨same, _⟩ := OrderedMap.group_of_entry inside
  rw [same]
  refine List.Nodup.sublist (List.filter_sublist.map _) ?_
  refine ((List.mergeSort_perm _ _).map _).nodup_iff.mpr ?_
  exact ledger.distinctInvoices.sublist (List.filter_sublist.map _)

theorem invoice_eq (inside : invoice ∈ ledger.invoices) (inside' : invoice' ∈ ledger.invoices)
    (same : invoice.id = invoice'.id) : invoice = invoice' :=
  List.inj_on_of_nodup_map ledger.distinctInvoices inside inside' same

theorem key_inj (length : window.day.toList.length = window'.day.toList.length)
    (slashless : '/' ∉ organization.id.toList) (slashless' : '/' ∉ organization'.id.toList)
    {invoices invoices' : List Invoice} {exportedAt' : String}
    (same : (documentOf exportedAt window organization invoices).key =
      (documentOf exportedAt' window' organization' invoices').key) :
    window.day = window'.day ∧ organization.id = organization'.id := by
  have chars := congrArg String.toList same
  simp only [documentOf, String.toList_append, List.append_assoc] at chars
  obtain ⟨days, rest⟩ := List.append_inj chars length
  have whole : (organization.tenantId.toList ++ '/' :: organization.id.toList) ++ ".json".toList =
      (organization'.tenantId.toList ++ '/' :: organization'.id.toList) ++ ".json".toList := by
    simpa using List.append_cancel_left rest
  have keys := List.append_cancel_right whole
  exact ⟨String.toList_inj.mp days,
    String.toList_inj.mp (append_last_inj slashless slashless' keys).2⟩

end

/-! ## Ledgers of one organization -/

/-- One invoice of an organization. -/
def oneInvoice (createdAt : Instant) : Invoice where
  id := "invoice"
  organizationId := "organization"
  amountDueCents := 14900
  amountPaidCents := 14900
  createdAt := createdAt
  currency := "usd"
  dueDate := none
  hostedInvoiceUrl := none
  invoicePdfUrl := none
  periodEnd := none
  periodStart := none
  status := "paid"
  stripeInvoiceId := "in"
  subscription := none

def alpha : Organization := ⟨"organization", "Alpha Corp", "alpha-corp", "tenant"⟩

theorem alpha_slashless : ∀ organization ∈ [alpha], '/' ∉ organization.id.toList := by decide

def oneLedger (createdAt : Instant) : Ledger where
  organizations := [alpha]
  invoices := [oneInvoice createdAt]
  distinctOrganizations := List.nodup_singleton _
  distinctInvoices := List.nodup_singleton _
  referred _ listed := List.mem_singleton.mp listed ▸ List.mem_singleton.mpr rfl
  slashless := alpha_slashless

/-! ## The runs of the nights -/

namespace Nights

variable {nights : Nights} {order : Invoice → Invoice → Bool} {storage : BillingExportStorage}
  {ledger : Ledger} {k : Nat}

theorem early (inside : k < nights.count) : -100000000 < (nights.now k).day := by
  rw [nights.onDay k inside]
  have inRange := nights.inRange
  omega

/-- The day that run `k` exports. -/
def exported (nights : Nights) (k : Nat) : Int := windowDay (nights.now k).day

theorem run_uploads (inside : k < nights.count)
    (returned : (nights.run order storage ledger k).2.isSome) :
    (nights.run order storage ledger k).1 =
      (grouped order ledger (windowOf (nights.now k) (early inside))).values.filterMap
        (uploadOf ledger (nights.now k).toISOString (windowOf (nights.now k) (early inside))) := by
  rw [run, exportDailyBillingInvoices, resolveBillingExportWindow_eq (early inside)] at returned ⊢
  exact uploads_of_returned (by simpa [instantOf] using returned)

theorem run_returns (inside : k < nights.count) (takes : ∀ input, (storage input).isSome) :
    (nights.run order storage ledger k).2.isSome := by
  rw [run, exportDailyBillingInvoices, resolveBillingExportWindow_eq (early inside)]
  simpa [instantOf] using uploadGroups_returns takes

/-- What is uploaded in run `k`: the document of a group of the invoices of its day. -/
theorem mem_run {upload : BillingExportUploadInput} (inside : k < nights.count)
    (returned : (nights.run order storage ledger k).2.isSome)
    (uploaded : upload ∈ (nights.run order storage ledger k).1) :
    ∃ id group organization,
      (id, group) ∈ (grouped order ledger (windowOf (nights.now k) (early inside))).entries ∧
        ledger.organization id = some organization ∧ organization.id = id ∧
        '/' ∉ organization.id.toList ∧
        upload = documentOf (nights.now k).toISOString (windowOf (nights.now k) (early inside))
          organization group := by
  rw [run_uploads inside returned] at uploaded
  obtain ⟨group, listed, made⟩ := List.mem_filterMap.mp uploaded
  obtain ⟨⟨id, _⟩, entry, rfl⟩ := List.mem_map.mp listed
  obtain ⟨organization, found, own, slashless, same⟩ := uploadOf_group entry
  exact ⟨id, _, organization, entry, found, own, slashless, Option.some.inj (made.symm.trans same)⟩

/-! ### Where the years are as they are to be -/

section

variable (dated : ∀ k < nights.count, isExported (nights.first + k) = true)

include dated

theorem years (inside : k < nights.count) : 0 ≤ (Date.dayOfNumber (nights.first + k)).year ∧
    (Date.dayOfNumber (nights.first + k)).year ≤ 9999 := by
  have exported := dated k inside
  rw [isExported, Bool.and_eq_true, Bool.and_eq_true, decide_eq_true_eq, decide_eq_true_eq]
    at exported
  exact exported.1

theorem exported_eq (inside : k < nights.count) : nights.exported k = nights.first + k := by
  have exported := dated k inside
  have day := nights.onDay k inside
  rw [isExported, Bool.and_eq_true, Bool.not_eq_true', decide_eq_false_iff_not] at exported
  rw [← day] at exported
  rw [Nights.exported, windowDay_of_year exported.2, day]
  omega

theorem day_window (inside : k < nights.count) :
    (windowOf (nights.now k) (early inside)).day.toList = Date.dayText (nights.first + k) := by
  have same := exported_eq dated inside
  rw [Nights.exported] at same
  rw [windowOf, String.toList_ofList, same, Date.take_dayText (years dated inside)]

theorem length_window (inside : k < nights.count) :
    (windowOf (nights.now k) (early inside)).day.toList.length = 10 := by
  rw [day_window dated inside, Date.length_dayText (years dated inside)]

theorem inRange_day (inside : k < nights.count) :
    ((nights.first + k) * Date.dayMillis).natAbs ≤ Date.maxTime := by
  have valid := (windowDay_inRange (early inside)).1
  have same := exported_eq dated inside
  rw [Nights.exported] at same
  rwa [same] at valid

theorem window_inj {j : Nat} (inside : k < nights.count) (inside' : j < nights.count)
    (same : (windowOf (nights.now k) (early inside)).day =
      (windowOf (nights.now j) (early inside')).day) : k = j := by
  have texts := congrArg String.toList same
  rw [day_window dated inside, day_window dated inside'] at texts
  have days := Date.dayText_inj (inRange_day dated inside) (inRange_day dated inside') texts
  omega

variable (returned : ∀ k < nights.count, (nights.run order storage ledger k).2.isSome)

include returned

theorem keys_nodup : ((nights.uploads order storage ledger).map (·.key)).Nodup := by
  rw [List.Nodup, List.pairwise_map, uploads, List.pairwise_flatMap]
  constructor
  · intro k listed
    have inside := List.mem_range.mp listed
    rw [run_uploads inside (returned k inside), List.pairwise_filterMap, OrderedMap.values,
      List.pairwise_map]
    have distinct := (grouped order ledger (windowOf (nights.now k) (early inside))).distinct
    rw [List.Nodup, List.pairwise_map] at distinct
    refine distinct.imp_of_mem fun {e e'} entry entry' differ upload made upload' made' same => ?_
    obtain ⟨organization, _, own, slashless, document⟩ := uploadOf_group entry
    obtain ⟨organization', _, own', slashless', document'⟩ := uploadOf_group entry'
    rw [document] at made
    rw [document'] at made'
    cases made
    cases made'
    have ids := (key_inj rfl slashless slashless' same).2
    exact differ (own.symm.trans (ids.trans own'))
  · have order' : (List.range nights.count).Pairwise (· ≠ ·) := List.nodup_range
    refine order'.imp_of_mem
      fun {k j} listed listed' differ upload uploaded upload' uploaded' same => ?_
    have inside := List.mem_range.mp listed
    have inside' := List.mem_range.mp listed'
    obtain ⟨id, group, organization, _, _, _, slashless, rfl⟩ :=
      mem_run inside (returned k inside) uploaded
    obtain ⟨id', group', organization', _, _, _, slashless', rfl⟩ :=
      mem_run inside' (returned j inside') uploaded'
    have lengths := (length_window dated inside).trans (length_window dated inside').symm
    exact differ (window_inj dated inside inside' (key_inj lengths slashless slashless' same).1)

/-- An invoice of the days is in the document of its key, and in no other one. -/
theorem exported_once {invoice : Invoice} (listed : invoice ∈ ledger.invoices)
    (low : nights.first ≤ invoice.createdAt.day)
    (high : invoice.createdAt.day < nights.first + nights.count) :
    ∃ organization upload, ledger.organization invoice.organizationId = some organization ∧
      upload ∈ nights.uploads order storage ledger ∧
      upload.key = creationKey organization invoice ∧ invoice.line ∈ upload.body.invoices ∧
      ∀ other ∈ nights.uploads order storage ledger,
        invoice.id ∈ other.body.invoices.map (·.id) → other = upload := by
  obtain ⟨k, night⟩ := Int.eq_ofNat_of_zero_le (Int.sub_nonneg.mpr low)
  have inside : k < nights.count := by omega
  have own : invoice.createdAt.day = nights.first + k := by omega
  have found : invoice ∈ findMany order ledger (windowOf (nights.now k) (early inside)) :=
    mem_findMany.mpr ⟨listed, own.trans (exported_eq dated inside).symm⟩
  have entry : (invoice.organizationId, (findMany order ledger (windowOf (nights.now k)
      (early inside))).filter fun other => other.organizationId = invoice.organizationId) ∈
        (grouped order ledger (windowOf (nights.now k) (early inside))).entries :=
    OrderedMap.entry_of_row found
  obtain ⟨organization, named, same, slashless, document⟩ := uploadOf_group entry
  have uploaded := run_uploads inside (returned k inside) ▸
    List.mem_filterMap.mpr ⟨_, List.mem_map.mpr ⟨_, entry, rfl⟩, document⟩
  refine ⟨organization, _, named,
    List.mem_flatMap.mpr ⟨k, List.mem_range.mpr inside, uploaded⟩, ?_, ?_, ?_⟩
  · have day := day_window dated inside
    rw [← own] at day
    rw [creationKey, ← day, String.ofList_toList]
    rfl
  · exact List.mem_map_of_mem (List.mem_filter.mpr ⟨found, decide_eq_true rfl⟩)
  · intro other uploaded there
    obtain ⟨j, within, uploaded⟩ := List.mem_flatMap.mp uploaded
    have inside' := List.mem_range.mp within
    obtain ⟨id, group, organization', entry', named', own', _, rfl⟩ :=
      mem_run inside' (returned j inside') uploaded
    obtain ⟨line, lines, id'⟩ := List.mem_map.mp there
    obtain ⟨invoice', grouped', rfl⟩ := List.mem_map.mp lines
    obtain ⟨found', of⟩ := mem_of_group entry' grouped'
    obtain ⟨listed', day'⟩ := mem_findMany.mp found'
    obtain rfl := invoice_eq listed' listed id'
    have night' : j = k := by
      have again := exported_eq dated inside'
      rw [Nights.exported, ← day'] at again
      omega
    subst night' of
    obtain rfl := Option.some.inj (named'.symm.trans named)
    rw [(OrderedMap.group_of_entry entry').1]

theorem partition_of_dated : Partition ledger nights (nights.uploads order storage ledger) := by
  have described {upload : BillingExportUploadInput}
      (uploaded : upload ∈ nights.uploads order storage ledger) :
      ∃ exportedAt window organization group, (group.map (·.id)).Nodup ∧
        upload = documentOf exportedAt window organization group := by
    obtain ⟨k, within, uploaded⟩ := List.mem_flatMap.mp uploaded
    have inside := List.mem_range.mp within
    obtain ⟨id, group, organization, entry, _, _, _, rfl⟩ :=
      mem_run inside (returned k inside) uploaded
    exact ⟨_, _, _, _, nodup_group entry, rfl⟩
  refine ⟨fun invoice listed low high => exported_once dated returned listed low high,
    keys_nodup dated returned, ?_, ?_, ?_, ?_⟩ <;> intro upload uploaded <;>
    obtain ⟨exportedAt, window, organization, group, distinct, rfl⟩ := described uploaded
  · have ids : (group.map Invoice.line).map (·.id) = group.map (·.id) := List.map_map
    exact ids ▸ distinct
  · exact (List.length_map _).symm
  · simp [documentOf, List.sum_eq_foldl, List.foldl_map, Invoice.line]
  · simp [documentOf, List.sum_eq_foldl, List.foldl_map, Invoice.line]

end

/-! ### Where they are not -/

theorem start_inRange (inside : k < nights.count) :
    ((nights.first + k) * Date.dayMillis).natAbs ≤ Date.maxTime := by
  have day := nights.onDay k inside
  have valid := (nights.now k).2
  have inRange := nights.inRange
  simp only [Instant.day, Date.maxTime, Date.dayMillis] at day valid ⊢
  omega

/-- An invoice of a day is exported in a run of its day, under its date. -/
theorem exported_of_exports (exports : nights.Exports) (inside : k < nights.count) :
    ∃ j < nights.count, nights.exported j = nights.first + k ∧ ∃ rest rest' : List Char,
      (Date.isoText (nights.exported j * Date.dayMillis)).take 10 ++ '/' :: rest =
        Date.dayText (nights.first + k) ++ '/' :: rest' := by
  let createdAt : Instant := ⟨(nights.first + k) * Date.dayMillis, start_inRange inside⟩
  have day : createdAt.day = nights.first + k := Int.mul_ediv_cancel _ (by decide)
  have returned (j : Nat) (inside' : j < nights.count) : (nights.run (fun _ _ => true)
      (fun _ => some "") (oneLedger createdAt) j).2.isSome := run_returns inside' fun _ => rfl
  obtain ⟨organization, upload, _, uploaded, key, there, _⟩ :=
    (exports _ _ (oneLedger createdAt) returned).each (oneInvoice createdAt) List.mem_cons_self
      (by show _ ≤ createdAt.day; omega) (by show createdAt.day < _; omega)
  obtain ⟨j, within, uploaded⟩ := List.mem_flatMap.mp uploaded
  have inside' := List.mem_range.mp within
  obtain ⟨id, group, organization', entry, _, _, _, rfl⟩ :=
    mem_run inside' (returned j inside') uploaded
  obtain ⟨invoice, grouped, same⟩ := List.mem_map.mp there
  obtain ⟨listed, own⟩ := mem_findMany.mp (mem_of_group entry grouped).1
  have only : invoice = oneInvoice createdAt := List.mem_singleton.mp listed
  subst only
  have chars := congrArg String.toList key
  simp only [documentOf, creationKey, windowOf, String.toList_append, String.toList_ofList,
    List.append_assoc, oneInvoice, day] at chars
  exact ⟨j, inside', own.symm.trans day, _, _, chars⟩

theorem dated_of_exports (exports : nights.Exports) (inside : k < nights.count) :
    isExported (nights.first + k) = true := by
  obtain ⟨j, inside', same, rest, rest', chars⟩ := exported_of_exports exports inside
  rw [isExported, Bool.and_eq_true, Bool.and_eq_true, Bool.not_eq_true', decide_eq_true_eq,
    decide_eq_true_eq, decide_eq_false_iff_not]
  constructor
  · by_contra outside
    -- the date goes on where the key has a slash
    have long := Date.dayText_long outside
    have slash : ((Date.isoText (nights.exported j * Date.dayMillis)).take 10 ++
        '/' :: rest)[10]? = some '/' := by
      rw [List.getElem?_append_right Date.length_take_isoText.le, Date.length_take_isoText]
      rfl
    obtain ⟨within, _⟩ := List.getElem?_eq_some_iff.mp long
    rw [chars, List.getElem?_append_left within, long] at slash
    exact absurd slash (by decide)
  · intro shifted
    -- no run reaches the day: one of its year goes to another century, the others to their own day
    have early := Date.lt_of_year shifted.2
    rw [Nights.exported] at same
    by_cases years : 0 ≤ (Date.dayOfNumber (nights.now j).day).year ∧
        (Date.dayOfNumber (nights.now j).day).year ≤ 99
    · have late := (windowDay_shifted years).1
      omega
    · rw [windowDay_of_year years, nights.onDay j inside'] at same
      have day : nights.first + j + 1 = nights.first + k + 1 := by omega
      rw [nights.onDay j inside', day] at years
      exact years shifted

/-- The documents are a partition just when each of the days is exported under its date. -/
theorem exports_iff :
    nights.Exports ↔ ∀ k < nights.count, isExported (nights.first + k) = true :=
  ⟨fun exports _ inside => dated_of_exports exports inside,
    fun dated _ _ _ returned => partition_of_dated dated returned⟩

end Nights

/-! ### The year 10000 -/

theorem newYear_inRange (hours : Nat) :
    (2932897 * Date.dayMillis + 3600000 * (hours % 100 : Nat)).natAbs ≤ Date.maxTime := by
  simp only [Date.dayMillis, Date.maxTime]
  omega

/-- Some hours after the start of 1 January 10000. -/
def newYear (hours : Nat) : Instant :=
  ⟨2932897 * Date.dayMillis + 3600000 * (hours % 100 : Nat), newYear_inRange hours⟩

theorem newYear_onDay : ∀ k : Nat, k < 2 →
    (if k = 0 then newYear 26 else newYear 50).day = 2932897 + (k : Int) + 1 := by decide

theorem newYear_late : (-100000000 : Int) ≤ 2932897 := by decide

def newYearNights : Nights where
  first := 2932897
  count := 2
  now k := if k = 0 then newYear 26 else newYear 50
  onDay := newYear_onDay
  inRange := newYear_late

/-- An invoice of each of the two days. -/
def newYearInvoices : List Invoice :=
  [oneInvoice (newYear 4), { oneInvoice (newYear 28) with id := "invoice 2" }]

theorem newYearInvoices_distinct : (newYearInvoices.map (·.id)).Nodup := by decide

theorem newYearInvoices_referred :
    ∀ invoice ∈ newYearInvoices, invoice.organizationId ∈ [alpha].map (·.id) := by decide

def newYearLedger : Ledger where
  organizations := [alpha]
  invoices := newYearInvoices
  distinctOrganizations := List.nodup_singleton _
  distinctInvoices := newYearInvoices_distinct
  referred := newYearInvoices_referred
  slashless := alpha_slashless

/-- The documents of two days have one key. -/
theorem newYearNights_not_exports : ¬ newYearNights.Exports := by
  intro exports
  have returned : ∀ k < newYearNights.count, (newYearNights.run (fun _ _ => true)
      (fun _ => some "") newYearLedger k).2.isSome :=
    fun k inside => Nights.run_returns inside fun _ => rfl
  have keys : (newYearNights.uploads (fun _ _ => true) (fun _ => some "") newYearLedger).map
      (·.key) = ["+010000-01/tenant/organization.json", "+010000-01/tenant/organization.json"] := by
    decide +kernel
  have distinct := (exports _ _ newYearLedger returned).keys
  rw [keys] at distinct
  exact absurd distinct (by decide)

end BillingExport
