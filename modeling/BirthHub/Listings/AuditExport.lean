import BirthHub.Data.Csv
import BirthHub.Listings.Cursors

/-!
# The export of audit logs

`exportAuditLogsCsv` lists one page of 500 audit logs and writes a line for each, whose cells are
written by `JSON.stringify`: a quote within a cell is not doubled but comes after a backslash, and
so are backslashes and line breaks written with backslashes that a reader takes as they are.
-/

namespace Listings

open Data Data.Pages

/-! ## The text -/

/-- What a cell can be made of. -/
inductive CsvValue
  | undefined
  | json (value : Json)
  | bigint (value : Int)
  | date (value : Date)

def csvHeaders : List String :=
  ["createdAt", "actorId", "action", "entityType", "entityId", "ip", "userAgent"]

/-- `toCsvCell`; the text of an invalid date throws. -/
def toCsvCell : CsvValue → Except Thrown String
  | .undefined | .json .null => .ok (Json.quote "")
  | .json (.string s) => .ok (Json.stringify (.string s))
  | .json (.number n) => .ok (Json.stringify (.number n))
  | .json (.bool b) => .ok (Json.stringify (.bool b))
  | .bigint n => .ok (Json.quote (toString n))
  | .date d =>
      match d.toISOString with
      | some text => .ok (Json.quote text)
      | none => .error (error "Invalid time value")
  | .json value => .ok (Json.quote value.stringify)

/-- `items.join(separator)`. -/
def join (separator : String) : List String → String
  | [] => ""
  | [item] => item
  | item :: items => item ++ separator ++ join separator items

def csvLine (row : List (String × CsvValue)) : Except Thrown String := do
  let cells ← csvHeaders.mapM fun header => toCsvCell ((row.lookup header).getD .undefined)
  return join "," cells

def buildAuditCsv (rows : List (List (String × CsvValue))) : Except Thrown String := do
  let lines ← rows.mapM csvLine
  return join "\n" (join "," csvHeaders :: lines)

/-- `null` or a text. -/
def nullable (text : Option String) : CsvValue := .json ((text.map Json.string).getD .null)

/-- The text of a date that is valid. -/
def isoString (row : AuditLogRow) : String :=
  row.createdAt.toISOString.get (by rw [Date.toISOString_isSome]; exact row.stamped)

/-- The record that is written of an audit log. -/
def csvRow (row : AuditLogRow) : List (String × CsvValue) := [
  ("action", .json (.string row.action)),
  ("actorId", nullable row.actorId),
  ("createdAt", .json (.string (isoString row))),
  ("entityId", .json (.string row.entityId)),
  ("entityType", .json (.string row.entityType)),
  ("ip", nullable row.ip),
  ("userAgent", nullable row.userAgent)]

/-- The text, once the page is there. -/
def writeCsv (rows : List AuditLogRow) : Except Thrown String := buildAuditCsv (rows.map csvRow)

inductive ExportError
  | listing (e : ListingError)
  | thrown (e : Thrown)

def exportAuditLogsCsv (db : Database) (newDate : String → Date)
    (arrange : List AuditLogRow → List AuditLogRow) (filter : AuditFilter)
    (organizationId tenantId : String) : Except ExportError String :=
  match listAuditLogs db newDate arrange filter none organizationId 500 tenantId with
  | .error e => .error (.listing e)
  | .ok page => (writeCsv page.items).mapError .thrown

/-! ## What a record is -/

/-- The field values of an audit log in the order of the headers, where nothing is an empty
text. -/
def fieldsOf (row : AuditLogRow) : List String :=
  [isoString row, row.actorId.getD "", row.action, row.entityType, row.entityId, row.ip.getD "",
    row.userAgent.getD ""]

/-- The text can be read back: it has no quote, backslash or control character. -/
def IsReadable (text : String) : Prop :=
  ∀ c ∈ text.toList, c ≠ '"' ∧ c ≠ '\\' ∧ 32 ≤ c.toNat

/-! ## Cells -/

/-- What stands between the quotes of a cell. -/
def escaped (text : List Char) : List Char := text.flatMap Json.escape

theorem toList_quote (text : String) :
    (Json.quote text).toList = '"' :: (escaped text.toList ++ ['"']) := by
  simp [Json.quote, escaped]

/-- The character is written as it is. -/
def IsReadableChar (c : Char) : Prop := c ≠ '"' ∧ c ≠ '\\' ∧ 32 ≤ c.toNat

theorem escape_readable {c : Char} (readable : IsReadableChar c) : Json.escape c = [c] := by
  obtain ⟨quote, slash, shown⟩ := readable
  unfold Json.escape
  rw [if_neg quote, if_neg slash, if_neg (by omega), if_neg (by omega), if_neg (by omega),
    if_neg (by omega), if_neg (by omega), if_neg (by omega)]

/-- Another character is written with a backslash before it. -/
theorem escape_unreadable {c : Char} (unreadable : ¬IsReadableChar c) :
    ∃ rest, Json.escape c = '\\' :: rest := by
  unfold Json.escape
  split
  · exact ⟨_, rfl⟩
  split
  · exact ⟨_, rfl⟩
  split
  · exact ⟨_, rfl⟩
  split
  · exact ⟨_, rfl⟩
  split
  · exact ⟨_, rfl⟩
  split
  · exact ⟨_, rfl⟩
  split
  · exact ⟨_, rfl⟩
  split
  · exact ⟨_, rfl⟩
  · rename_i quote slash _ _ _ _ _ shown
    exact absurd ⟨quote, slash, by omega⟩ unreadable

theorem escaped_readable {text : List Char} (readable : ∀ c ∈ text, IsReadableChar c) :
    escaped text = text := by
  induction text with
  | nil => rfl
  | cons c text ih =>
      rw [escaped, List.flatMap_cons, escape_readable (readable c List.mem_cons_self)]
      exact congrArg (c :: ·) (ih fun d inside => readable d (List.mem_cons_of_mem c inside))

/-- A cell that is read as its value after some backslashes had none before, and nothing in it was
escaped: what is read has two backslashes for each one of the value. -/
theorem readable_of_read {text rest : List Char} {sheet : Csv.Sheet} {n : Nat}
    (found : Csv.readFrom .quoted (escaped text ++ rest) = some sheet)
    (same : List.replicate n '\\' ++ sheet.field = text) :
    n = 0 ∧ ∀ c ∈ text, IsReadableChar c := by
  induction text generalizing n sheet with
  | nil =>
      have none := (List.append_eq_nil_iff.mp same).1
      exact ⟨by simpa using none, nofun⟩
  | cons c text ih =>
      have split : escaped (c :: text) = Json.escape c ++ escaped text := List.flatMap_cons
      rw [split, List.append_assoc] at found
      by_cases readable : IsReadableChar c
      · rw [escape_readable readable, Csv.readFrom_quoted
          (by simpa using readable.1.symm)] at found
        obtain ⟨next, inner, rfl⟩ := Option.map_eq_some_iff.mp found
        cases n with
        | zero =>
            have others : next.field = text := (List.cons.inj same).2
            refine ⟨rfl, fun d inside => ?_⟩
            rcases List.mem_cons.mp inside with rfl | inside
            · exact readable
            · exact (@ih next 0 inner others).2 d inside
        | succ n => exact absurd (List.cons.inj same).1.symm readable.2.1
      · exfalso
        by_cases slash : c = '\\'
        · subst slash
          have twice : Json.escape '\\' = ['\\', '\\'] := rfl
          rw [twice, Csv.readFrom_quoted (by decide)] at found
          obtain ⟨next, inner, rfl⟩ := Option.map_eq_some_iff.mp found
          have others : List.replicate (n + 1) '\\' ++ next.field = text := by
            have whole : List.replicate n '\\' ++ ('\\' :: '\\' :: next.field) = '\\' :: text := same
            rw [List.append_cons, ← List.replicate_succ', List.replicate_succ, List.cons_append] at whole
            have less := (List.cons.inj whole).2
            rwa [List.append_cons, ← List.replicate_succ'] at less
          exact Nat.succ_ne_zero n (ih inner others).1
        · obtain ⟨tail, written⟩ := escape_unreadable readable
          rw [written, List.cons_append, ← List.singleton_append, Csv.readFrom_quoted
            (by decide)] at found
          obtain ⟨next, inner, rfl⟩ := Option.map_eq_some_iff.mp found
          cases n with
          | zero => exact slash (List.cons.inj same).1.symm
          | succ n => exact slash (List.cons.inj same).1.symm

/-! ## Lines -/

/-- The cells of a record. -/
def quoted (cells : List (List Char)) : List (List Char) :=
  cells.map fun cell => '"' :: (escaped cell ++ ['"'])

section Lines

variable {cell : List Char} {cells : List (List Char)} {text : List Char} {sheet : Csv.Sheet}

theorem readFrom_cell (readable : ∀ c ∈ cell, IsReadableChar c) :
    Csv.readFrom .start ('"' :: (escaped cell ++ '"' :: text)) =
      (Csv.readFrom .closed text).map (.append cell) := by
  rw [Csv.readFrom_opening, escaped_readable readable, Csv.readFrom_quoted, Csv.readFrom_closing]
  exact fun inside => (readable _ inside).1 rfl

theorem joined_quoted_cons {next : List Char} : Csv.joined (quoted (cell :: next :: cells)) ++ text =
    '"' :: (escaped cell ++ '"' :: ',' :: (Csv.joined (quoted (next :: cells)) ++ text)) := by
  simp [quoted, Csv.joined]

theorem joined_quoted_single : Csv.joined (quoted [cell]) ++ text =
    '"' :: (escaped cell ++ '"' :: text) := by
  simp [quoted, Csv.joined]

theorem readFrom_line (readable : ∀ v ∈ cell :: cells, ∀ c ∈ v, IsReadableChar c)
    (ends : Csv.EndsRecord text) :
    Csv.readFrom .start (Csv.joined (quoted (cell :: cells)) ++ text) =
      (Csv.readFrom .closed text).map fun sheet => ⟨cell, cells, sheet.records⟩ := by
  induction cells generalizing cell with
  | nil =>
      rw [joined_quoted_single, readFrom_cell (readable cell List.mem_cons_self)]
      refine Option.map_congr fun sheet found => ?_
      obtain ⟨own, others⟩ := ends.shape found
      rw [Csv.Sheet.append, own, others, List.append_nil]
  | cons next cells ih =>
      rw [joined_quoted_cons, readFrom_cell (readable cell List.mem_cons_self),
        Csv.readFrom_comma (by decide), ih fun v inside => readable v (List.mem_cons_of_mem _ inside),
        Option.map_map, Option.map_map]
      refine congrArg (Option.map · _) (funext fun sheet => ?_)
      simp [Csv.Sheet.nextField, Csv.Sheet.append]

/-- A record that is read as its values is one of readable cells. -/
theorem readable_of_line (found :
    Csv.readFrom .start (Csv.joined (quoted (cell :: cells)) ++ text) = some sheet)
    (first : sheet.field = cell) (others : sheet.fields = cells) :
    ∀ v ∈ cell :: cells, ∀ c ∈ v, IsReadableChar c := by
  induction cells generalizing cell sheet with
  | nil =>
      rw [joined_quoted_single, Csv.readFrom_opening] at found
      have own := (readable_of_read (n := 0) found first).2
      exact fun v inside => List.mem_singleton.mp inside ▸ own
  | cons next cells ih =>
      rw [joined_quoted_cons] at found
      have own : ∀ c ∈ cell, IsReadableChar c := by
        rw [Csv.readFrom_opening] at found
        exact (readable_of_read (n := 0) found first).2
      rw [readFrom_cell own, Csv.readFrom_comma (by decide)] at found
      obtain ⟨after, split, rfl⟩ := Option.map_eq_some_iff.mp found
      obtain ⟨sheet, inner, rfl⟩ := Option.map_eq_some_iff.mp split
      have same : sheet.field :: sheet.fields = next :: cells := others
      intro v inside
      rcases List.mem_cons.mp inside with rfl | inside
      · exact own
      · exact ih inner (List.cons.inj same).1 (List.cons.inj same).2 v inside

/-- The lines after the first one. -/
def lines (records : List (List (List Char))) : List Char :=
  records.flatMap fun record => '\n' :: Csv.joined (quoted record)

theorem joined_quoted_ne_nil : Csv.joined (quoted (cell :: cells)) ≠ [] := by
  cases cells with
  | nil => exact List.cons_ne_nil _ _
  | cons next cells => exact List.cons_ne_nil _ _

theorem endsRecord_lines {records : List (List (List Char))} (some : ∀ r ∈ records, r ≠ []) :
    Csv.EndsRecord (lines records) := by
  cases records with
  | nil => exact .inl rfl
  | cons record records =>
      cases record with
      | nil => exact absurd rfl (some [] List.mem_cons_self)
      | cons cell cells =>
          refine .inr ⟨_, ?_, rfl⟩
          exact fun empty => joined_quoted_ne_nil (List.append_eq_nil_iff.mp empty).1

/-- Lines are read as the records that were written, and no others, just when all their cells are
readable. -/
theorem readFrom_lines {records more : List (List (List Char))} (some' : ∀ r ∈ records, r ≠ []) :
    Csv.readFrom .closed (lines records) = some ⟨[], [], records ++ more⟩ ↔
      more = [] ∧ ∀ r ∈ records, ∀ v ∈ r, ∀ c ∈ v, IsReadableChar c := by
  induction records with
  | nil =>
      constructor
      · intro found
        have same : ([] : List (List (List Char))) = more :=
          congrArg Csv.Sheet.records (Option.some.inj found)
        exact ⟨same.symm, nofun⟩
      · rintro ⟨rfl, _⟩
        rfl
  | cons record records ih =>
      have rest := ih fun r inside => some' r (List.mem_cons_of_mem record inside)
      have ends := endsRecord_lines fun r inside => some' r (List.mem_cons_of_mem record inside)
      cases record with
      | nil => exact absurd rfl (some' [] List.mem_cons_self)
      | cons cell cells =>
          have line : lines ((cell :: cells) :: records) =
              '\n' :: (Csv.joined (quoted (cell :: cells)) ++ lines records) := rfl
          have long : Csv.joined (quoted (cell :: cells)) ++ lines records ≠ [] := fun empty =>
            joined_quoted_ne_nil (List.append_eq_nil_iff.mp empty).1
          rw [line, Csv.readFrom_line (by decide) long]
          constructor
          · intro found
            obtain ⟨sheet, inner, same⟩ := Option.map_eq_some_iff.mp found
            have shape : (sheet.field :: sheet.fields) :: sheet.records =
                (cell :: cells) :: (records ++ more) := congrArg Csv.Sheet.records same
            have first := (List.cons.inj (List.cons.inj shape).1).1
            have others := (List.cons.inj (List.cons.inj shape).1).2
            have own := readable_of_line inner first others
            rw [readFrom_line own ends] at inner
            obtain ⟨after, found, rfl⟩ := Option.map_eq_some_iff.mp inner
            obtain ⟨noField, noFields⟩ := ends.shape found
            have whole : after = ⟨[], [], records ++ more⟩ := by
              have following : after.records = records ++ more := (List.cons.inj shape).2
              rw [← noField, ← noFields, ← following]
            obtain ⟨nothing, readable⟩ := rest.mp (whole ▸ found)
            refine ⟨nothing, fun r inside => ?_⟩
            rcases List.mem_cons.mp inside with rfl | inside
            · exact own
            · exact readable r inside
          · rintro ⟨nothing, readable⟩
            have found := rest.mpr ⟨nothing, fun r inside => readable r (List.mem_cons_of_mem _ inside)⟩
            rw [readFrom_line (readable _ List.mem_cons_self) ends, found]
            rfl

end Lines

/-! ## The whole text -/

section Text

theorem toCsvCell_string (text : String) : toCsvCell (.json (.string text)) =
    .ok (Json.quote text) := rfl

theorem toCsvCell_nullable (text : Option String) :
    toCsvCell (nullable text) = .ok (Json.quote (text.getD "")) := by
  cases text <;> rfl

theorem csvLine_csvRow (row : AuditLogRow) :
    csvLine (csvRow row) = .ok (join "," ((fieldsOf row).map Json.quote)) := by
  have cells : csvHeaders.mapM (fun header => toCsvCell (((csvRow row).lookup header).getD .undefined)) =
      .ok ((fieldsOf row).map Json.quote) := by
    simp [csvHeaders, csvRow, List.lookup, toCsvCell_string, toCsvCell_nullable, fieldsOf]
    rfl
  rw [csvLine, cells]
  rfl

theorem writeCsv_eq (rows : List AuditLogRow) : writeCsv rows = .ok (join "\n"
    (join "," csvHeaders :: rows.map fun row => join "," ((fieldsOf row).map Json.quote))) := by
  have lines : (rows.map csvRow).mapM csvLine =
      .ok (rows.map fun row => join "," ((fieldsOf row).map Json.quote)) := by
    induction rows with
    | nil => rfl
    | cons row rows ih =>
        rw [List.map_cons, List.mapM_cons, csvLine_csvRow, ih]
        rfl
  rw [writeCsv, buildAuditCsv, lines]
  rfl

theorem toList_join_comma (items : List String) :
    (join "," items).toList = Csv.joined (items.map String.toList) := by
  induction items with
  | nil => rfl
  | cons item items ih =>
      cases items with
      | nil => rfl
      | cons next items =>
          rw [join, String.toList_append, String.toList_append, ih, List.append_assoc]
          · rfl
          · exact List.cons_ne_nil next items

theorem toList_join_line (first : String) (items : List String) :
    (join "\n" (first :: items)).toList =
      first.toList ++ items.flatMap fun item => '\n' :: item.toList := by
  induction items generalizing first with
  | nil => simp [join]
  | cons next items ih =>
      rw [join, String.toList_append, String.toList_append, ih, List.append_assoc]
      · rfl
      · exact List.cons_ne_nil next items

/-- The field values of an audit log as lists of characters. -/
def cellsOf (row : AuditLogRow) : List (List Char) := (fieldsOf row).map String.toList

theorem toList_line (row : AuditLogRow) :
    (join "," ((fieldsOf row).map Json.quote)).toList = Csv.joined (quoted (cellsOf row)) := by
  rw [toList_join_comma, quoted, cellsOf, List.map_map, List.map_map]
  exact congrArg Csv.joined (List.map_congr_left fun text _ => toList_quote text)

/-- The text of the export is the line of the headers and the lines of the rows. -/
theorem toList_csv (rows : List AuditLogRow) : (join "\n" (join "," csvHeaders ::
    rows.map fun row => join "," ((fieldsOf row).map Json.quote))).toList =
      Csv.joined (csvHeaders.map String.toList) ++ lines (rows.map cellsOf) := by
  rw [toList_join_line, toList_join_comma, lines, List.flatMap_map, List.flatMap_map]
  exact congrArg (_ ++ ·) (List.flatMap_congr fun row _ => congrArg ('\n' :: ·) (toList_line row))

/-- Reading the lines of rows gives the records of these rows and no others just when all of their
texts are readable. -/
theorem read_csv {rows more : List AuditLogRow} {csv : String} (written : writeCsv rows = .ok csv) :
    Csv.read csv = some (csvHeaders :: (rows ++ more).map fieldsOf) ↔
      more = [] ∧ ∀ row ∈ rows, ∀ text ∈ fieldsOf row, IsReadable text := by
  have text := Except.ok.inj ((writeCsv_eq rows).symm.trans written)
  have named : ∀ r ∈ rows.map cellsOf, r ≠ [] := by
    intro r inside
    obtain ⟨row, _, rfl⟩ := List.mem_map.mp inside
    exact List.cons_ne_nil _ _
  have whole : Csv.readFrom .closed (lines (rows.map cellsOf)) =
      some ⟨[], [], rows.map cellsOf ++ more.map cellsOf⟩ ↔ more.map cellsOf = [] ∧
        ∀ r ∈ rows.map cellsOf, ∀ v ∈ r, ∀ c ∈ v, IsReadableChar c := readFrom_lines named
  have headers : ∀ f ∈ csvHeaders.map String.toList, ∀ c ∈ f, Csv.isPlain c = true := by
    have all : (csvHeaders.all fun f => f.toList.all Csv.isPlain) = true := by decide
    intro f inside c within
    obtain ⟨header, listed, rfl⟩ := List.mem_map.mp inside
    exact List.all_eq_true.mp (List.all_eq_true.mp all header listed) c within
  have sheet : Csv.readFrom .start csv.toList =
      (Csv.readFrom .closed (lines (rows.map cellsOf))).map fun sheet =>
        ⟨"createdAt".toList, (csvHeaders.map String.toList).tail, sheet.records⟩ := by
    rw [← text, toList_csv]
    exact Csv.readFrom_joined headers (endsRecord_lines named)
  have first : (("createdAt".toList :: (csvHeaders.map String.toList).tail).map String.ofList) =
      csvHeaders := by
    simp [csvHeaders]
  have fields (all : List AuditLogRow) : (all.map cellsOf).map (fun record => record.map String.ofList) =
      all.map fieldsOf := by
    rw [List.map_map]
    refine List.map_congr_left fun row _ => ?_
    simp [cellsOf]
  have readable : (∀ row ∈ rows, ∀ text ∈ fieldsOf row, IsReadable text) ↔
      ∀ r ∈ rows.map cellsOf, ∀ v ∈ r, ∀ c ∈ v, IsReadableChar c := by
    simp [cellsOf, IsReadable, IsReadableChar]
  rw [Csv.read, sheet, Option.map_map, readable]
  constructor
  · intro found
    obtain ⟨after, inner, same⟩ := Option.map_eq_some_iff.mp found
    obtain ⟨noField, noFields⟩ := (endsRecord_lines named).shape inner
    have records : after.records = rows.map cellsOf ++ more.map cellsOf := by
      have others := (List.cons.inj same).2
      rw [← fields] at others
      rw [← List.map_append]
      refine List.map_injective_iff.mpr (fun a b equal => ?_) others
      refine List.map_injective_iff.mpr (fun a b equal => ?_) equal
      exact String.ofList_injective equal
    have shape : after = ⟨[], [], rows.map cellsOf ++ more.map cellsOf⟩ := by
      rw [← noField, ← noFields, ← records]
    obtain ⟨nothing, all⟩ := whole.mp (shape ▸ inner)
    exact ⟨List.map_eq_nil_iff.mp nothing, all⟩
  · rintro ⟨rfl, all⟩
    rw [whole.mpr ⟨rfl, all⟩, Option.map_some, Function.comp_apply]
    refine congrArg some ?_
    rw [List.map_cons, first, ← List.map_append, fields]

end Text

/-! ## The export -/

section Export

variable {db : Database} {newDate : String → Date}
  {arrange : List AuditLogRow → List AuditLogRow} {filter : AuditFilter}
  {organizationId tenantId : String} {organization : OrganizationRow} {gte lte : Option Int}

/-- The audit logs of the tenant that match the filter. -/
def matching (db : Database) (filter : AuditFilter) (tenantId : String) (gte lte : Option Int) :
    List AuditLogRow :=
  db.auditLogs.rows.filter (isAudited filter tenantId gte lte)

/-- What is exported is the text of the first 500 rows that match. -/
theorem exportAuditLogsCsv_eq
    (found : resolveScopedOrganization db organizationId tenantId = .ok organization)
    (after : bound newDate filter.from_ = .ok gte) (before : bound newDate filter.to_ = .ok lte) :
    exportAuditLogsCsv db newDate arrange filter organizationId tenantId =
      (writeCsv ((arrange (matching db filter tenantId gte lte)).take 500)).mapError .thrown := by
  have page : listAuditLogs db newDate arrange filter none organizationId 500 tenantId =
      .ok (pageQuery AuditLogRow.id arrange db.auditLogs.rows (isAudited filter tenantId gte lte)
        none 500) := by
    simp only [listAuditLogs, found, after, before]
    rfl
  have items : (pageQuery AuditLogRow.id arrange db.auditLogs.rows
      (isAudited filter tenantId gte lte) none 500).items =
        (arrange (matching db filter tenantId gte lte)).take 500 :=
    items_ofRows AuditLogRow.id 500 (arrange (matching db filter tenantId gte lte))
  rw [exportAuditLogsCsv, page]
  exact congrArg (fun rows => (writeCsv rows).mapError ExportError.thrown) items

theorem exists_organization {csv : String} (exported :
    exportAuditLogsCsv db newDate arrange filter organizationId tenantId = .ok csv) :
    ∃ organization, resolveScopedOrganization db organizationId tenantId = .ok organization := by
  cases found : resolveScopedOrganization db organizationId tenantId with
  | ok organization => exact ⟨organization, rfl⟩
  | error e =>
      have refused : listAuditLogs db newDate arrange filter none organizationId 500 tenantId =
          .error e := by
        simp only [listAuditLogs, found]
        rfl
      rw [exportAuditLogsCsv, refused] at exported
      cases exported

theorem read_exported {csv : String} {rows : List AuditLogRow} (written :
    writeCsv (rows.take 500) = .ok csv) :
    Csv.read csv = some (csvHeaders :: rows.map fieldsOf) ↔
      rows.length ≤ 500 ∧ ∀ row ∈ rows, ∀ text ∈ fieldsOf row, IsReadable text := by
  have back : Csv.read csv = some (csvHeaders :: (rows.take 500 ++ rows.drop 500).map fieldsOf) ↔
      rows.drop 500 = [] ∧ ∀ row ∈ rows.take 500, ∀ text ∈ fieldsOf row, IsReadable text :=
    read_csv written
  rw [List.take_append_drop, List.drop_eq_nil_iff] at back
  rw [back]
  constructor
  · rintro ⟨few, readable⟩
    rw [List.take_of_length_le few] at readable
    exact ⟨few, readable⟩
  · rintro ⟨few, readable⟩
    exact ⟨few, fun row inside => readable row (List.mem_of_mem_take inside)⟩

/-- **When the export is complete and can be read.** Just when at most 500 audit logs match and no
text of theirs has a quote, a backslash or a control character. -/
theorem exportAuditLogsCsv_complete {csv : String} (collation : Collation)
    (after : bound newDate filter.from_ = .ok gte) (before : bound newDate filter.to_ = .ok lte)
    (arranged : Arranged (byId collation AuditLogRow.id) (matching db filter tenantId gte lte)
      (arrange (matching db filter tenantId gte lte)))
    (exported : exportAuditLogsCsv db newDate arrange filter organizationId tenantId = .ok csv) :
    Csv.read csv = some (csvHeaders ::
        (arrange (matching db filter tenantId gte lte)).map fieldsOf) ↔
      (matching db filter tenantId gte lte).length ≤ 500 ∧
        ∀ row ∈ matching db filter tenantId gte lte, ∀ text ∈ fieldsOf row, IsReadable text := by
  obtain ⟨organization, found⟩ := exists_organization exported
  rw [exportAuditLogsCsv_eq found after before] at exported
  have written : writeCsv ((arrange (matching db filter tenantId gte lte)).take 500) = .ok csv := by
    cases made : writeCsv ((arrange (matching db filter tenantId gte lte)).take 500) with
    | ok text =>
        rw [made] at exported
        exact congrArg Except.ok (Except.ok.inj exported)
    | error e =>
        rw [made] at exported
        cases exported
  rw [read_exported written, arranged.perm.length_eq]
  exact and_congr_right fun _ => forall_congr' fun row => by rw [arranged.perm.mem_iff]

/-- A login, at the start of 1970. -/
def loginLog (userAgent : String) : AuditLogRow where
  id := "a"
  tenantId := "tenant"
  actorId := none
  action := "login"
  entityType := "session"
  entityId := "s, 1"
  ip := some "::1"
  userAgent := some userAgent
  createdAt := Date.ofTime 0
  stamped := rfl

theorem loginLog_distinct (userAgent : String) :
    ([loginLog userAgent].map AuditLogRow.id).Nodup := List.nodup_singleton _

theorem loginLog_named (userAgent : String) : ∀ row ∈ [loginLog userAgent], row.id ≠ "" := by
  intro row inside
  rw [List.mem_singleton.mp inside]
  exact (by decide : "a" ≠ "")

/-- A tenant with one audit log. -/
def oneLog (userAgent : String) : Database where
  organizations := [⟨"org", "tenant"⟩]
  memberships := .empty
  auditLogs := ⟨[loginLog userAgent], loginLog_distinct userAgent, loginLog_named userAgent⟩
  invites := .empty
  notifications := .empty
  invoices := .empty

theorem oneLog_exported (userAgent : String) : ∃ csv,
    exportAuditLogsCsv (oneLog userAgent) Date.parse (fun rows => rows) {} "org" "tenant" = .ok csv ∧
      writeCsv ((oneLog userAgent).auditLogs.rows.take 500) = .ok csv := by
  have found : resolveScopedOrganization (oneLog userAgent) "org" "tenant" =
      .ok ⟨"org", "tenant"⟩ := rfl
  have written := writeCsv_eq ((oneLog userAgent).auditLogs.rows.take 500)
  refine ⟨_, ?_, written⟩
  rw [exportAuditLogsCsv_eq found rfl rfl]
  exact congrArg (·.mapError ExportError.thrown) written

theorem browserLog_complete : ∃ csv,
    exportAuditLogsCsv (oneLog "Mozilla/5.0 (X11)") Date.parse (fun rows => rows) {} "org" "tenant" =
        .ok csv ∧
      (Csv.read csv = some (csvHeaders ::
          (matching (oneLog "Mozilla/5.0 (X11)") {} "tenant" none none).map fieldsOf) ↔
        (matching (oneLog "Mozilla/5.0 (X11)") {} "tenant" none none).length ≤ 500 ∧
          ∀ row ∈ matching (oneLog "Mozilla/5.0 (X11)") {} "tenant" none none,
            ∀ text ∈ fieldsOf row, IsReadable text) := by
  obtain ⟨csv, exported, _⟩ := oneLog_exported "Mozilla/5.0 (X11)"
  exact ⟨csv, exported, exportAuditLogsCsv_complete codePoints rfl rfl
    ⟨.refl _, List.pairwise_singleton _ _⟩ exported⟩

/-- A user agent with a quote is not read back. -/
theorem quotedAgent_unreadable : ∃ csv,
    exportAuditLogsCsv (oneLog "a\"b") Date.parse (fun rows => rows) {} "org" "tenant" = .ok csv ∧
      Csv.read csv ≠ some (csvHeaders :: (oneLog "a\"b").auditLogs.rows.map fieldsOf) := by
  obtain ⟨csv, exported, written⟩ := oneLog_exported "a\"b"
  refine ⟨csv, exported, fun back => ?_⟩
  have readable := ((read_exported written).mp back).2 _ List.mem_cons_self "a\"b" (by decide)
  exact (readable '"' (by decide)).1 rfl

end Export

end Listings
