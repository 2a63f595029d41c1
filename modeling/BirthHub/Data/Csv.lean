import Mathlib

/-!
# Reading comma-separated values

A reader of texts as RFC 4180 describes them: a field stands between quotes, in which an inner
quote is doubled, or has no quote, comma or line break. A record ends at a line feed, which may
follow a carriage return, and the last one at the end of the text or at its last line feed.
-/

namespace Data.Csv

/-- Where the reader is: at the start of a field, in one without quotes, between quotes, or after
a quote that may have ended a field. -/
inductive Mode
  | start
  | plain
  | quoted
  | closed
deriving DecidableEq

/-- What follows in a text: the rest of a field, the other fields of its record, and the other
records. -/
structure Sheet where
  field : List Char
  fields : List (List Char)
  records : List (List (List Char))

namespace Sheet

def empty : Sheet := ⟨[], [], []⟩

def append (chars : List Char) (sheet : Sheet) : Sheet :=
  { sheet with field := chars ++ sheet.field }

/-- The rest is another field. -/
def nextField (sheet : Sheet) : Sheet := ⟨[], sheet.field :: sheet.fields, sheet.records⟩

/-- The rest is another record. -/
def nextRecord (sheet : Sheet) : Sheet := ⟨[], [], (sheet.field :: sheet.fields) :: sheet.records⟩

end Sheet

def readFrom : Mode → List Char → Option Sheet
  | mode, [] => if mode = .quoted then none else some .empty
  | mode, c :: text =>
      if mode = .quoted then
        if c = '"' then readFrom .closed text else (readFrom .quoted text).map (.append [c])
      else if c = '"' then
        if mode = .start then readFrom .quoted text
        else if mode = .closed then (readFrom .quoted text).map (.append [c])
        else none
      else if c = ',' then (readFrom .start text).map .nextField
      else if c = '\n' then
        if text.isEmpty then some .empty else (readFrom .start text).map .nextRecord
      else if c = '\r' then
        if text.head? = some '\n' then readFrom .closed text else none
      else if mode = .closed then none
      else (readFrom .plain text).map (.append [c])

/-- The records of a text. -/
def read (text : String) : Option (List (List String)) :=
  (readFrom .start text.toList).map fun sheet =>
    ((sheet.field :: sheet.fields) :: sheet.records).map fun record => record.map String.ofList

example : read "a,\"b\"\"\n,\",c\r\n\n" = some [["a", "b\"\n,", "c"], [""]] := by decide

example : read "\"a\\\"b\"" = none := by decide

/-! ## Fields -/

variable {chars text : List Char} {sheet : Sheet}

theorem Sheet.append_append (first second : List Char) (sheet : Sheet) :
    (sheet.append second).append first = sheet.append (first ++ second) := by
  simp [append]

theorem Sheet.append_nil : Sheet.append [] = id := rfl

/-- What stands between quotes without a quote in it is read as it is. -/
theorem readFrom_quoted (unquoted : '"' ∉ chars) :
    readFrom .quoted (chars ++ text) = (readFrom .quoted text).map (.append chars) := by
  induction chars with
  | nil => rw [Sheet.append_nil, Option.map_id]; rfl
  | cons c chars ih =>
      have other : c ≠ '"' := fun same => unquoted (same ▸ List.mem_cons_self)
      rw [List.cons_append, readFrom, if_pos rfl, if_neg other,
        ih fun inside => unquoted (List.mem_cons_of_mem c inside), Option.map_map]
      exact congrArg (Option.map · _) (funext fun sheet => Sheet.append_append [c] chars sheet)

theorem readFrom_closing : readFrom .quoted ('"' :: text) = readFrom .closed text := by
  rw [readFrom, if_pos rfl, if_pos rfl]

theorem readFrom_opening : readFrom .start ('"' :: text) = readFrom .quoted text := by
  rw [readFrom, if_neg (by decide), if_pos rfl, if_pos rfl]

theorem readFrom_comma {mode : Mode} (outside : mode ≠ .quoted) :
    readFrom mode (',' :: text) = (readFrom .start text).map .nextField := by
  rw [readFrom, if_neg outside, if_neg (by decide), if_pos rfl]

theorem readFrom_line {mode : Mode} (outside : mode ≠ .quoted) (more : text ≠ []) :
    readFrom mode ('\n' :: text) = (readFrom .start text).map .nextRecord := by
  rw [readFrom, if_neg outside, if_neg (by decide), if_neg (by decide), if_pos rfl,
    if_neg (by simpa using more)]

/-- A character that stands for itself without quotes. -/
def isPlain (c : Char) : Bool := c != '"' && c != ',' && c != '\n' && c != '\r'

theorem readFrom_plain {mode : Mode} (text : List Char) (open' : mode = .start ∨ mode = .plain)
    (plain : ∀ c ∈ chars, isPlain c = true) :
    ∃ mode', (mode' = .start ∨ mode' = .plain) ∧
      readFrom mode (chars ++ text) = (readFrom mode' text).map (.append chars) := by
  induction chars generalizing mode with
  | nil => exact ⟨mode, open', by rw [Sheet.append_nil, Option.map_id]; rfl⟩
  | cons c chars ih =>
      obtain ⟨mode', opens, rest⟩ := ih (.inr rfl) fun d inside =>
        plain d (List.mem_cons_of_mem c inside)
      have own := plain c List.mem_cons_self
      simp only [isPlain, Bool.and_eq_true, bne_iff_ne] at own
      refine ⟨mode', opens, ?_⟩
      have outside : mode ≠ .quoted ∧ mode ≠ .closed := by
        rcases open' with rfl | rfl <;> decide
      rw [List.cons_append, readFrom, if_neg outside.1, if_neg own.1.1.1, if_neg own.1.1.2,
        if_neg own.1.2, if_neg own.2, if_neg outside.2, rest, Option.map_map]
      exact congrArg (Option.map · _) (funext fun sheet => Sheet.append_append [c] chars sheet)

/-! ## Records -/

/-- Fields with commas between them. -/
def joined : List (List Char) → List Char
  | [] => []
  | [field] => field
  | field :: fields => field ++ ',' :: joined fields

/-- A text that ends the record before it. -/
def EndsRecord (text : List Char) : Prop := text = [] ∨ ∃ rest, rest ≠ [] ∧ text = '\n' :: rest

/-- The end of a record is the same after any field. -/
theorem EndsRecord.readFrom_eq {mode : Mode} (ends : EndsRecord text) (outside : mode ≠ .quoted) :
    readFrom mode text = readFrom .closed text := by
  rcases ends with rfl | ⟨rest, more, rfl⟩
  · rw [readFrom, readFrom, if_neg outside, if_neg (by decide)]
  · rw [readFrom_line outside more, readFrom_line (by decide) more]

theorem EndsRecord.shape (ends : EndsRecord text) (found : readFrom .closed text = some sheet) :
    sheet.field = [] ∧ sheet.fields = [] := by
  rcases ends with rfl | ⟨rest, more, rfl⟩
  · rw [readFrom, if_neg (by decide)] at found
    cases found
    exact ⟨rfl, rfl⟩
  · rw [readFrom_line (by decide) more] at found
    obtain ⟨next, _, rfl⟩ := Option.map_eq_some_iff.mp found
    exact ⟨rfl, rfl⟩

theorem readFrom_joined {field : List Char} {fields : List (List Char)}
    (plain : ∀ f ∈ field :: fields, ∀ c ∈ f, isPlain c = true) (ends : EndsRecord text) :
    readFrom .start (joined (field :: fields) ++ text) =
      (readFrom .closed text).map fun sheet => ⟨field, fields, sheet.records⟩ := by
  induction fields generalizing field with
  | nil =>
      obtain ⟨mode, opens, whole⟩ := readFrom_plain text (.inl rfl)
        (plain field List.mem_cons_self)
      have outside : mode ≠ .quoted := by rcases opens with rfl | rfl <;> decide
      rw [joined, whole, ends.readFrom_eq outside]
      refine Option.map_congr fun sheet found => ?_
      obtain ⟨own, others⟩ := ends.shape found
      rw [Sheet.append, own, others, List.append_nil]
  | cons next fields ih =>
      obtain ⟨mode, opens, whole⟩ := readFrom_plain (',' :: (joined (next :: fields) ++ text))
        (.inl rfl) (plain field List.mem_cons_self)
      have outside : mode ≠ .quoted := by rcases opens with rfl | rfl <;> decide
      rw [joined, List.append_assoc, List.cons_append, whole, readFrom_comma outside,
        ih fun f inside => plain f (List.mem_cons_of_mem field inside)]
      simp only [Option.map_map]
      refine congrArg (Option.map · _) (funext fun sheet => ?_)
      simp [Sheet.nextField, Sheet.append]
      exact List.cons_ne_nil next fields

end Data.Csv
