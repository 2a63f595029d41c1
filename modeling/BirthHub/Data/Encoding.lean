import Mathlib.Data.List.Basic
import Mathlib.Tactic.IntervalCases

/-!
# Texts for bytes

`Buffer.from(s)` is the UTF-8 bytes of a string, and `toString("base64url")` writes
bytes in groups of three, each as four characters. A digest is written in hexadecimal
digits, so it is no text of bytes in which a group has a certain second byte.
-/

namespace Data

/-- `Buffer.from(s)`. -/
def utf8 (s : String) : List Nat :=
  (s.toList.flatMap String.utf8EncodeChar).map UInt8.toNat

theorem utf8_lt (text : String) : ∀ byte ∈ utf8 text, byte < 256 := by
  intro byte listed
  obtain ⟨own, _, rfl⟩ := List.mem_map.mp listed
  exact own.toNat_lt

theorem utf8_append {s t : String} : utf8 (s ++ t) = utf8 s ++ utf8 t := by
  simp [utf8]

theorem utf8EncodeChar_ascii {c : Char} (ascii : c.toNat < 128) :
    (String.utf8EncodeChar c).map UInt8.toNat = [c.toNat] := by
  have small : c.toNat ≤ 127 := Nat.le_of_lt_succ ascii
  have value : (UInt8.ofNat c.toNat).toNat = c.toNat := by
    rw [UInt8.toNat_ofNat']
    omega
  simp [String.utf8EncodeChar, small, value]

theorem utf8_ascii {s : String} (ascii : ∀ c ∈ s.toList, c.toNat < 128) :
    utf8 s = s.toList.map Char.toNat := by
  unfold utf8
  generalize s.toList = cs at ascii ⊢
  induction cs with
  | nil => rfl
  | cons c cs ih =>
      rw [List.flatMap_cons, List.map_append, utf8EncodeChar_ascii (ascii c List.mem_cons_self),
        ih fun d inside => ascii d (List.mem_cons_of_mem _ inside)]
      rfl

/-- A character of base64url. -/
def base64urlDigit (n : Nat) : Char :=
  if n < 26 then Char.ofNat (65 + n)
  else if n < 52 then Char.ofNat (71 + n)
  else if n < 62 then Char.ofNat (n - 4)
  else if n = 62 then '-'
  else '_'

def base64urlBytes : List Nat → List Char
  | [] => []
  | [a] => [base64urlDigit (a / 4), base64urlDigit (a % 4 * 16)]
  | [a, b] =>
      [base64urlDigit (a / 4), base64urlDigit (a % 4 * 16 + b / 16), base64urlDigit (b % 16 * 4)]
  | a :: b :: c :: bytes =>
      base64urlDigit (a / 4) :: base64urlDigit (a % 4 * 16 + b / 16) ::
        base64urlDigit (b % 16 * 4 + c / 64) :: base64urlDigit (c % 64) :: base64urlBytes bytes

/-- `Buffer.from(s).toString("base64url")`. -/
def base64url (s : String) : String := String.ofList (base64urlBytes (utf8 s))

example : base64url "tenant_a:1" = "dGVuYW50X2E6MQ" := by decide

/-- Four characters for each three bytes: a text whose length is a multiple of four is of
whole groups. -/
theorem three_dvd_length {bytes : List Nat} (whole : 4 ∣ (base64urlBytes bytes).length) :
    3 ∣ bytes.length := by
  induction bytes using base64urlBytes.induct with
  | case1 => exact ⟨0, rfl⟩
  | case2 a => simp [base64urlBytes] at whole
  | case3 a b => simp [base64urlBytes] at whole
  | case4 a b c bytes ih =>
      simp only [base64urlBytes, List.length_cons] at whole ⊢
      have rest := ih (by omega)
      omega

/-- The second character of the last group. -/
theorem mem_base64urlBytes {bytes : List Nat} {a b c : Nat} (whole : 3 ∣ bytes.length) :
    base64urlDigit (a % 4 * 16 + b / 16) ∈ base64urlBytes (bytes ++ [a, b, c]) := by
  induction bytes using base64urlBytes.induct with
  | case1 => simp [base64urlBytes]
  | case2 a => simp at whole
  | case3 a b => simp at whole
  | case4 a' b' c' bytes ih =>
      simp only [List.length_cons] at whole
      simp only [List.cons_append, base64urlBytes, List.mem_cons]
      exact .inr (.inr (.inr (.inr (ih (by omega)))))

/-- The bytes before the last one, of which the one before the last is `b`. -/
theorem exists_last_group {bytes : List Nat} {b c : Nat} (nonempty : bytes ≠ []) :
    ∃ front a, bytes ++ [b, c] = front ++ [a, b, c] := by
  rcases List.eq_nil_or_concat bytes with rfl | ⟨front, a, rfl⟩
  · exact (nonempty rfl).elim
  · exact ⟨front, a, by simp⟩

/-- Bytes that end in a colon and a decimal number, in whole groups, are a text with one of
four characters. -/
theorem mem_base64urlBytes_of_number {bytes digits : List Nat}
    (digit : ∀ d ∈ digits, 48 ≤ d ∧ d ≤ 57) (some : digits ≠ [])
    (whole : 3 ∣ (bytes ++ 58 :: digits).length) :
    ∃ c ∈ base64urlBytes (bytes ++ 58 :: digits), c ∈ ['D', 'T', 'j', 'z'] := by
  -- the byte before the last one is a digit or the colon
  obtain ⟨front, a, b, c, split, high⟩ : ∃ front a b c,
      bytes ++ 58 :: digits = front ++ [a, b, c] ∧ b / 16 = 3 := by
    rcases List.eq_nil_or_concat digits with rfl | ⟨digits, c, rfl⟩
    · exact (some rfl).elim
    rcases List.eq_nil_or_concat digits with rfl | ⟨digits, b, rfl⟩
    · have nonempty : bytes ≠ [] := by
        rintro rfl
        simp at whole
      obtain ⟨front, a, split⟩ := exists_last_group (b := 58) (c := c) nonempty
      exact ⟨front, a, 58, c, by simpa using split, rfl⟩
    · obtain ⟨front, a, split⟩ := exists_last_group (b := b) (c := c)
        (List.append_ne_nil_of_right_ne_nil bytes (List.cons_ne_nil 58 digits))
      have range := digit b (by simp)
      exact ⟨front, a, b, c, by simpa using split, by omega⟩
  rw [split] at whole ⊢
  refine ⟨_, mem_base64urlBytes (by simpa using whole), ?_⟩
  rw [high]
  have four : a % 4 < 4 := Nat.mod_lt _ (by omega)
  interval_cases a % 4 <;> decide

/-- A digit of a digest in hexadecimal. -/
def isHexDigit (c : Char) : Bool := "0123456789abcdef".toList.contains c

end Data
