import BirthHub.Data.Encoding
import Mathlib

/-!
# Reading UTF-8

`Buffer.toString("utf8")`: a byte that cannot go on from what was read becomes a replacement
character, and is then read anew. The text that was written is what is read.
-/

namespace Data

/-- A character of which `needed + 1` bytes are still to come, the next one in a range. -/
structure PartialChar where
  needed : Nat
  value : Nat
  lower : Nat
  upper : Nat

/-- What the first byte of a character announces. -/
def readLead (byte : Nat) : Char ⊕ PartialChar :=
  if byte < 0x80 then .inl (Char.ofNat byte)
  else if 0xC2 ≤ byte ∧ byte ≤ 0xDF then .inr ⟨0, byte - 0xC0, 0x80, 0xBF⟩
  else if 0xE0 ≤ byte ∧ byte ≤ 0xEF then
    .inr ⟨1, byte - 0xE0, if byte = 0xE0 then 0xA0 else 0x80, if byte = 0xED then 0x9F else 0xBF⟩
  else if 0xF0 ≤ byte ∧ byte ≤ 0xF4 then
    .inr ⟨2, byte - 0xF0, if byte = 0xF0 then 0x90 else 0x80, if byte = 0xF4 then 0x8F else 0xBF⟩
  else .inl '\uFFFD'

def PartialChar.accepts (p : PartialChar) (byte : Nat) : Bool :=
  p.lower ≤ byte && byte ≤ p.upper

/-- The value with the six bits of one more byte. -/
def PartialChar.extended (p : PartialChar) (byte : Nat) : Nat := p.value * 64 + (byte - 0x80)

theorem PartialChar.extended_mk {needed value lower upper byte : Nat} :
    PartialChar.extended ⟨needed, value, lower, upper⟩ byte = value * 64 + (byte - 0x80) := rfl

def readBytes : Option PartialChar → List Nat → List Char
  | none, [] => []
  | some _, [] => ['\uFFFD']
  | none, byte :: bytes =>
      match readLead byte with
      | .inl c => c :: readBytes none bytes
      | .inr p => readBytes (some p) bytes
  | some p, byte :: bytes =>
      if p.accepts byte then
        match p.needed with
        | 0 => Char.ofNat (p.extended byte) :: readBytes none bytes
        | needed + 1 => readBytes (some ⟨needed, p.extended byte, 0x80, 0xBF⟩) bytes
      else
        match readLead byte with
        | .inl c => '\uFFFD' :: c :: readBytes none bytes
        | .inr p => '\uFFFD' :: readBytes (some p) bytes

def fromUtf8 (bytes : List Nat) : String := String.ofList (readBytes none bytes)

/-! ## What was written is read -/

theorem readBytes_char {b : Nat} {c : Char} {bytes : List Nat} (lead : readLead b = .inl c) :
    readBytes none (b :: bytes) = c :: readBytes none bytes := by
  rw [readBytes, lead]

theorem readBytes_lead {b : Nat} {p : PartialChar} {bytes : List Nat}
    (lead : readLead b = .inr p) : readBytes none (b :: bytes) = readBytes (some p) bytes := by
  rw [readBytes, lead]

theorem readBytes_last {p : PartialChar} {b : Nat} {bytes : List Nat} (inside : p.accepts b = true)
    (last : p.needed = 0) :
    readBytes (some p) (b :: bytes) = Char.ofNat (p.extended b) :: readBytes none bytes := by
  rw [readBytes, if_pos inside, last]

theorem readBytes_more {p : PartialChar} {b needed : Nat} {bytes : List Nat}
    (inside : p.accepts b = true) (more : p.needed = needed + 1) :
    readBytes (some p) (b :: bytes) =
      readBytes (some ⟨needed, p.extended b, 0x80, 0xBF⟩) bytes := by
  rw [readBytes, if_pos inside, more]

theorem PartialChar.accepts_iff {p : PartialChar} {b : Nat} :
    p.accepts b = true ↔ p.lower ≤ b ∧ b ≤ p.upper := by
  simp [PartialChar.accepts]

/-- A byte between 128 and 191 goes on from any character without a narrower range. -/
theorem accepts_continuation {needed value b : Nat} (low : 0x80 ≤ b) (high : b ≤ 0xBF) :
    PartialChar.accepts ⟨needed, value, 0x80, 0xBF⟩ b = true :=
  PartialChar.accepts_iff.mpr ⟨low, high⟩

theorem readLead_two {b : Nat} (low : 0xC2 ≤ b) (high : b ≤ 0xDF) :
    readLead b = .inr ⟨0, b - 0xC0, 0x80, 0xBF⟩ := by
  rw [readLead, if_neg (by omega), if_pos ⟨low, high⟩]

theorem readLead_three {b : Nat} (low : 0xE0 ≤ b) (high : b ≤ 0xEF) :
    readLead b = .inr ⟨1, b - 0xE0, if b = 0xE0 then 0xA0 else 0x80,
      if b = 0xED then 0x9F else 0xBF⟩ := by
  rw [readLead, if_neg (by omega), if_neg (by omega), if_pos ⟨low, high⟩]

theorem readLead_four {b : Nat} (low : 0xF0 ≤ b) (high : b ≤ 0xF4) :
    readLead b = .inr ⟨2, b - 0xF0, if b = 0xF0 then 0x90 else 0x80,
      if b = 0xF4 then 0x8F else 0xBF⟩ := by
  rw [readLead, if_neg (by omega), if_neg (by omega), if_neg (by omega), if_pos ⟨low, high⟩]

theorem toNat_ofNat_byte {n : Nat} (small : n < 256) : (UInt8.ofNat n).toNat = n := by
  rw [UInt8.toNat_ofNat']
  omega

theorem readBytes_utf8EncodeChar (c : Char) (bytes : List Nat) :
    readBytes none ((String.utf8EncodeChar c).map UInt8.toNat ++ bytes) =
      c :: readBytes none bytes := by
  have scalar : c.toNat < 0xD800 ∨ 0xDFFF < c.toNat ∧ c.toNat < 0x110000 := c.valid
  have same : Char.ofNat c.toNat = c := Char.ofNat_toNat c
  rw [String.utf8EncodeChar, show c.val.toNat = c.toNat from rfl]
  generalize c.toNat = v at scalar same
  subst same
  by_cases one : v ≤ 0x7f
  · rw [if_pos one, List.map_cons, List.map_nil, toNat_ofNat_byte (by omega), List.singleton_append]
    exact readBytes_char (if_pos (by omega))
  rw [if_neg one]
  by_cases two : v ≤ 0x7ff
  · rw [if_pos two, List.map_cons, List.map_cons, List.map_nil, toNat_ofNat_byte (by omega),
      toNat_ofNat_byte (by omega), List.cons_append, List.singleton_append,
      readBytes_lead (readLead_two (by omega) (by omega)),
      readBytes_last (accepts_continuation (by omega) (by omega)) rfl]
    have whole : PartialChar.extended ⟨0, v / 64 % 32 + 192 - 192, 128, 191⟩ (v % 64 + 128) = v := by
      rw [PartialChar.extended_mk]
      omega
    rw [whole]
  rw [if_neg two]
  by_cases three : v ≤ 0xffff
  · rw [if_pos three, List.map_cons, List.map_cons, List.map_cons, List.map_nil,
      toNat_ofNat_byte (by omega), toNat_ofNat_byte (by omega), toNat_ofNat_byte (by omega),
      List.cons_append, List.cons_append, List.singleton_append,
      readBytes_lead (readLead_three (by omega) (by omega)), readBytes_more ?_ rfl,
      readBytes_last (accepts_continuation (by omega) (by omega)) rfl]
    · have whole : PartialChar.extended ⟨0, PartialChar.extended
          ⟨1, v / 4096 % 16 + 224 - 224, if v / 4096 % 16 + 224 = 224 then 160 else 128,
            if v / 4096 % 16 + 224 = 237 then 159 else 191⟩ (v / 64 % 64 + 128), 128, 191⟩
          (v % 64 + 128) = v := by
        rw [PartialChar.extended_mk, PartialChar.extended_mk]
        omega
      rw [whole]
    · rw [PartialChar.accepts_iff]
      dsimp only
      split <;> split <;> omega
  rw [if_neg three, List.map_cons, List.map_cons, List.map_cons, List.map_cons, List.map_nil,
    toNat_ofNat_byte (by omega), toNat_ofNat_byte (by omega), toNat_ofNat_byte (by omega),
    toNat_ofNat_byte (by omega), List.cons_append, List.cons_append, List.cons_append,
    List.singleton_append, readBytes_lead (readLead_four (by omega) (by omega)),
    readBytes_more ?_ rfl, readBytes_more (accepts_continuation (by omega) (by omega)) rfl,
    readBytes_last (accepts_continuation (by omega) (by omega)) rfl]
  · have whole : PartialChar.extended ⟨0, PartialChar.extended ⟨1, PartialChar.extended
        ⟨2, v / 262144 % 8 + 240 - 240, if v / 262144 % 8 + 240 = 240 then 144 else 128,
          if v / 262144 % 8 + 240 = 244 then 143 else 191⟩ (v / 4096 % 64 + 128), 128, 191⟩
        (v / 64 % 64 + 128), 128, 191⟩ (v % 64 + 128) = v := by
      rw [PartialChar.extended_mk, PartialChar.extended_mk, PartialChar.extended_mk]
      omega
    rw [whole]
  · rw [PartialChar.accepts_iff]
    dsimp only
    split <;> split <;> omega

theorem fromUtf8_utf8 (s : String) : fromUtf8 (utf8 s) = s := by
  have whole (cs : List Char) :
      readBytes none ((cs.flatMap String.utf8EncodeChar).map UInt8.toNat) = cs := by
    induction cs with
    | nil => rfl
    | cons c cs ih => rw [List.flatMap_cons, List.map_append, readBytes_utf8EncodeChar, ih]
  rw [fromUtf8, utf8, whole, String.ofList_toList]

end Data
