import BirthHub.Data.Radix

/-!
# Secrets in base 32

`toBase32` and `fromBase32` of `apps/api/src/modules/auth/mfa.service.ts`. Both keep the bits that
wait in a 32-bit accumulator that is never masked, of which the low bits are what counts. A text is
read in upper case, and what is outside the alphabet is left out only then, so that a letter whose
upper case is several letters is read as these.
-/

namespace Mfa

open Data

/-! ## The code -/

def BASE32_ALPHABET : String := "ABCDEFGHIJKLMNOPQRSTUVWXYZ234567"

/-- `BASE32_ALPHABET[d]`. -/
def symbol (d : Nat) : Char := BASE32_ALPHABET.toList.getD d '='

structure Packing where
  bits : Nat := 0
  value : BitVec 32 := 0
  output : List Char := []

/-- `while (bits >= 5)`. -/
def Packing.flush (s : Packing) : Packing :=
  if 5 ≤ s.bits then
    flush { s with
      output := s.output ++ [symbol (s.value >>> (s.bits - 5) &&& 31).toNat]
      bits := s.bits - 5 }
  else s
termination_by s.bits

def Packing.push (s : Packing) (byte : UInt8) : Packing :=
  flush { s with
    value := s.value <<< 8 ||| BitVec.ofNat 32 byte.toNat
    bits := s.bits + 8 }

def toBase32 (buffer : List UInt8) : String :=
  let s := buffer.foldl Packing.push {}
  String.ofList (if 0 < s.bits then
    s.output ++ [symbol (s.value <<< (5 - s.bits) &&& 31).toNat]
  else s.output)

/-- `c.toUpperCase().replace(/[^A-Z2-7]/g, "")` of one character. -/
def normalizedChar (c : Char) : List Char :=
  match c with
  | 'ß' => ['S', 'S']
  | 'ı' => ['I']
  | 'ŉ' => ['N']
  | 'ſ' => ['S']
  | 'ǰ' => ['J']
  | 'ẖ' => ['H']
  | 'ẗ' => ['T']
  | 'ẘ' => ['W']
  | 'ẙ' => ['Y']
  | 'ẚ' => ['A']
  | 'ﬀ' => ['F', 'F']
  | 'ﬁ' => ['F', 'I']
  | 'ﬂ' => ['F', 'L']
  | 'ﬃ' => ['F', 'F', 'I']
  | 'ﬄ' => ['F', 'F', 'L']
  | 'ﬅ' => ['S', 'T']
  | 'ﬆ' => ['S', 'T']
  | c => if c.toUpper ∈ BASE32_ALPHABET.toList then [c.toUpper] else []

/-- `secret.replace(/=+$/g, "").toUpperCase().replace(/[^A-Z2-7]/g, "")`. -/
def normalized (secret : String) : List Char :=
  (secret.toList.rdropWhile (· = '=')).flatMap normalizedChar

structure Unpacking where
  bits : Nat := 0
  value : BitVec 32 := 0
  bytes : List UInt8 := []

def Unpacking.push (s : Unpacking) (char : Char) : Unpacking :=
  match BASE32_ALPHABET.toList.idxOf? char with
  | none => s
  | some index =>
      let value := s.value <<< 5 ||| BitVec.ofNat 32 index
      let bits := s.bits + 5
      if 8 ≤ bits then
        { value
          bits := bits - 8
          bytes := s.bytes ++ [UInt8.ofNat (value >>> (bits - 8) &&& 255).toNat] }
      else { s with value, bits }

def fromBase32 (secret : String) : List UInt8 :=
  ((normalized secret).foldl Unpacking.push {}).bytes

/-! ## Writing -/

/-- The output is what was packed of the bytes. -/
def Packing.Holds (s : Packing) (buffer : List UInt8) (digits : List Nat) : Prop :=
  s.output = digits.map symbol ∧
    Repacks 8 5 (buffer.map UInt8.toNat) digits s.bits s.value.toNat

section

variable {s : Packing} {buffer : List UInt8} {digits : List Nat}

theorem Packing.Holds.flush (holds : s.Holds buffer digits) :
    ∃ digits', s.flush.Holds buffer digits' ∧ s.flush.bits < 5 := by
  induction bits : s.bits using Nat.strong_induction_on generalizing s digits with
  | _ n ih =>
      unfold Packing.flush
      split
      · rename_i enough
        obtain ⟨output, packs⟩ := holds
        have digit : (s.value >>> (s.bits - 5) &&& 31).toNat =
            s.value.toNat / 2 ^ (s.bits - 5) % 2 ^ 5 := ushiftRight_and (w := 5) (by omega)
        have written : s.output ++ [symbol (s.value >>> (s.bits - 5) &&& 31).toNat] =
            (digits ++ [s.value.toNat / 2 ^ (s.bits - 5) % 2 ^ 5]).map symbol := by
          rw [List.map_append, output, digit]
          rfl
        exact ih (s.bits - 5) (by omega) ⟨written, packs.write enough⟩ rfl
      · rename_i fewer
        exact ⟨digits, holds, by omega⟩

theorem Packing.Holds.push {byte : UInt8} (holds : s.Holds buffer digits) (few : s.bits < 5) :
    ∃ digits', (s.push byte).Holds (buffer ++ [byte]) digits' ∧ (s.push byte).bits < 5 := by
  refine Packing.Holds.flush ⟨holds.1, ?_⟩
  rw [List.map_append]
  exact holds.2.read (shiftLeft_or_mod (by omega) byte.toNat_lt)

theorem Packing.holds_foldl (buffer : List UInt8) : ∃ digits,
    (buffer.foldl Packing.push {}).Holds buffer digits ∧ (buffer.foldl Packing.push {}).bits < 5 := by
  induction buffer using List.reverseRecOn with
  | nil => exact ⟨[], ⟨rfl, .start⟩, Nat.succ_pos 4⟩
  | append_singleton buffer byte ih =>
      obtain ⟨digits, holds, few⟩ := ih
      rw [List.foldl_append]
      exact holds.push few

end

/-- What is written are digits of the alphabet, which write the bytes with fewer than five zeros
after them. -/
theorem toBase32_digits (buffer : List UInt8) : ∃ digits zeros,
    toBase32 buffer = String.ofList (digits.map symbol) ∧ (∀ d ∈ digits, d < 2 ^ 5) ∧ zeros < 5 ∧
      numberOf 5 digits = numberOf 8 (buffer.map UInt8.toNat) * 2 ^ zeros ∧
      5 * digits.length = 8 * (buffer.map UInt8.toNat).length + zeros := by
  obtain ⟨digits, ⟨output, packs⟩, few⟩ := Packing.holds_foldl buffer
  rw [toBase32]
  generalize buffer.foldl Packing.push {} = s at output packs few
  by_cases rest : 0 < s.bits
  · have digit : (s.value <<< (5 - s.bits) &&& 31).toNat =
        s.value.toNat * 2 ^ (5 - s.bits) % 2 ^ 5 := shiftLeft_and (w := 5) (by omega)
    obtain ⟨number, length⟩ := packs.pad (by omega)
    refine ⟨_, 5 - s.bits, ?_, fun d inside => ?_, by omega, number, length⟩
    · rw [if_pos rest, output, digit, List.map_append]
      rfl
    · rcases List.mem_append.mp inside with earlier | last
      · exact packs.small d earlier
      · rw [List.mem_singleton.mp last]
        exact Nat.mod_lt _ (Nat.two_pow_pos 5)
  · have empty : s.bits = 0 := by omega
    have number := packs.number
    have length := packs.length
    rw [empty] at number length
    refine ⟨digits, 0, ?_, packs.small, by omega, ?_, length⟩
    · rw [if_neg rest, output]
    · rw [← number, Nat.pow_zero, Nat.mod_one, Nat.add_zero, Nat.mul_one, Nat.mul_one]

/-! ## Reading -/

theorem symbol_spec : ∀ d < 2 ^ 5, BASE32_ALPHABET.toList.idxOf? (symbol d) = some d ∧
    normalizedChar (symbol d) = [symbol d] := by
  decide +kernel

section

variable {s : Unpacking} {d : Nat} {digits : List Nat}

theorem Unpacking.push_symbol (small : d < 2 ^ 5) (few : s.bits < 8)
    (packs : Repacks 5 8 digits (s.bytes.map UInt8.toNat) s.bits s.value.toNat) :
    Repacks 5 8 (digits ++ [d]) ((s.push (symbol d)).bytes.map UInt8.toNat)
      (s.push (symbol d)).bits (s.push (symbol d)).value.toNat ∧ (s.push (symbol d)).bits < 8 := by
  rw [Unpacking.push, (symbol_spec d small).1]
  have pushed : (s.value <<< 5 ||| BitVec.ofNat 32 d).toNat % 2 ^ (s.bits + 5) =
      s.value.toNat % 2 ^ s.bits * 2 ^ 5 + d := shiftLeft_or_mod (by omega) small
  have more := packs.read pushed
  dsimp only
  split
  · rename_i enough
    refine ⟨?_, by dsimp only; omega⟩
    have written := more.write enough
    have byte : ((s.value <<< 5 ||| BitVec.ofNat 32 d) >>> (s.bits + 5 - 8) &&& 255).toNat =
        (s.value <<< 5 ||| BitVec.ofNat 32 d).toNat / 2 ^ (s.bits + 5 - 8) % 2 ^ 8 :=
      ushiftRight_and (w := 8) (by omega)
    dsimp only
    rw [List.map_append, List.map_singleton, byte, UInt8.toNat_ofNat',
      Nat.mod_mod_of_dvd _ (Nat.dvd_refl _)]
    exact written
  · rename_i fewer
    exact ⟨more, by dsimp only; omega⟩

theorem Unpacking.foldl_symbols (digits : List Nat) (small : ∀ d ∈ digits, d < 2 ^ 5) :
    let s := (digits.map symbol).foldl Unpacking.push {}
    Repacks 5 8 digits (s.bytes.map UInt8.toNat) s.bits s.value.toNat ∧ s.bits < 8 := by
  induction digits using List.reverseRecOn with
  | nil => exact ⟨.start, Nat.succ_pos 7⟩
  | append_singleton digits d ih =>
      obtain ⟨packs, few⟩ := ih fun e inside => small e (List.mem_append_left _ inside)
      rw [List.map_append, List.foldl_append]
      exact push_symbol (small d (List.mem_append_right _ (List.mem_singleton_self d))) few packs

end

/-- The padding would be left out anyway. -/
theorem normalized_eq (secret : String) : normalized secret = secret.toList.flatMap normalizedChar := by
  rw [normalized]
  induction secret.toList using List.reverseRecOn with
  | nil => rfl
  | append_singleton chars c ih =>
      rw [List.rdropWhile_concat]
      split
      · rename_i padding
        rw [ih, List.flatMap_append, of_decide_eq_true padding]
        exact (List.append_nil _).symm
      · rfl

theorem normalized_symbols (digits : List Nat) (small : ∀ d ∈ digits, d < 2 ^ 5) :
    normalized (String.ofList (digits.map symbol)) = digits.map symbol := by
  rw [normalized_eq, String.toList_ofList]
  induction digits with
  | nil => rfl
  | cons d digits ih =>
      rw [List.map_cons, List.flatMap_cons, (symbol_spec d (small d List.mem_cons_self)).2,
        ih fun e inside => small e (List.mem_cons_of_mem d inside)]
      rfl

theorem fromBase32_toBase32 (buffer : List UInt8) : fromBase32 (toBase32 buffer) = buffer := by
  obtain ⟨digits, zeros, written, small, few, number, length⟩ := toBase32_digits buffer
  rw [written, fromBase32, normalized_symbols digits small]
  obtain ⟨packs, rest⟩ := Unpacking.foldl_symbols digits small
  have bytes := packs.back rest (by omega) number length (fun d inside => by
    obtain ⟨byte, _, rfl⟩ := List.mem_map.mp inside
    exact byte.toNat_lt)
  exact List.map_injective_iff.mpr (fun _ _ same => UInt8.toNat_inj.mp same) bytes

/-- Strings whose characters are read alike are. -/
theorem fromBase32_congr {secret secret' : String}
    (same : secret.toList.flatMap normalizedChar = secret'.toList.flatMap normalizedChar) :
    fromBase32 secret = fromBase32 secret' := by
  rw [fromBase32, fromBase32, normalized_eq, normalized_eq, same]

/-- A character without a letter of the alphabet in its upper case, also one that pads, is left
out. -/
theorem fromBase32_ignores {front back : String} {c : Char} (outside : normalizedChar c = []) :
    fromBase32 (front.push c ++ back) = fromBase32 (front ++ back) := by
  refine fromBase32_congr ?_
  rw [String.toList_append, String.toList_push, String.toList_append, List.flatMap_append,
    List.flatMap_append, List.flatMap_append, List.flatMap_singleton, outside, List.append_nil]

theorem normalizedChar_lower : ∀ n < 123, 97 ≤ n →
    normalizedChar (Char.ofNat n).toUpper = normalizedChar (Char.ofNat n) := by
  decide +kernel

theorem normalizedChar_toUpper (c : Char) : normalizedChar c.toUpper = normalizedChar c := by
  by_cases lower : c.isLower = true
  · have bounds : 97 ≤ c.toNat ∧ c.toNat ≤ 122 := by
      simpa [Char.isLower, UInt32.le_iff_toNat_le] using lower
    obtain ⟨least, most⟩ := bounds
    have checked := normalizedChar_lower c.toNat (Nat.lt_succ_of_le most) least
    rwa [Char.ofNat_toNat] at checked
  · rw [Char.toUpper_eq_of_not_isLower lower]

/-- **Secrets in base 32 are read back.** Reading ignores the case of the letters, padding, and
every character without one of the alphabet in its upper case. -/
theorem base32_roundTrip : (∀ buffer, fromBase32 (toBase32 buffer) = buffer) ∧
    (∀ secret : String, fromBase32 (secret.map Char.toUpper) = fromBase32 secret) ∧
    (∀ (secret : String) (n : Nat),
      fromBase32 (secret ++ String.ofList (List.replicate n '=')) = fromBase32 secret) ∧
    ∀ (front back : String) (c : Char), normalizedChar c = [] →
      fromBase32 (front.push c ++ back) = fromBase32 (front ++ back) := by
  refine ⟨fromBase32_toBase32, fun secret => ?_, fun secret n => ?_, fun front back c outside =>
    fromBase32_ignores outside⟩
  · refine fromBase32_congr ?_
    rw [String.toList_map, List.flatMap_map]
    exact congrArg (List.flatMap · secret.toList) (funext normalizedChar_toUpper)
  · refine fromBase32_congr ?_
    have padding : (List.replicate n '=').flatMap normalizedChar = [] :=
      List.flatMap_eq_nil_iff.mpr fun c inside => by rw [List.eq_of_mem_replicate inside]; rfl
    rw [String.toList_append, String.toList_ofList, List.flatMap_append, padding, List.append_nil]

/-- `ß` is outside the alphabet in either case, and is read as `SS`. -/
theorem sharpS_not_ignored : ¬ ∀ (front back : String) (c : Char),
    c.toUpper ∉ BASE32_ALPHABET.toList →
      fromBase32 (front.push c ++ back) = fromBase32 (front ++ back) := by
  intro ignored
  have read : fromBase32 ("".push 'ß' ++ "") = [148] := by decide +kernel
  have none : fromBase32 ("" ++ "") = [] := by decide +kernel
  have same := ignored "" "" 'ß' (by decide +kernel)
  rw [read, none] at same
  cases same

end Mfa
