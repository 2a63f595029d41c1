import Mathlib

/-!
# Digits of one width read as digits of another

A loop reads digits of `w` bits each into an accumulator, most significant first, and writes
digits of `v` bits each as soon as it has enough bits. What it has written, with the bits that
wait, is the number that it has read: `Repacks` is that invariant. Only the low bits of the
accumulator matter, so it may be kept modulo a power of two.
-/

namespace Data

/-- The number that the digits of `w` bits write, most significant first. -/
def numberOf (w : Nat) (digits : List Nat) : Nat := Nat.ofDigits (2 ^ w) digits.reverse

@[simp] theorem numberOf_nil {w : Nat} : numberOf w [] = 0 := rfl

theorem numberOf_concat {w d : Nat} {digits : List Nat} :
    numberOf w (digits ++ [d]) = numberOf w digits * 2 ^ w + d := by
  rw [numberOf, List.reverse_append, List.reverse_singleton, List.singleton_append,
    Nat.ofDigits_cons, numberOf]
  ring

/-- As many digits that write the same number are the same digits. -/
theorem numberOf_inj {w : Nat} {digits digits' : List Nat} (positive : 0 < w)
    (length : digits.length = digits'.length) (small : ∀ d ∈ digits, d < 2 ^ w)
    (small' : ∀ d ∈ digits', d < 2 ^ w) (same : numberOf w digits = numberOf w digits') :
    digits = digits' := by
  have reversed : digits.reverse = digits'.reverse := by
    refine Nat.ofDigits_inj_of_len_eq (Nat.one_lt_two_pow positive.ne') ?_ ?_ ?_ same
    · rw [List.length_reverse, List.length_reverse, length]
    · exact fun d inside => small d (List.mem_reverse.mp inside)
    · exact fun d inside => small' d (List.mem_reverse.mp inside)
  exact List.reverse_injective reversed

/-- `seen` is written as `out`, but for the low `bits` of the accumulator. -/
structure Repacks (w v : Nat) (seen out : List Nat) (bits value : Nat) : Prop where
  number : numberOf v out * 2 ^ bits + value % 2 ^ bits = numberOf w seen
  length : v * out.length + bits = w * seen.length
  small : ∀ d ∈ out, d < 2 ^ v

section

variable {w v bits value value' d : Nat} {seen out : List Nat}

theorem Repacks.start : Repacks w v [] [] 0 value where
  number := by simp [Nat.mod_one]
  length := rfl
  small _ inside := (List.not_mem_nil inside).elim

/-- A digit is read. -/
theorem Repacks.read (packs : Repacks w v seen out bits value)
    (pushed : value' % 2 ^ (bits + w) = value % 2 ^ bits * 2 ^ w + d) :
    Repacks w v (seen ++ [d]) out (bits + w) value' where
  number := by
    rw [pushed, numberOf_concat, ← packs.number, pow_add]
    ring
  length := by
    have length := packs.length
    rw [List.length_append, List.length_singleton, Nat.mul_add, ← length]
    ring
  small := packs.small

/-- A digit is written. -/
theorem Repacks.write (packs : Repacks w v seen out bits value) (enough : v ≤ bits) :
    Repacks w v seen (out ++ [value / 2 ^ (bits - v) % 2 ^ v]) (bits - v) value where
  number := by
    obtain ⟨rest, rfl⟩ := Nat.exists_eq_add_of_le' enough
    rw [Nat.add_sub_cancel, numberOf_concat, ← packs.number, pow_add, Nat.mod_mul]
    ring
  length := by
    rw [List.length_append, List.length_singleton, ← packs.length]
    rw [Nat.mul_add]
    omega
  small d inside := by
    rcases List.mem_append.mp inside with earlier | last
    · exact packs.small d earlier
    · rw [List.mem_singleton.mp last]
      exact Nat.mod_lt _ (Nat.two_pow_pos v)

/-- The last bits are written with zeros after them. -/
theorem Repacks.pad (packs : Repacks w v seen out bits value) (fewer : bits ≤ v) :
    numberOf v (out ++ [value * 2 ^ (v - bits) % 2 ^ v]) =
        numberOf w seen * 2 ^ (v - bits) ∧
      v * (out ++ [value * 2 ^ (v - bits) % 2 ^ v]).length = w * seen.length + (v - bits) := by
  obtain ⟨rest, rfl⟩ := Nat.exists_eq_add_of_le fewer
  refine ⟨?_, ?_⟩
  · rw [Nat.add_sub_cancel_left, numberOf_concat, ← packs.number, pow_add,
      Nat.mul_mod_mul_right]
    ring
  · rw [List.length_append, List.length_singleton, ← packs.length, Nat.mul_add]
    omega

/-- What was written with zeros after it, and is read back, is what it was. -/
theorem Repacks.back {original : List Nat} {zeros : Nat} (packs : Repacks v w seen out bits value)
    (rest : bits < w) (few : zeros < w)
    (number : numberOf v seen = numberOf w original * 2 ^ zeros)
    (length : v * seen.length = w * original.length + zeros)
    (small : ∀ d ∈ original, d < 2 ^ w) : out = original := by
  have positive : 0 < w := by omega
  have total : bits + w * out.length = zeros + w * original.length := by
    have written := packs.length
    omega
  have lengths : out.length = original.length := by
    have quotient := congrArg (· / w) total
    rwa [Nat.add_mul_div_left _ _ positive, Nat.add_mul_div_left _ _ positive,
      Nat.div_eq_of_lt rest, Nat.div_eq_of_lt few, Nat.zero_add, Nat.zero_add] at quotient
  have same : bits = zeros := by
    rw [lengths] at total
    omega
  refine numberOf_inj positive lengths packs.small small ?_
  have numbers := packs.number
  rw [number, same] at numbers
  have quotient := congrArg (· / 2 ^ zeros) numbers
  rwa [Nat.mul_comm, Nat.mul_add_div (Nat.two_pow_pos zeros),
    Nat.div_eq_of_lt (Nat.mod_lt _ (Nat.two_pow_pos zeros)), Nat.add_zero,
    Nat.mul_div_cancel _ (Nat.two_pow_pos zeros)] at quotient

end

/-! ## The accumulator as a 32-bit integer -/

section

variable {value : BitVec 32} {w bits d : Nat}

/-- `(value << w) | d` has the low bits of `value` before those of `d`. -/
theorem shiftLeft_or_mod (fits : bits + w ≤ 32) (small : d < 2 ^ w) :
    (value <<< w ||| BitVec.ofNat 32 d).toNat % 2 ^ (bits + w) =
      value.toNat % 2 ^ bits * 2 ^ w + d := by
  have below : 2 ^ w ≤ 2 ^ (bits + w) := Nat.pow_le_pow_right Nat.two_pos (by omega)
  have word : 2 ^ (bits + w) ∣ 2 ^ 32 := Nat.pow_dvd_pow 2 fits
  rw [BitVec.toNat_or, BitVec.toNat_shiftLeft, BitVec.toNat_ofNat, Nat.or_mod_two_pow,
    Nat.mod_mod_of_dvd _ word, Nat.mod_mod_of_dvd _ word, Nat.mod_eq_of_lt (small.trans_le below),
    Nat.shiftLeft_eq, pow_add, Nat.mul_mod_mul_right, Nat.mul_comm, ← Nat.two_pow_add_eq_or_of_lt small]

/-- `(value >>> n) & (2 ** w - 1)`. -/
theorem ushiftRight_and {n : Nat} (fits : w ≤ 32) :
    (value >>> n &&& BitVec.ofNat 32 (2 ^ w - 1)).toNat = value.toNat / 2 ^ n % 2 ^ w := by
  have small : 2 ^ w - 1 < 2 ^ 32 := by
    have le : 2 ^ w ≤ 2 ^ 32 := Nat.pow_le_pow_right Nat.two_pos fits
    have positive := Nat.two_pow_pos w
    omega
  rw [BitVec.toNat_and, BitVec.toNat_ushiftRight, BitVec.toNat_ofNat, Nat.mod_eq_of_lt small,
    Nat.and_two_pow_sub_one_eq_mod, Nat.shiftRight_eq_div_pow]

/-- `(value << n) & (2 ** w - 1)`. -/
theorem shiftLeft_and {n : Nat} (fits : w ≤ 32) :
    (value <<< n &&& BitVec.ofNat 32 (2 ^ w - 1)).toNat = value.toNat * 2 ^ n % 2 ^ w := by
  have small : 2 ^ w - 1 < 2 ^ 32 := by
    have le : 2 ^ w ≤ 2 ^ 32 := Nat.pow_le_pow_right Nat.two_pos fits
    have positive := Nat.two_pow_pos w
    omega
  rw [BitVec.toNat_and, BitVec.toNat_shiftLeft, BitVec.toNat_ofNat, Nat.mod_eq_of_lt small,
    Nat.and_two_pow_sub_one_eq_mod, Nat.mod_mod_of_dvd _ (Nat.pow_dvd_pow 2 fits),
    Nat.shiftLeft_eq]

end

end Data
