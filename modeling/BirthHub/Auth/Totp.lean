import BirthHub.Auth.Base32

/-!
# Codes of the second factor

`hotp`, `verifyTotpCode` and `generateCurrentTotp` of `apps/api/src/modules/auth/mfa.service.ts`,
with HMAC-SHA1 as a parameter. The counter is written as two words, of which the lower one is taken
with a signed operator. A word that has its highest bit is negative then, and cannot be written, as
cannot a counter below zero.
-/

namespace Mfa

open Data

/-! ## The code -/

/-- `createHmac("sha1", key).update(message).digest()`. -/
abbrev HmacSha1 := List UInt8 → List UInt8 → Vector UInt8 20

/-- The `RangeError` of a buffer. -/
inductive RangeError
  | outOfRange (received : Int)
deriving DecidableEq

/-- The last `n` bytes of a number, most significant first. -/
def bigEndian : Nat → Nat → List UInt8
  | 0, _ => []
  | n + 1, value => bigEndian n (value / 256) ++ [UInt8.ofNat value]

def writeUInt32BE (value : Int) : Except RangeError (List UInt8) :=
  if 0 ≤ value ∧ value < 4294967296 then .ok (bigEndian 4 value.toNat) else .error (.outOfRange value)

def readUInt32BE (buffer : List UInt8) (offset : Nat) : Except RangeError Nat :=
  if offset + 4 ≤ buffer.length then
    .ok (numberOf 8 (((buffer.drop offset).take 4).map UInt8.toNat))
  else .error (.outOfRange offset)

def hotp (hmacSha1 : HmacSha1) (secret : String) (counter : Int) (digits : Nat) :
    Except RangeError String := do
  let key := fromBase32 secret
  let high ← writeUInt32BE (counter / 0x100000000)
  -- both operands are taken as signed 32-bit integers, and so is the result
  let low ← writeUInt32BE (BitVec.ofInt 32 counter &&& 0xffffffff).toInt
  let digest := (hmacSha1 key (high ++ low)).toList
  let offset := ((digest.getLastD 0) &&& 0x0f).toNat
  let word ← readUInt32BE digest offset
  let binary := (BitVec.ofNat 32 word &&& 0x7fffffff).toNat
  let otp := binary % 10 ^ digits
  pure (String.ofList (otp.repr.toList.leftpad digits '0'))

/-- `Math.floor(now.getTime() / 1000 / TOTP_PERIOD_SECONDS)`. -/
def counterOf (now : Int) : Int := now / 30000

/-- `/^\d{6}$/.test(code)`. -/
def isSixDigits (code : String) : Bool :=
  code.toList.length = 6 && code.toList.all Char.isDigit

/-- `offset` from `-skew` on up to `skew`. -/
def skewOffsets (skew : Nat) : List Int := (List.range (2 * skew + 1)).map fun (i : Nat) => i - skew

/-- The loop over the offsets that are left. -/
def matchesAny (hmacSha1 : HmacSha1) (secret code : String) (currentCounter : Int) :
    List Int → Except RangeError Bool
  | [] => pure false
  | offset :: rest => do
      let candidate ← hotp hmacSha1 secret (currentCounter + offset) 6
      if candidate = code then pure true else matchesAny hmacSha1 secret code currentCounter rest

def verifyTotpCode (hmacSha1 : HmacSha1) (code : String) (clockSkewWindows : Nat) (now : Int)
    (secret : String) : Except RangeError Bool :=
  if isSixDigits code then
    matchesAny hmacSha1 secret code (counterOf now) (skewOffsets clockSkewWindows)
  else pure false

def generateCurrentTotp (hmacSha1 : HmacSha1) (secret : String) (now : Int) :
    Except RangeError String :=
  hotp hmacSha1 secret (counterOf now) 6

/-! ## What a code is -/

/-- The value of RFC 4226 with six digits: the counter is eight bytes, and four bytes of the digest
from the place that its last four bits give, less the highest bit, are the number. -/
def rfc4226 (hmacSha1 : HmacSha1) (key : List UInt8) (counter : Nat) : String :=
  let digest := (hmacSha1 key (bigEndian 8 counter)).toList
  let place := (digest.getLastD 0).toNat % 16
  let number := numberOf 8 (((digest.drop place).take 4).map UInt8.toNat) % 2 ^ 31 % 1000000
  String.ofList (number.repr.toList.leftpad 6 '0')

/-- The counter is at most `skew` windows from the one of this time. -/
def Near (now : Int) (skew : Nat) (counter : Int) : Prop :=
  counterOf now - skew ≤ counter ∧ counter ≤ counterOf now + skew

/-- Verification at a time: the codes of the windows around it are accepted and no others, and
nothing is thrown. -/
structure Verifies (hmacSha1 : HmacSha1) (secret : String) (now : Int) (skew : Nat) : Prop where
  accepts : ∀ time, 0 ≤ counterOf time → counterOf time < 2 ^ 53 → Near now skew (counterOf time) →
    ∃ code, generateCurrentTotp hmacSha1 secret time = .ok code ∧
      verifyTotpCode hmacSha1 code skew now secret = .ok true
  only : ∀ code, verifyTotpCode hmacSha1 code skew now secret = .ok true →
    ∃ counter : Nat, Near now skew counter ∧ code = rfc4226 hmacSha1 (fromBase32 secret) counter
  returns : ∀ code, ∃ accepted, verifyTotpCode hmacSha1 code skew now secret = .ok accepted

/-- The lower word of the counter is below `2 ** 31`. -/
def Writable (counter : Int) : Prop := 0 ≤ counter ∧ counter % 4294967296 < 2147483648

/-! ## Words and bytes -/

section

variable {hmacSha1 : HmacSha1} {secret code : String} {counter : Int}

theorem bigEndian_append (m : Nat) : ∀ n value : Nat,
    bigEndian (m + n) value = bigEndian m (value / 256 ^ n) ++ bigEndian n value
  | 0, value => by rw [Nat.pow_zero, Nat.div_one, bigEndian, List.append_nil]; rfl
  | n + 1, value => by
      rw [← Nat.add_assoc, bigEndian, bigEndian_append m n, bigEndian, Nat.div_div_eq_div_mul,
        ← Nat.pow_succ', List.append_assoc]

theorem bigEndian_mod : ∀ n value : Nat, bigEndian n (value % 256 ^ n) = bigEndian n value
  | 0, _ => rfl
  | n + 1, value => by
      have last : UInt8.ofNat (value % 256 ^ (n + 1)) = UInt8.ofNat value := by
        refine UInt8.toNat_inj.mp ?_
        rw [UInt8.toNat_ofNat', UInt8.toNat_ofNat']
        exact Nat.mod_mod_of_dvd _ (Dvd.intro_left (256 ^ n) (Nat.pow_succ ..).symm)
      have front : value % 256 ^ (n + 1) / 256 = value / 256 % 256 ^ n := by
        rw [Nat.pow_succ', Nat.mod_mul_right_div_self]
      rw [bigEndian, bigEndian, last, front, bigEndian_mod n]

theorem and_ones (value : BitVec 32) : value &&& 0xffffffff = value := BitVec.and_allOnes

theorem lowWord_eq (writable : Writable counter) :
    (BitVec.ofInt 32 counter &&& 0xffffffff).toInt = counter % 4294967296 := by
  obtain ⟨_, low⟩ := writable
  rw [and_ones, BitVec.toInt_ofInt, Int.bmod_def]
  norm_num
  omega

theorem lowWord_neg (high : 2147483648 ≤ counter % 4294967296) :
    (BitVec.ofInt 32 counter &&& 0xffffffff).toInt < 0 := by
  rw [and_ones, BitVec.toInt_ofInt, Int.bmod_def]
  norm_num
  omega

/-! ## One counter -/

theorem writeUInt32BE_of_fits {value : Int} (least : 0 ≤ value) (most : value < 4294967296) :
    writeUInt32BE value = .ok (bigEndian 4 value.toNat) := if_pos ⟨least, most⟩

theorem words_eq (least : 0 ≤ counter) :
    bigEndian 4 (counter / 0x100000000).toNat ++ bigEndian 4 (counter % 4294967296).toNat =
      bigEndian 8 counter.toNat := by
  obtain ⟨n, rfl⟩ := Int.eq_ofNat_of_zero_le least
  have high : ((n : Int) / 0x100000000).toNat = n / 256 ^ 4 := by omega
  have low : ((n : Int) % 4294967296).toNat = n % 256 ^ 4 := by omega
  rw [high, low, bigEndian_mod, Int.toNat_natCast]
  exact (bigEndian_append 4 4 n).symm

theorem readUInt32BE_digest {digest : List UInt8} {place : Nat} (length : digest.length = 20)
    (small : place < 16) : readUInt32BE digest place =
      .ok (numberOf 8 (((digest.drop place).take 4).map UInt8.toNat)) :=
  if_pos (by omega)

/-- A counter whose lower word is below `2 ** 31` has the value of RFC 4226. -/
theorem hotp_of_writable (writable : Writable counter) (small : counter < 2 ^ 64) :
    hotp hmacSha1 secret counter 6 = .ok (rfc4226 hmacSha1 (fromBase32 secret) counter.toNat) := by
  obtain ⟨least, low⟩ := writable
  have high : writeUInt32BE (counter / 0x100000000) =
      .ok (bigEndian 4 (counter / 0x100000000).toNat) := writeUInt32BE_of_fits (by omega) (by omega)
  have lower : writeUInt32BE (counter % 4294967296) =
      .ok (bigEndian 4 (counter % 4294967296).toNat) := writeUInt32BE_of_fits (by omega) (by omega)
  have place (byte : UInt8) : (byte &&& 0x0f).toNat = byte.toNat % 16 := by
    rw [UInt8.toNat_and]
    exact Nat.and_two_pow_sub_one_eq_mod byte.toNat 4
  have binary (word : Nat) : (BitVec.ofNat 32 word &&& 0x7fffffff).toNat = word % 2 ^ 31 := by
    rw [BitVec.toNat_and, BitVec.toNat_ofNat]
    have masked : (word % 2 ^ 32) &&& (2 ^ 31 - 1) = word % 2 ^ 32 % 2 ^ 31 :=
      Nat.and_two_pow_sub_one_eq_mod _ 31
    exact masked.trans (Nat.mod_mod_of_dvd _ (Nat.pow_dvd_pow 2 (by omega)))
  rw [hotp, high, lowWord_eq ⟨least, low⟩, lower, rfc4226]
  dsimp only [bind, Except.bind]
  rw [words_eq least, place, readUInt32BE_digest (Vector.length_toList ..) (Nat.mod_lt _ (by omega))]
  dsimp only
  rw [binary]
  rfl

theorem hotp_of_not_writable (not : ¬ Writable counter) :
    ∃ e, hotp hmacSha1 secret counter 6 = .error e := by
  rw [hotp]
  cases high : writeUInt32BE (counter / 0x100000000) with
  | error e => exact ⟨e, rfl⟩
  | ok bytes =>
      have least : 0 ≤ counter := by
        by_contra below
        rw [writeUInt32BE, if_neg (by omega)] at high
        cases high
      have negative := lowWord_neg (not_lt.mp fun low => not ⟨least, low⟩)
      rw [writeUInt32BE, if_neg (by omega)]
      exact ⟨_, rfl⟩

theorem isSixDigits_rfc4226 (key : List UInt8) (n : Nat) :
    isSixDigits (rfc4226 hmacSha1 key n) = true := by
  rw [rfc4226]
  generalize numberOf 8 _ % 2 ^ 31 = number
  have small : number % 1000000 < 10 ^ 6 := by
    norm_num
    omega
  have length : (Nat.toDigits 10 (number % 1000000)).length ≤ 6 :=
    Nat.toDigits_length 10 _ 6 (by omega) small
  rw [isSixDigits, String.toList_ofList, Nat.toList_repr, List.length_leftpad,
    Nat.max_eq_left length, Bool.and_eq_true]
  refine ⟨rfl, List.all_eq_true.mpr fun c inside => ?_⟩
  rcases List.mem_append.mp inside with padding | digit
  · rw [List.eq_of_mem_replicate padding]
    rfl
  · exact Nat.isDigit_of_mem_toDigits (by omega) (by omega) digit

/-! ## The window -/

theorem matchesAny_cons {current offset : Int} {rest : List Int} {candidate : String}
    (value : hotp hmacSha1 secret (current + offset) 6 = .ok candidate) :
    matchesAny hmacSha1 secret code current (offset :: rest) =
      if candidate = code then .ok true else matchesAny hmacSha1 secret code current rest := by
  rw [matchesAny, value]
  rfl

/-- Where every counter can be written, a code is found if it is the one of a counter. -/
theorem matchesAny_of_writable {current : Int} {offsets : List Int}
    (writable : ∀ offset ∈ offsets, Writable (current + offset))
    (small : ∀ offset ∈ offsets, current + offset < 2 ^ 64) :
    ∃ found, matchesAny hmacSha1 secret code current offsets = .ok found ∧
      (found = true ↔ ∃ offset ∈ offsets,
        rfc4226 hmacSha1 (fromBase32 secret) (current + offset).toNat = code) := by
  induction offsets with
  | nil => exact ⟨false, rfl, by simp⟩
  | cons offset rest ih =>
      obtain ⟨found, goes, iff⟩ := ih
        (fun later inside => writable later (List.mem_cons_of_mem offset inside))
        (fun later inside => small later (List.mem_cons_of_mem offset inside))
      rw [matchesAny_cons (hotp_of_writable (writable offset List.mem_cons_self)
        (small offset List.mem_cons_self))]
      by_cases same : rfc4226 hmacSha1 (fromBase32 secret) (current + offset).toNat = code
      · rw [if_pos same]
        exact ⟨true, rfl, iff_of_true rfl ⟨offset, List.mem_cons_self, same⟩⟩
      · rw [if_neg same]
        refine ⟨found, goes, ?_⟩
        rw [iff]
        constructor
        · rintro ⟨later, inside, found⟩
          exact ⟨later, List.mem_cons_of_mem offset inside, found⟩
        · rintro ⟨other, inside, found⟩
          rcases List.mem_cons.mp inside with rfl | later
          · exact absurd found same
          · exact ⟨other, later, found⟩

theorem mem_skewOffsets {skew : Nat} {offset : Int} :
    offset ∈ skewOffsets skew ↔ -(skew : Int) ≤ offset ∧ offset ≤ skew := by
  rw [skewOffsets, List.mem_map]
  constructor
  · rintro ⟨i, inside, rfl⟩
    have bound := List.mem_range.mp inside
    omega
  · rintro ⟨least, most⟩
    exact ⟨(offset + skew).toNat, List.mem_range.mpr (by omega), by omega⟩

variable {now : Int} {skew : Nat}

/-- Where no counter of the window has a high lower word, none comes up to `2 ** 53`. -/
theorem Near.lt_of_writable (below : counterOf now < 2 ^ 53)
    (writable : ∀ counter, Near now skew counter → Writable counter) (near : Near now skew counter) :
    counter < 2 ^ 53 := by
  by_contra beyond
  obtain ⟨_, most⟩ := near
  have last : Near now skew (2 ^ 53 - 1) := ⟨by omega, by omega⟩
  have low := (writable _ last).2
  norm_num at low

theorem Verifies.of_writable (below : counterOf now < 2 ^ 53)
    (writable : ∀ counter, Near now skew counter → Writable counter) :
    Verifies hmacSha1 secret now skew := by
  have near {offset : Int} (inside : offset ∈ skewOffsets skew) :
      Near now skew (counterOf now + offset) := by
    obtain ⟨least, most⟩ := mem_skewOffsets.mp inside
    exact ⟨by omega, by omega⟩
  have window (code : String) : ∃ found,
      matchesAny hmacSha1 secret code (counterOf now) (skewOffsets skew) = .ok found ∧
        (found = true ↔ ∃ offset ∈ skewOffsets skew,
          rfc4226 hmacSha1 (fromBase32 secret) (counterOf now + offset).toNat = code) :=
    matchesAny_of_writable (fun _ inside => writable _ (near inside)) fun _ inside => by
      have small := (near inside).lt_of_writable below writable
      omega
  refine ⟨fun time least most within => ?_, fun code accepted => ?_, fun code => ?_⟩
  · refine ⟨_, hotp_of_writable (writable _ within) (by omega), ?_⟩
    obtain ⟨found, goes, iff⟩ := window (rfc4226 hmacSha1 (fromBase32 secret) (counterOf time).toNat)
    rw [verifyTotpCode, if_pos (isSixDigits_rfc4226 _ _), goes]
    have offset : counterOf time - counterOf now ∈ skewOffsets skew :=
      mem_skewOffsets.mpr ⟨by have := within.1; omega, by have := within.2; omega⟩
    exact congrArg _ (iff.mpr ⟨_, offset, by rw [add_sub_cancel]⟩)
  · rw [verifyTotpCode] at accepted
    split at accepted
    · obtain ⟨found, goes, iff⟩ := window code
      rw [goes] at accepted
      obtain ⟨offset, inside, same⟩ := iff.mp (Except.ok.inj accepted)
      have positive := (writable _ (near inside)).1
      refine ⟨(counterOf now + offset).toNat, ?_, same.symm⟩
      rw [Int.toNat_of_nonneg positive]
      exact near inside
    · cases accepted
  · rw [verifyTotpCode]
    split
    · obtain ⟨found, goes, _⟩ := window code
      exact ⟨found, goes⟩
    · exact ⟨false, rfl⟩

/-- **Codes of the second factor are verified just when their counters can be written.** -/
theorem verifies_iff (nonneg : 0 ≤ counterOf now) (below : counterOf now < 2 ^ 53) :
    Verifies hmacSha1 secret now skew ↔ ∀ counter, Near now skew counter → Writable counter := by
  constructor
  · intro verifies counter near
    -- the window starts at zero or later, or its first counter cannot be written
    have start : 0 ≤ counterOf now - skew := by
      by_contra negative
      obtain ⟨accepted, returned⟩ := verifies.returns "000000"
      have six : isSixDigits "000000" = true := by decide +kernel
      have first : skewOffsets skew =
          -(skew : Int) :: (List.range (2 * skew)).map fun (i : Nat) => (i + 1 : Nat) - (skew : Int) := by
        rw [skewOffsets, List.range_succ_eq_map, List.map_cons, List.map_map]
        simp [Function.comp_def]
      have below : ¬ Writable (counterOf now + -(skew : Int)) := fun writable =>
        negative (by have := writable.1; omega)
      have thrown : ∃ e, hotp hmacSha1 secret (counterOf now + -(skew : Int)) 6 = .error e :=
        hotp_of_not_writable below
      obtain ⟨e, thrown⟩ := thrown
      rw [verifyTotpCode, if_pos six, first, matchesAny, thrown] at returned
      cases returned
    have writable {high : Int} (within : Near now skew high) (small : high < 2 ^ 53) :
        Writable high := by
      by_contra not
      have counter : counterOf (high * 30000) = high := Int.mul_ediv_cancel _ (by omega)
      have least := within.1
      obtain ⟨code, generated, _⟩ := verifies.accepts (high * 30000) (by omega) (by omega)
        (counter.symm ▸ within)
      have thrown : ∃ e, hotp hmacSha1 secret high 6 = .error e := hotp_of_not_writable not
      obtain ⟨e, thrown⟩ := thrown
      rw [generateCurrentTotp, counter, thrown] at generated
      cases generated
    by_cases small : counter < 2 ^ 53
    · exact writable near small
    · obtain ⟨_, most⟩ := near
      have last : Near now skew (2 ^ 53 - 1) := ⟨by omega, by omega⟩
      have low := (writable last (by omega)).2
      norm_num at low
  · exact Verifies.of_writable below

end

/-! ### The upper half of a word -/

/-- A digest for tests. -/
def zeroHmac : HmacSha1 := fun _ _ => Vector.replicate 20 0

/-- Two minutes after 1970 with a skew of one window. -/
theorem early_verifies : Verifies zeroHmac "MZXW6" 120000 1 := by
  refine (verifies_iff (by decide) (by decide)).mpr fun counter near => ?_
  obtain ⟨least, most⟩ := near
  have current : counterOf 120000 = 4 := rfl
  rw [current] at least most
  exact ⟨by omega, by omega⟩

/-- In the year 4011 the counter is `2 ** 31`, and no code can be generated. -/
theorem year4011_not_verifies : ¬ Verifies zeroHmac "MZXW6" 64424509440000 1 := by
  intro verifies
  obtain ⟨code, generated, _⟩ := verifies.accepts 64424509440000 (by decide) (by decide)
    ⟨by decide, by decide⟩
  have thrown : generateCurrentTotp zeroHmac "MZXW6" 64424509440000 =
      .error (.outOfRange (-2147483648)) := by rfl
  rw [thrown] at generated
  cases generated

end Mfa
