import BirthHub.Data.Encoding
import Mathlib

/-!
# Reading base64url

`Buffer.from(text, "base64url").toString("utf8")` of a text that was written of ASCII characters.
-/

namespace Data

def base64urlValue (c : Char) : Nat :=
  if 'A' ≤ c ∧ c ≤ 'Z' then c.toNat - 65
  else if 'a' ≤ c ∧ c ≤ 'z' then c.toNat - 71
  else if '0' ≤ c ∧ c ≤ '9' then c.toNat + 4
  else if c = '-' then 62
  else 63

/-- The bytes of a text of base64url digits. -/
def bytesOfBase64url : List Char → List Nat
  | a :: b :: c :: d :: text =>
      (base64urlValue a * 4 + base64urlValue b / 16) ::
        (base64urlValue b % 16 * 16 + base64urlValue c / 4) ::
        (base64urlValue c % 4 * 64 + base64urlValue d) :: bytesOfBase64url text
  | [a, b, c] =>
      [base64urlValue a * 4 + base64urlValue b / 16,
        base64urlValue b % 16 * 16 + base64urlValue c / 4]
  | [a, b] => [base64urlValue a * 4 + base64urlValue b / 16]
  | _ => []

/-- The text of bytes below 128. -/
def fromBase64url (text : String) : String :=
  String.ofList ((bytesOfBase64url text.toList).map Char.ofNat)

theorem base64urlValue_digit {n : Nat} (small : n < 64) : base64urlValue (base64urlDigit n) = n := by
  have all : ∀ n < 64, base64urlValue (base64urlDigit n) = n := by decide
  exact all n small

theorem bytesOfBase64url_bytes {bytes : List Nat} (small : ∀ b ∈ bytes, b < 256) :
    bytesOfBase64url (base64urlBytes bytes) = bytes := by
  induction bytes using base64urlBytes.induct with
  | case1 => rfl
  | case2 a =>
      have boundA := small a (by simp)
      rw [base64urlBytes, bytesOfBase64url, base64urlValue_digit (by omega),
        base64urlValue_digit (by omega)]
      exact congrArg (· :: []) (by omega)
  | case3 a b =>
      have boundA := small a (by simp)
      have boundB := small b (by simp)
      rw [base64urlBytes, bytesOfBase64url, base64urlValue_digit (by omega),
        base64urlValue_digit (by omega), base64urlValue_digit (by omega)]
      have first : a / 4 * 4 + (a % 4 * 16 + b / 16) / 16 = a := by omega
      have second : (a % 4 * 16 + b / 16) % 16 * 16 + b % 16 * 4 / 4 = b := by omega
      rw [first, second]
  | case4 a b c bytes ih =>
      have boundA := small a (by simp)
      have boundB := small b (by simp)
      have boundC := small c (by simp)
      have rest := ih fun d inside => small d (by simp [inside])
      rw [base64urlBytes, bytesOfBase64url, base64urlValue_digit (by omega),
        base64urlValue_digit (by omega), base64urlValue_digit (by omega),
        base64urlValue_digit (by omega), rest]
      have first : a / 4 * 4 + (a % 4 * 16 + b / 16) / 16 = a := by omega
      have second : (a % 4 * 16 + b / 16) % 16 * 16 + (b % 16 * 4 + c / 64) / 4 = b := by omega
      have third : (b % 16 * 4 + c / 64) % 4 * 64 + c % 64 = c := by omega
      rw [first, second, third]

theorem fromBase64url_base64url {text : String} (ascii : ∀ c ∈ text.toList, c.toNat < 128) :
    fromBase64url (base64url text) = text := by
  have bytes : ∀ b ∈ utf8 text, b < 256 := by
    rw [utf8_ascii ascii]
    intro b inside
    obtain ⟨c, there, rfl⟩ := List.mem_map.mp inside
    exact (ascii c there).trans (by decide)
  rw [fromBase64url, base64url, String.toList_ofList, bytesOfBase64url_bytes bytes, utf8_ascii ascii,
    List.map_map]
  have same : (Char.ofNat ∘ Char.toNat) = id := funext Char.ofNat_toNat
  rw [same, List.map_id, String.ofList_toList]

end Data
