import Mathlib

/-!
# Decimal texts of integers

`String(n)` of an integer has digits and a sign only, and says which integer it is. A text that
ends in one after a separator can be split there.
-/

namespace Data

theorem digit_of_mem_repr {n : Nat} {c : Char} (inside : c ∈ n.repr.toList) : c.isDigit = true := by
  rw [Nat.toList_repr] at inside
  exact Nat.isDigit_of_mem_toDigits (by norm_num) (by norm_num) inside

theorem toString_int_injective {m n : Int} (same : toString m = toString n) : m = n := by
  rw [Int.toString_eq_repr, Int.toString_eq_repr] at same
  exact Int.repr_inj.mp same

theorem not_mem_toString_int {n : Int} {c : Char} (digit : c.isDigit = false) (sign : c ≠ '-') :
    c ∉ (toString n).toList := by
  rw [Int.toString_eq_repr, Int.repr_eq_if]
  intro inside
  split at inside
  · rw [digit_of_mem_repr inside] at digit
    cases digit
  · rw [String.toList_append, List.mem_append] at inside
    rcases inside with minus | rest
    · have same : c = '-' := by simpa using minus
      exact sign same
    · rw [digit_of_mem_repr rest] at digit
      cases digit

theorem append_last_inj {α : Type} {separator : α} {front front' back back' : List α}
    (free : separator ∉ back) (free' : separator ∉ back')
    (same : front ++ separator :: back = front' ++ separator :: back') :
    front = front' ∧ back = back' := by
  rcases List.append_eq_append_iff.mp same with ⟨middle, rfl, rest⟩ | ⟨middle, rfl, rest⟩
  · cases middle with
    | nil => exact ⟨(List.append_nil _).symm, (List.cons.inj rest).2⟩
    | cons first middle =>
        have inside : separator ∈ back := by
          rw [(List.cons.inj rest).2]
          exact List.mem_append_right _ List.mem_cons_self
        exact absurd inside free
  · cases middle with
    | nil => exact ⟨List.append_nil _, (List.cons.inj rest).2.symm⟩
    | cons first middle =>
        have inside : separator ∈ back' := by
          rw [(List.cons.inj rest).2]
          exact List.mem_append_right _ List.mem_cons_self
        exact absurd inside free'

theorem append_toString_inj {start key key' : String} {n n' : Int}
    (same : start ++ key ++ ":" ++ toString n = start ++ key' ++ ":" ++ toString n') :
    key = key' ∧ n = n' := by
  have chars := congrArg String.toList same
  simp only [String.toList_append, List.append_assoc] at chars
  have free (n : Int) : ':' ∉ (toString n).toList :=
    not_mem_toString_int (by decide) (by decide)
  obtain ⟨front, back⟩ := append_last_inj (free n) (free n') (List.append_cancel_left chars)
  exact ⟨String.toList_inj.mp front, toString_int_injective (String.toList_inj.mp back)⟩

end Data
