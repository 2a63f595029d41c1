import BirthHub.Data.Json
import Mathlib.Data.List.DropRight

/-!
# Trimmed texts

What `String.prototype.trim` leaves of a text: a part of it without white space at its ends,
that is trimmed already.
-/

namespace Data

theorem toList_trim (text : String) :
    (trim text).toList = (text.toList.dropWhile isWhitespace).rdropWhile isWhitespace := by
  simp [trim, List.rdropWhile]

theorem dropWhile_rdropWhile (chars : List Char) (p : Char → Bool) :
    ((chars.dropWhile p).rdropWhile p).dropWhile p = (chars.dropWhile p).rdropWhile p := by
  refine List.dropWhile_eq_self_iff.mpr fun long => ?_
  have leading := List.rdropWhile_prefix p (l := chars.dropWhile p)
  have first := List.dropWhile_get_zero_not p chars (long.trans_le leading.length_le)
  rw [List.get_eq_getElem, ← leading.getElem long] at first
  exact first

theorem trim_trim (text : String) : trim (trim text) = trim text := by
  apply String.toList_inj.mp
  rw [toList_trim (trim text), toList_trim text, dropWhile_rdropWhile, List.rdropWhile_idempotent]

theorem trim_isInfix (text : String) : (trim text).toList <:+: text.toList := by
  rw [toList_trim]
  exact (List.rdropWhile_prefix isWhitespace _).isInfix.trans
    (List.dropWhile_suffix isWhitespace).isInfix

theorem head_trim {text : String} {c : Char} (first : c ∈ (trim text).toList.head?) :
    isWhitespace c = false := by
  have own := dropWhile_rdropWhile text.toList isWhitespace
  rw [← toList_trim] at own
  cases chars : (trim text).toList with
  | nil =>
      rw [chars] at first
      cases first
  | cons d rest =>
      rw [chars] at first own
      cases first
      by_contra white
      have shorter := congrArg List.length own
      rw [List.dropWhile_cons_of_pos (by simpa using white)] at shorter
      have bound := (List.dropWhile_sublist (l := rest) isWhitespace).length_le
      rw [List.length_cons] at shorter
      omega

theorem last_trim {text : String} {c : Char} (last : c ∈ (trim text).toList.getLast?) :
    isWhitespace c = false := by
  have own : (trim text).toList.rdropWhile isWhitespace = (trim text).toList := by
    rw [toList_trim, List.rdropWhile_idempotent]
  obtain ⟨before, split⟩ := List.getLast?_eq_some_iff.mp last
  by_contra white
  rw [split, List.rdropWhile_concat_pos _ _ _ (by simpa using white)] at own
  have bound := (List.rdropWhile_prefix isWhitespace before).length_le
  have longer := congrArg List.length own
  rw [List.length_append, List.length_singleton] at longer
  omega

end Data
