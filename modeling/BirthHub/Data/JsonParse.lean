import BirthHub.Data.JsonText

/-!
# JSON.parse

`Json.parse` reads a whole text with as much fuel as it has characters: each step of the
reader takes one, so that no text needs more. Hence the text that `JSON.stringify` writes is
parsed to the meaning of what was written.
-/

namespace Data.Json

/-- `JSON.parse` of a text without white space between its tokens. -/
def parse (text : String) : Option Value :=
  match read text.toList.length text.toList with
  | some (v, []) => some v
  | _ => none

theorem readString_short {text s rest : List Char} (found : readString text = some (s, rest)) :
    rest.length < text.length := by
  induction text using readString.induct generalizing s with
  | case1 => cases found
  | case2 text =>
      cases found
      exact Nat.lt_succ_self _
  | case3 _ _ a b text ih =>
      obtain ⟨⟨s', rest'⟩, inner, same⟩ := Option.map_eq_some_iff.mp found
      cases same
      exact (ih inner).trans (by simp only [List.length_cons]; omega)
  | case4 c text other ih =>
      rw [readString] at found
      · obtain ⟨⟨s', rest'⟩, inner, same⟩ := Option.map_eq_some_iff.mp found
        cases same
        exact (ih inner).trans (by simp only [List.length_cons]; omega)
      · exact other
  | case5 c text quoted escaped other ih =>
      rw [readString] at found
      · obtain ⟨⟨s', rest'⟩, inner, same⟩ := Option.map_eq_some_iff.mp found
        cases same
        exact (ih inner).trans (Nat.lt_succ_self _)
      all_goals assumption

theorem readNumber_short {text rest : List Char} {q : ℚ}
    (found : Number.read text = some (q, rest)) : rest.length < text.length := by
  obtain ⟨q', value, same⟩ := Option.map_eq_some_iff.mp found
  cases same
  have whole := List.takeWhile_append_dropWhile (p := Number.isNumeric) (l := text)
  rcases taken : text.takeWhile Number.isNumeric with _ | ⟨c, numeric⟩
  · rw [taken] at value
    cases value
  · have sizes := congrArg List.length whole
    rw [taken] at sizes
    simp only [List.length_append, List.length_cons] at sizes
    omega

/-- A reader that takes a part of a text takes it with any fuel that is enough for its length. -/
def Short {α : Type} (reader : Nat → List Char → Option (α × List Char)) (fuel : Nat) : Prop :=
  ∀ {text x rest}, reader fuel text = some (x, rest) → rest.length < text.length ∧
    ∀ n, text.length ≤ n + 1 + rest.length → reader (n + 1) text = some (x, rest)

theorem Short.enough {α : Type} {reader : Nat → List Char → Option (α × List Char)} {fuel n : Nat}
    (short : Short reader fuel) {text rest : List Char} {x : α}
    (found : reader fuel text = some (x, rest)) (bound : text.length ≤ n + rest.length) :
    reader n text = some (x, rest) := by
  obtain ⟨shorter, reaches⟩ := short found
  obtain ⟨m, rfl⟩ : ∃ m, n = m + 1 := ⟨n - 1, by omega⟩
  exact reaches m bound

theorem read_short_succ {fuel : Nat} (items : Short readItems fuel)
    (members : Short readMembers fuel) : Short read (fuel + 1) := by
  intro text v rest found
  unfold read at found
  split at found
  · cases found
  · cases found
    exact ⟨by simp only [List.length_cons]; omega, fun _ _ => rfl⟩
  · cases found
    exact ⟨by simp only [List.length_cons]; omega, fun _ _ => rfl⟩
  · cases found
    exact ⟨by simp only [List.length_cons]; omega, fun _ _ => rfl⟩
  · obtain ⟨⟨s, rest'⟩, inner, same⟩ := Option.map_eq_some_iff.mp found
    cases same
    refine ⟨(readString_short inner).trans (Nat.lt_succ_self _), fun n _ => ?_⟩
    rw [read, inner]
    rfl
  · cases found
    exact ⟨by simp only [List.length_cons]; omega, fun _ _ => rfl⟩
  · rename_i nonempty same
    cases same
    obtain ⟨⟨values, rest'⟩, inner, same⟩ := Option.map_eq_some_iff.mp found
    cases same
    refine ⟨(items inner).1.trans (Nat.lt_succ_self _), fun n bound => ?_⟩
    simp only [List.length_cons] at bound
    rw [read, items.enough inner (by omega)]
    · rfl
    · exact nonempty
  · cases found
    exact ⟨by simp only [List.length_cons]; omega, fun _ _ => rfl⟩
  · rename_i nonempty same
    cases same
    obtain ⟨⟨values, rest'⟩, inner, same⟩ := Option.map_eq_some_iff.mp found
    cases same
    refine ⟨(members inner).1.trans (Nat.lt_succ_self _), fun n bound => ?_⟩
    simp only [List.length_cons] at bound
    rw [read, members.enough inner (by omega)]
    · rfl
    · exact nonempty
  · obtain ⟨⟨q, rest'⟩, inner, same⟩ := Option.map_eq_some_iff.mp found
    cases same
    refine ⟨readNumber_short inner, fun n _ => ?_⟩
    rw [read, inner]
    · rfl
    all_goals assumption

theorem readItems_short_succ {fuel : Nat} (value : Short read fuel) (items : Short readItems fuel) :
    Short readItems (fuel + 1) := by
  intro text v rest found
  unfold readItems at found
  obtain ⟨⟨item, after⟩, first, found⟩ := Option.bind_eq_some_iff.mp found
  have shorter := (value first).1
  split at found
  · rename_i others same
    cases same
    obtain ⟨⟨values, rest'⟩, inner, same⟩ := Option.map_eq_some_iff.mp found
    cases same
    have shorter' := (items inner).1
    simp only [List.length_cons] at shorter
    refine ⟨by omega, fun n bound => ?_⟩
    have first' : read n text = _ := value.enough first (by simp only [List.length_cons]; omega)
    have inner' : readItems n others = _ := items.enough inner (by omega)
    simp only [readItems, first', inner', Option.bind_some, Option.map_some]
  · rename_i same
    cases same
    cases found
    simp only [List.length_cons] at shorter
    refine ⟨by omega, fun n bound => ?_⟩
    have first' : read n text = _ := value.enough first (by simp only [List.length_cons]; omega)
    simp only [readItems, first', Option.bind_some]
  · cases found

theorem readMembers_short_succ {fuel : Nat} (value : Short read fuel)
    (members : Short readMembers fuel) : Short readMembers (fuel + 1) := by
  intro text v rest found
  unfold readMembers at found
  split at found
  · cases found
  · rename_i text same
    cases same
    obtain ⟨⟨key, after⟩, named, found⟩ := Option.bind_eq_some_iff.mp found
    have shorter := readString_short named
    split at found
    · rename_i after' same
      cases same
      obtain ⟨⟨item, after⟩, first, found⟩ := Option.bind_eq_some_iff.mp found
      have shorter' := (value first).1
      simp only [List.length_cons] at shorter
      split at found
      · rename_i others same
        cases same
        obtain ⟨⟨values, rest'⟩, inner, same⟩ := Option.map_eq_some_iff.mp found
        cases same
        have shorter'' := (members inner).1
        simp only [List.length_cons] at shorter' ⊢
        refine ⟨by omega, fun n bound => ?_⟩
        have first' : read n after' = _ :=
          value.enough first (by simp only [List.length_cons]; omega)
        have inner' : readMembers n others = _ := members.enough inner (by omega)
        simp only [readMembers, named, first', inner', Option.bind_some, Option.map_some]
      · rename_i same
        cases same
        cases found
        simp only [List.length_cons] at shorter' ⊢
        refine ⟨by omega, fun n bound => ?_⟩
        have first' : read n after' = _ :=
          value.enough first (by simp only [List.length_cons]; omega)
        simp only [readMembers, named, first', Option.bind_some]
      · cases found
    · cases found
  · cases found

theorem read_short (fuel : Nat) :
    Short read fuel ∧ Short readItems fuel ∧ Short readMembers fuel := by
  induction fuel with
  | zero => exact ⟨nofun, nofun, nofun⟩
  | succ fuel ih =>
      exact ⟨read_short_succ ih.2.1 ih.2.2, readItems_short_succ ih.1 ih.2.1,
        readMembers_short_succ ih.1 ih.2.2⟩

theorem parse_stringify (v : Json) : parse v.stringify = some v.meaning := by
  obtain ⟨enough, reads⟩ := reads v
  have found := reads enough (Nat.le_refl _) [] (by simp)
  rw [List.append_nil] at found
  rw [parse, Short.enough (read_short enough).1 found (by simp)]

end Data.Json
