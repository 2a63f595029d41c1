import BirthHub.Data.Trim
import BirthHub.Http.SanitizeInput

/-!
# What sanitizing leaves

`sanitizeValue` changes the strings of a value and nothing else: what is left of a string has no
tag, since a pass from left to right leaves no `<` before a `>` but where the `>` follows at once,
and has no white space at its ends. Hence a value that was sanitized is sanitized to itself.
-/

namespace Http

open Data

/-! ## Tags -/

/-- Some part of the text matches `<[^>]+>`. -/
def HasTag (text : List Char) : Prop :=
  ∃ before inner after, text = before ++ '<' :: (inner ++ '>' :: after) ∧ inner ≠ [] ∧ '>' ∉ inner

/-- Texts in which each `<` is followed by `>` at once, or by no `>` at all. -/
inductive Tagless : List Char → Prop
  | nil : Tagless []
  | char {c : Char} {text : List Char} (plain : c ≠ '<') (rest : Tagless text) : Tagless (c :: text)
  | pair {text : List Char} (rest : Tagless text) : Tagless ('<' :: '>' :: text)
  | opened {text : List Char} (unclosed : '>' ∉ text) : Tagless ('<' :: text)

section Tags

variable {text inner : List Char}

/-- A pass leaves no tag, and what is open in it is never closed. -/
theorem tagless_removeTags (text : List Char) :
    Tagless (removeTags none text) ∧
      ∀ inner, '>' ∉ inner → Tagless (removeTags (some inner) text) := by
  induction text with
  | nil => exact ⟨.nil, fun inner unclosed => .opened unclosed⟩
  | cons c text ih =>
      constructor
      · rw [removeTags]
        split
        · exact ih.2 [] List.not_mem_nil
        · rename_i plain
          exact .char plain ih.1
      · intro inner unclosed
        rw [removeTags]
        split
        · split
          · exact .pair ih.1
          · exact ih.1
        · rename_i other
          refine ih.2 _ fun inside => ?_
          rcases List.mem_append.mp inside with before | last
          · exact unclosed before
          · exact other (List.mem_singleton.mp last).symm

theorem Tagless.not_hasTag (tagless : Tagless text) : ¬HasTag text := by
  induction tagless with
  | nil =>
      rintro ⟨before, inner, after, same, _⟩
      simp at same
  | @char c text plain rest ih =>
      rintro ⟨before, inner, after, same, some, unclosed⟩
      cases before with
      | nil => exact plain (List.cons.inj same).1
      | cons d before => exact ih ⟨before, inner, after, (List.cons.inj same).2, some, unclosed⟩
  | @pair text rest ih =>
      rintro ⟨before, inner, after, same, some, unclosed⟩
      cases before with
      | nil =>
          cases inner with
          | nil => exact some rfl
          | cons d inner =>
              have closes : '>' = d := (List.cons.inj (List.cons.inj same).2).1
              exact unclosed (closes ▸ List.mem_cons_self)
      | cons d before =>
          cases before with
          | nil =>
              have differ := (List.cons.inj (List.cons.inj same).2).1
              exact absurd differ (by decide)
          | cons e before =>
              exact ih ⟨before, inner, after, (List.cons.inj (List.cons.inj same).2).2, some, unclosed⟩
  | @opened text unclosed' =>
      rintro ⟨before, inner, after, same, _, _⟩
      cases before with
      | nil => exact unclosed' ((List.cons.inj same).2 ▸ by simp)
      | cons d before => exact unclosed' ((List.cons.inj same).2 ▸ by simp)

/-- A text without tags in which a `<` is open closes it at once or never. -/
theorem tagless_of_not_hasTag (clean : ¬HasTag text) : Tagless text := by
  induction size : text.length using Nat.strong_induction_on generalizing text with
  | _ n ih =>
      cases text with
      | nil => exact .nil
      | cons c text =>
          by_cases opens : c = '<'
          · subst opens
            by_cases closes : '>' ∈ text
            · obtain ⟨inner, after, rfl, unclosed⟩ := List.eq_append_cons_of_mem closes
              cases inner with
              | nil =>
                  refine .pair (ih _ (by simp at size; omega) (fun tag => clean ?_) rfl)
                  obtain ⟨before, inner, last, rfl, some, unclosed⟩ := tag
                  exact ⟨'<' :: '>' :: before, inner, last, rfl, some, unclosed⟩
              | cons d inner =>
                  exact absurd ⟨[], d :: inner, after, rfl, List.cons_ne_nil d inner, unclosed⟩ clean
            · exact .opened closes
          · refine .char opens (ih _ (by simp at size; omega) (fun tag => clean ?_) rfl)
            obtain ⟨before, inner, last, rfl, some, unclosed⟩ := tag
            exact ⟨c :: before, inner, last, rfl, some, unclosed⟩

/-- What is open and not closed is left as it is. -/
theorem removeTags_opened (unclosed : '>' ∉ text) :
    removeTags (some inner) text = '<' :: (inner ++ text) := by
  induction text generalizing inner with
  | nil => simp [removeTags]
  | cons c text ih =>
      have other : c ≠ '>' := fun same => unclosed (same ▸ List.mem_cons_self)
      rw [removeTags, if_neg other, ih fun inside => unclosed (List.mem_cons_of_mem c inside)]
      simp

theorem Tagless.removeTags (tagless : Tagless text) : Http.removeTags none text = text := by
  induction tagless with
  | nil => rfl
  | char plain rest ih => rw [Http.removeTags, if_neg plain, ih]
  | pair rest ih => simp [Http.removeTags, ih]
  | opened unclosed =>
      rw [Http.removeTags, if_pos rfl, removeTags_opened unclosed]
      rfl

end Tags

/-! ## Texts -/

/-- A text without tags and without white space at its ends. -/
structure IsSanitized (text : String) : Prop where
  tagless : ¬HasTag text.toList
  head : ∀ c ∈ text.toList.head?, isWhitespace c = false
  last : ∀ c ∈ text.toList.getLast?, isWhitespace c = false

theorem isSanitized_sanitizeText (value : String) : IsSanitized (sanitizeText value) where
  tagless := by
    rintro ⟨before, inner, after, same, some, unclosed⟩
    obtain ⟨lead, rest, whole⟩ := trim_isInfix (String.ofList (removeTags none value.toList))
    have removed := (tagless_removeTags value.toList).1.not_hasTag
    rw [String.toList_ofList] at whole
    change (trim (String.ofList (removeTags none value.toList))).toList = _ at same
    rw [same] at whole
    exact removed ⟨lead ++ before, inner, after ++ rest, by rw [← whole]; simp, some, unclosed⟩
  head _ first := head_trim first
  last _ end' := last_trim end'

theorem sanitizeText_sanitizeText (value : String) :
    sanitizeText (sanitizeText value) = sanitizeText value := by
  have tagless := tagless_of_not_hasTag (isSanitized_sanitizeText value).tagless
  have same : sanitizeText (sanitizeText value) = trim (sanitizeText value) := by
    unfold sanitizeText at tagless ⊢
    rw [tagless.removeTags, String.ofList_toList]
  rw [same]
  exact trim_trim _

/-! ## Values -/

mutual

/-- The value with every string in it left out. -/
def skeleton : Json → Json
  | .string _ => .string ""
  | .array items => .array (skeletons items)
  | .object members => .object (memberSkeletons members)
  | value => value

def skeletons : List Json → List Json
  | [] => []
  | item :: items => skeleton item :: skeletons items

def memberSkeletons : List (String × Json) → List (String × Json)
  | [] => []
  | (key, value) :: members => (key, skeleton value) :: memberSkeletons members

end

mutual

/-- The strings of a value, but for its keys. -/
def stringsOf : Json → List String
  | .string value => [value]
  | .array items => stringsOfItems items
  | .object members => stringsOfMembers members
  | _ => []

def stringsOfItems : List Json → List String
  | [] => []
  | item :: items => stringsOf item ++ stringsOfItems items

def stringsOfMembers : List (String × Json) → List String
  | [] => []
  | (_, value) :: members => stringsOf value ++ stringsOfMembers members

end

mutual

theorem skeleton_sanitizeValue : ∀ v : Json, v.IsValue → skeleton (sanitizeValue v) = skeleton v
  | .null, _ | .bool _, _ | .number _, _ | .string _, _ => by simp [sanitizeValue, skeleton]
  | .array items, values => by
      rw [sanitizeValue, skeleton, skeleton, skeletons_sanitizeItems items values]
  | .object members, ⟨ordered, values⟩ => by
      rw [sanitizeValue_object ordered, ← sanitizeMembers_eq, skeleton, skeleton,
        memberSkeletons_sanitizeMembers members values]

theorem skeletons_sanitizeItems : ∀ items : List Json, Json.AreValues items →
    skeletons (sanitizeItems items) = skeletons items
  | [], _ => by simp [sanitizeItems]
  | item :: items, ⟨value, values⟩ => by
      rw [sanitizeItems, skeletons, skeletons, skeleton_sanitizeValue item value,
        skeletons_sanitizeItems items values]

theorem memberSkeletons_sanitizeMembers : ∀ members : List (String × Json),
    Json.AreMembers members → memberSkeletons (sanitizeMembers members) = memberSkeletons members
  | [], _ => by simp [sanitizeMembers]
  | (key, nestedValue) :: members, ⟨value, values⟩ => by
      rw [sanitizeMembers, memberSkeletons, memberSkeletons,
        skeleton_sanitizeValue nestedValue value, memberSkeletons_sanitizeMembers members values]

end

mutual

/-- The strings of a sanitized value are the sanitized strings of the value. -/
theorem stringsOf_sanitizeValue : ∀ v : Json, v.IsValue →
    stringsOf (sanitizeValue v) = (stringsOf v).map sanitizeText
  | .null, _ | .bool _, _ | .number _, _ | .string _, _ => by simp [sanitizeValue, stringsOf]
  | .array items, values => by
      rw [sanitizeValue, stringsOf, stringsOf, stringsOfItems_sanitizeItems items values]
  | .object members, ⟨ordered, values⟩ => by
      rw [sanitizeValue_object ordered, ← sanitizeMembers_eq, stringsOf, stringsOf,
        stringsOfMembers_sanitizeMembers members values]

theorem stringsOfItems_sanitizeItems : ∀ items : List Json, Json.AreValues items →
    stringsOfItems (sanitizeItems items) = (stringsOfItems items).map sanitizeText
  | [], _ => by simp [sanitizeItems, stringsOfItems]
  | item :: items, ⟨value, values⟩ => by
      rw [sanitizeItems, stringsOfItems, stringsOfItems, stringsOf_sanitizeValue item value,
        stringsOfItems_sanitizeItems items values, List.map_append]

theorem stringsOfMembers_sanitizeMembers : ∀ members : List (String × Json),
    Json.AreMembers members →
      stringsOfMembers (sanitizeMembers members) = (stringsOfMembers members).map sanitizeText
  | [], _ => by simp [sanitizeMembers, stringsOfMembers]
  | (key, nestedValue) :: members, ⟨value, values⟩ => by
      rw [sanitizeMembers, stringsOfMembers, stringsOfMembers,
        stringsOf_sanitizeValue nestedValue value,
        stringsOfMembers_sanitizeMembers members values, List.map_append]

end

mutual

/-- A value is clean when sanitizing leaves all of its strings as they are. -/
theorem isClean_of_stringsOf : ∀ v : Json, (∀ s ∈ stringsOf v, sanitizeText s = s) →
    isClean v = true
  | .null, _ | .bool _, _ | .number _, _ => by simp [isClean]
  | .string s, same => by simpa [isClean] using same s (by simp [stringsOf])
  | .array items, same => by
      rw [isClean]
      exact areCleanItems_of_stringsOf items same
  | .object members, same => by
      rw [isClean]
      exact areCleanMembers_of_stringsOf members same

theorem areCleanItems_of_stringsOf : ∀ items : List Json,
    (∀ s ∈ stringsOfItems items, sanitizeText s = s) → areCleanItems items = true
  | [], _ => by simp [areCleanItems]
  | item :: items, same => by
      rw [areCleanItems, Bool.and_eq_true]
      exact ⟨isClean_of_stringsOf item fun s inside => same s (List.mem_append_left _ inside),
        areCleanItems_of_stringsOf items fun s inside => same s (List.mem_append_right _ inside)⟩

theorem areCleanMembers_of_stringsOf : ∀ members : List (String × Json),
    (∀ s ∈ stringsOfMembers members, sanitizeText s = s) → areCleanMembers members = true
  | [], _ => by simp [areCleanMembers]
  | (_, value) :: members, same => by
      rw [areCleanMembers, Bool.and_eq_true]
      exact ⟨isClean_of_stringsOf value fun s inside => same s (List.mem_append_left _ inside),
        areCleanMembers_of_stringsOf members fun s inside => same s (List.mem_append_right _ inside)⟩

end

/-- **Sanitizing is a stable projection.** The keys, lengths and other leaves of a value are kept,
its strings are left without tags and without white space at their ends, and a second pass changes
nothing. -/
theorem sanitizeValue_stable (v : Json) (value : v.IsValue) :
    skeleton (sanitizeValue v) = skeleton v ∧
      (∀ s ∈ stringsOf (sanitizeValue v), IsSanitized s) ∧
        sanitizeValue (sanitizeValue v) = sanitizeValue v := by
  refine ⟨skeleton_sanitizeValue v value, ?_, ?_⟩
  · intro s inside
    rw [stringsOf_sanitizeValue v value] at inside
    obtain ⟨given, _, rfl⟩ := List.mem_map.mp inside
    exact isSanitized_sanitizeText given
  · apply sanitizeValue_of_isClean _ (isValue_sanitizeValue v value)
    apply isClean_of_stringsOf
    intro s inside
    rw [stringsOf_sanitizeValue v value] at inside
    obtain ⟨given, _, rfl⟩ := List.mem_map.mp inside
    exact sanitizeText_sanitizeText given

/-- A body with a tag within a tag, and one that is not closed. -/
def taggedBody : Json := .object [("0", .array [.string " <<b>> a <"]), ("__proto__", .null)]

theorem taggedBody_stable : skeleton (sanitizeValue taggedBody) = skeleton taggedBody ∧
    (∀ s ∈ stringsOf (sanitizeValue taggedBody), IsSanitized s) ∧
      sanitizeValue (sanitizeValue taggedBody) = sanitizeValue taggedBody :=
  sanitizeValue_stable taggedBody ⟨rfl, ⟨trivial, trivial⟩, trivial, trivial⟩

end Http
