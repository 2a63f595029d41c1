import Mathlib.Data.List.Infix

/-!
# Patterns with wildcards

A pattern is a text in which each `*` stands for `.*` of a regular expression, that is for any
characters but line terminators, and every other character for itself. `matchesWildcard` decides
whether a whole text matches, and `canStart` whether a text goes on to one that does.
-/

namespace Data

/-- What `.` of a regular expression matches. -/
def isDot (c : Char) : Bool :=
  c ≠ '\n' && c ≠ '\r' && c.toNat ≠ 0x2028 && c.toNat ≠ 0x2029

/-- Some dots, and then what `rest` takes. -/
def starThen (rest : List Char → Bool) : List Char → Bool
  | [] => rest []
  | c :: text => rest (c :: text) || (isDot c && starThen rest text)

def matchesWildcard : List Char → List Char → Bool
  | [], text => text.isEmpty
  | c :: pattern, text =>
      if c = '*' then starThen (matchesWildcard pattern) text
      else
        match text with
        | [] => false
        | d :: text => c = d && matchesWildcard pattern text

/-- Whether a text goes on to one that matches. -/
def canStart : List Char → List Char → Bool
  | [], lead => lead.isEmpty
  | c :: pattern, lead =>
      if c = '*' then starThen (canStart pattern) lead
      else
        match lead with
        | [] => true
        | d :: lead => c = d && canStart pattern lead

variable {rest : List Char → Bool} {pattern text lead : List Char} {c d : Char}

theorem matchesWildcard_star :
    matchesWildcard ('*' :: pattern) text = starThen (matchesWildcard pattern) text := by
  cases text <;> simp [matchesWildcard]

theorem matchesWildcard_nil (literal : c ≠ '*') : matchesWildcard (c :: pattern) [] = false := by
  simp [matchesWildcard, literal]

theorem matchesWildcard_cons (literal : c ≠ '*') :
    matchesWildcard (c :: pattern) (d :: text) =
      (decide (c = d) && matchesWildcard pattern text) := by
  simp [matchesWildcard, literal]

theorem canStart_star : canStart ('*' :: pattern) lead = starThen (canStart pattern) lead := by
  cases lead <;> simp [canStart]

theorem canStart_cons (literal : c ≠ '*') :
    canStart (c :: pattern) (d :: lead) = (decide (c = d) && canStart pattern lead) := by
  simp [canStart, literal]

theorem starThen_iff : starThen rest text = true ↔
    ∃ dots more, text = dots ++ more ∧ dots.all isDot = true ∧ rest more = true := by
  induction text with
  | nil =>
      refine ⟨fun taken => ⟨[], [], rfl, rfl, taken⟩, ?_⟩
      rintro ⟨dots, more, same, _, taken⟩
      obtain ⟨rfl, rfl⟩ := List.append_eq_nil_iff.mp same.symm
      exact taken
  | cons c text ih =>
      rw [starThen, Bool.or_eq_true, Bool.and_eq_true, ih]
      constructor
      · rintro (taken | ⟨dot, dots, more, rfl, all, taken⟩)
        · exact ⟨[], c :: text, rfl, rfl, taken⟩
        · exact ⟨c :: dots, more, rfl, by simp [dot, all], taken⟩
      · rintro ⟨dots, more, same, all, taken⟩
        cases dots with
        | nil => exact .inl (by rw [same]; exact taken)
        | cons d dots =>
            cases same
            rw [List.all_cons, Bool.and_eq_true] at all
            exact .inr ⟨all.1, dots, more, rfl, all.2, taken⟩

theorem canStart_nil : canStart pattern [] = true := by
  induction pattern with
  | nil => rfl
  | cons c pattern ih =>
      by_cases star : c = '*'
      · rw [star, canStart_star]
        exact ih
      · simp [canStart, star]

theorem matchesWildcard_self : matchesWildcard pattern pattern = true := by
  induction pattern with
  | nil => rfl
  | cons c pattern ih =>
      by_cases star : c = '*'
      · rw [star, matchesWildcard_star]
        exact starThen_iff.mpr ⟨['*'], pattern, rfl, by decide, ih⟩
      · simpa [matchesWildcard_cons star] using ih

/-- A pattern that ends in a wildcard is matched by what stands before it. -/
theorem matchesWildcard_lead :
    matchesWildcard (lead ++ ['*']) lead = true := by
  induction lead with
  | nil => rfl
  | cons c lead ih =>
      by_cases star : c = '*'
      · rw [star, List.cons_append, matchesWildcard_star]
        exact starThen_iff.mpr ⟨['*'], lead, rfl, by decide, ih⟩
      · simpa [matchesWildcard_cons star] using ih

/-- A text can start a match if and only if it goes on to one. -/
theorem canStart_iff : canStart pattern lead = true ↔
    ∃ more, matchesWildcard pattern (lead ++ more) = true := by
  induction pattern generalizing lead with
  | nil => simp [canStart, matchesWildcard]
  | cons c pattern ih =>
      by_cases star : c = '*'
      · subst star
        rw [canStart_star, starThen_iff]
        constructor
        · rintro ⟨dots, left, rfl, all, starts⟩
          obtain ⟨more, found⟩ := ih.mp starts
          refine ⟨more, ?_⟩
          rw [matchesWildcard_star]
          exact starThen_iff.mpr ⟨dots, left ++ more, by simp, all, found⟩
        · rintro ⟨more, found⟩
          rw [matchesWildcard_star] at found
          obtain ⟨dots, left, same, all, found⟩ := starThen_iff.mp found
          rcases List.append_eq_append_iff.mp same with ⟨middle, rfl, rfl⟩ | ⟨middle, rfl, rfl⟩
          · refine ⟨lead, [], by simp, ?_, canStart_nil⟩
            rw [List.all_append, Bool.and_eq_true] at all
            exact all.1
          · exact ⟨dots, middle, rfl, all, ih.mpr ⟨more, found⟩⟩
      · cases lead with
        | nil => exact ⟨fun _ => ⟨c :: pattern, matchesWildcard_self⟩, fun _ => canStart_nil⟩
        | cons d lead =>
            simp only [List.cons_append, canStart_cons star, matchesWildcard_cons star,
              Bool.and_eq_true, decide_eq_true_eq, ih, exists_and_left]

/-! ## Instances of a pattern -/

/-- A text is an instance of a pattern: each `*` is replaced by some text. -/
inductive IsInstance : List Char → List Char → Prop
  | nil : IsInstance [] []
  | literal {c : Char} {pattern text : List Char} (plain : c ≠ '*')
      (rest : IsInstance pattern text) : IsInstance (c :: pattern) (c :: text)
  | star {pattern text : List Char} (filling : List Char) (rest : IsInstance pattern text) :
      IsInstance ('*' :: pattern) (filling ++ text)

/-- How many line terminators a text has. -/
def breaks (text : List Char) : Nat := text.countP fun c => !isDot c

theorem breaks_cons : breaks (c :: text) = breaks text + if isDot c then 0 else 1 := by
  unfold breaks
  rw [List.countP_cons]
  cases isDot c <;> rfl

theorem breaks_append {more : List Char} : breaks (text ++ more) = breaks text + breaks more :=
  List.countP_append

theorem breaks_eq_zero : breaks text = 0 ↔ text.all isDot = true := by
  simp [breaks, List.countP_eq_zero]

/-- The fillings of an instance add line terminators, and remove none. -/
theorem IsInstance.breaks_le (instanced : IsInstance pattern text) :
    breaks pattern ≤ breaks text := by
  induction instanced with
  | nil => exact Nat.le_refl 0
  | literal plain rest ih =>
      rw [breaks_cons, breaks_cons]
      omega
  | star filling rest ih =>
      rw [breaks_cons, breaks_append, if_pos (by decide)]
      omega

/-- A text matches when it is an instance whose fillings have no line terminators. -/
theorem matchesWildcard_iff : matchesWildcard pattern text = true ↔
    IsInstance pattern text ∧ breaks pattern = breaks text := by
  constructor
  · intro found
    induction pattern generalizing text with
    | nil =>
        obtain rfl := List.isEmpty_iff.mp found
        exact ⟨.nil, rfl⟩
    | cons c pattern ih =>
        by_cases star : c = '*'
        · subst star
          rw [matchesWildcard_star] at found
          obtain ⟨dots, more, rfl, all, found⟩ := starThen_iff.mp found
          obtain ⟨instanced, level⟩ := ih found
          refine ⟨.star dots instanced, ?_⟩
          rw [breaks_cons, breaks_append, breaks_eq_zero.mpr all, level, if_pos (by decide)]
          omega
        · cases text with
          | nil =>
              rw [matchesWildcard_nil star] at found
              cases found
          | cons d text =>
              rw [matchesWildcard_cons star, Bool.and_eq_true, decide_eq_true_eq] at found
              obtain ⟨rfl, found⟩ := found
              obtain ⟨instanced, level⟩ := ih found
              exact ⟨.literal star instanced, by rw [breaks_cons, breaks_cons, level]⟩
  · rintro ⟨instanced, level⟩
    induction instanced with
    | nil => rfl
    | literal plain rest ih =>
        rw [breaks_cons, breaks_cons] at level
        rw [matchesWildcard_cons plain, ih (by omega)]
        simp
    | star filling rest ih =>
        -- the rest has at least the terminators of its pattern, so the filling has none
        have fewer := rest.breaks_le
        rw [breaks_cons, breaks_append, if_pos (by decide)] at level
        rw [matchesWildcard_star]
        exact starThen_iff.mpr ⟨filling, _, rfl, breaks_eq_zero.mp (by omega), ih (by omega)⟩

theorem isInstance_plain (plain : '*' ∉ pattern) : IsInstance pattern text ↔ pattern = text := by
  constructor
  · intro instanced
    induction instanced with
    | nil => rfl
    | literal _ rest ih => rw [ih fun inside => plain (List.mem_cons_of_mem _ inside)]
    | star => exact (plain (List.mem_cons_self ..)).elim
  · rintro rfl
    induction pattern with
    | nil => exact .nil
    | cons c pattern ih =>
        rw [List.mem_cons, not_or] at plain
        exact .literal (Ne.symm plain.1) (ih plain.2)

theorem isInstance_star : IsInstance ['*'] text := by
  simpa using IsInstance.star text .nil

/-! ## Patterns that end in a wildcard -/

/-- A pattern that ends in a wildcard takes more dots. -/
theorem matchesWildcard_append {dots : List Char} (all : dots.all isDot = true)
    (found : matchesWildcard (pattern ++ ['*']) text = true) :
    matchesWildcard (pattern ++ ['*']) (text ++ dots) = true := by
  induction pattern generalizing text with
  | nil =>
      rw [List.nil_append, matchesWildcard_star] at found ⊢
      obtain ⟨first, more, rfl, firstDots, none⟩ := starThen_iff.mp found
      obtain rfl := List.isEmpty_iff.mp none
      exact starThen_iff.mpr ⟨first ++ dots, [], by simp, by simp [firstDots, all], rfl⟩
  | cons c pattern ih =>
      by_cases star : c = '*'
      · subst star
        rw [List.cons_append, matchesWildcard_star] at found ⊢
        obtain ⟨first, more, rfl, firstDots, found⟩ := starThen_iff.mp found
        exact starThen_iff.mpr ⟨first, more ++ dots, by simp, firstDots, ih found⟩
      · cases text with
        | nil =>
            rw [List.cons_append, matchesWildcard_nil star] at found
            cases found
        | cons d text =>
            rw [List.cons_append, matchesWildcard_cons star, Bool.and_eq_true] at found
            rw [List.cons_append, List.cons_append, matchesWildcard_cons star, Bool.and_eq_true]
            exact ⟨found.1, ih found.2⟩

end Data
