import Mathlib.Algebra.Order.BigOperators.Group.List

/-!
# Greedy prefixes

What is taken from the front of a list, one element after the other, while the weights stay
within a bound: with weights that are not negative this is the longest prefix within the bound.
`takeSome` takes the first element in any case.
-/

namespace Data

variable {α W : Type} [AddCommMonoid W] [LinearOrder W] [IsOrderedAddMonoid W]
  {weight : α → W} {bound spent : W} {p l : List α} {a : α}

/-- What elements weigh together. -/
def weigh (weight : α → W) (l : List α) : W := (l.map weight).sum

def takeWithin (weight : α → W) (bound spent : W) : List α → List α
  | [] => []
  | a :: l =>
      if spent + weight a ≤ bound then a :: takeWithin weight bound (spent + weight a) l else []

def takeSome (weight : α → W) (bound spent : W) : List α → List α
  | [] => []
  | a :: l => a :: takeWithin weight bound (spent + weight a) l

/-- What may be taken: elements within the bound, or one element. -/
def MayTake (weight : α → W) (bound spent : W) (p : List α) : Prop :=
  spent + weigh weight p ≤ bound ∨ p.length = 1

omit [LinearOrder W] [IsOrderedAddMonoid W] in
@[simp] theorem weigh_nil : weigh weight [] = 0 := rfl

omit [LinearOrder W] [IsOrderedAddMonoid W] in
@[simp] theorem weigh_cons : weigh weight (a :: l) = weight a + weigh weight l := by
  simp [weigh]

omit [LinearOrder W] [IsOrderedAddMonoid W] in
theorem weigh_append : weigh weight (p ++ l) = weigh weight p + weigh weight l := by
  simp [weigh]

omit [LinearOrder W] [IsOrderedAddMonoid W] in
theorem weigh_reverse : weigh weight l.reverse = weigh weight l := by
  simp [weigh, List.sum_reverse]

omit [LinearOrder W] [IsOrderedAddMonoid W] in
theorem weigh_perm (perm : p.Perm l) : weigh weight p = weigh weight l :=
  (perm.map weight).sum_eq

theorem weigh_nonneg (nonneg : ∀ a, 0 ≤ weight a) : 0 ≤ weigh weight l :=
  List.sum_nonneg fun x mem => by
    obtain ⟨a, _, rfl⟩ := List.mem_map.mp mem
    exact nonneg a

/-! ## Within the bound -/

omit [IsOrderedAddMonoid W] in
theorem takeWithin_isPrefix : takeWithin weight bound spent l <+: l := by
  induction l generalizing spent with
  | nil => exact List.prefix_rfl
  | cons a l ih =>
      unfold takeWithin
      split
      · exact (List.prefix_cons_inj a).mpr ih
      · exact List.nil_prefix

omit [IsOrderedAddMonoid W] in
theorem takeWithin_fits (fits : spent ≤ bound) :
    spent + weigh weight (takeWithin weight bound spent l) ≤ bound := by
  induction l generalizing spent with
  | nil => simpa [takeWithin] using fits
  | cons a l ih =>
      unfold takeWithin
      split
      next within =>
        rw [weigh_cons, ← add_assoc]
        exact ih within
      next => simpa using fits

theorem takeWithin_eq_nil (nonneg : ∀ a, 0 ≤ weight a) (above : bound < spent) :
    takeWithin weight bound spent l = [] := by
  cases l with
  | nil => rfl
  | cons a l =>
      have more : bound < spent + weight a := lt_of_lt_of_le above (le_add_of_nonneg_right (nonneg a))
      rw [takeWithin, if_neg (not_le.mpr more)]

/-- All prefixes within the bound are prefixes of what is taken. -/
theorem prefix_takeWithin (nonneg : ∀ a, 0 ≤ weight a) (begins : p <+: l)
    (fits : spent + weigh weight p ≤ bound) : p <+: takeWithin weight bound spent l := by
  induction l generalizing spent p with
  | nil => rw [List.prefix_nil.mp begins]; exact List.nil_prefix
  | cons a l ih =>
      cases p with
      | nil => exact List.nil_prefix
      | cons b p =>
          obtain ⟨rfl, more⟩ := List.cons_prefix_cons.mp begins
          rw [weigh_cons, ← add_assoc] at fits
          have within : spent + weight b ≤ bound :=
            le_trans (le_add_of_nonneg_right (weigh_nonneg nonneg)) fits
          rw [takeWithin, if_pos within]
          exact (List.prefix_cons_inj b).mpr (ih more fits)

/-! ## At least one -/

omit [IsOrderedAddMonoid W] in
theorem takeSome_isPrefix : takeSome weight bound spent l <+: l := by
  cases l with
  | nil => exact List.prefix_rfl
  | cons a l => exact (List.prefix_cons_inj a).mpr takeWithin_isPrefix

omit [IsOrderedAddMonoid W] in
theorem takeSome_ne_nil (some : l ≠ []) : takeSome weight bound spent l ≠ [] := by
  cases l with
  | nil => exact absurd rfl some
  | cons a l => exact List.cons_ne_nil _ _

theorem mayTake_takeSome (nonneg : ∀ a, 0 ≤ weight a) (some : l ≠ []) :
    MayTake weight bound spent (takeSome weight bound spent l) := by
  cases l with
  | nil => exact absurd rfl some
  | cons a l =>
      rcases le_or_gt (spent + weight a) bound with within | above
      · left
        rw [takeSome, weigh_cons, ← add_assoc]
        exact takeWithin_fits within
      · exact .inr (by rw [takeSome, takeWithin_eq_nil nonneg above, List.length_singleton])

theorem prefix_takeSome (nonneg : ∀ a, 0 ≤ weight a) (begins : p <+: l)
    (may : MayTake weight bound spent p) : p <+: takeSome weight bound spent l := by
  cases p with
  | nil => exact List.nil_prefix
  | cons b p =>
      cases l with
      | nil => cases List.prefix_nil.mp begins
      | cons a l =>
          obtain ⟨rfl, more⟩ := List.cons_prefix_cons.mp begins
          rw [takeSome]
          apply (List.prefix_cons_inj b).mpr
          rcases may with fits | one
          · rw [weigh_cons, ← add_assoc] at fits
            exact prefix_takeWithin nonneg more fits
          · have none : p = [] := List.length_eq_zero_iff.mp (Nat.succ.inj one)
            rw [none]
            exact List.nil_prefix

theorem takeSome_takeSome (nonneg : ∀ a, 0 ≤ weight a) :
    takeSome weight bound spent (takeSome weight bound spent l) =
      takeSome weight bound spent l := by
  cases l with
  | nil => rfl
  | cons a l =>
      have may : MayTake weight bound spent (takeSome weight bound spent (a :: l)) :=
        mayTake_takeSome nonneg (List.cons_ne_nil a l)
      have longest := prefix_takeSome nonneg List.prefix_rfl may
      exact takeSome_isPrefix.eq_of_length_le longest.length_le

end Data
