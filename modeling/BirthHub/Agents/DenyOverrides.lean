import BirthHub.Data.Wildcard
import BirthHub.Agents.Policy

/-!
# The verdict of the policy engine

A call is to be granted when an enabled rule in its scope allows the action and none denies it,
in whatever order the rules stand. A rule is for the actions that its pattern has as instances;
but the pattern is turned into a regular expression, whose `.` leaves line terminators out, so a
wildcard of a longer pattern does not stand for a text that has some.
-/

namespace Agents

open Data

variable {rules rules' : List PolicyRule} {effect : PolicyEffect} {agentId action pattern : String}
  {context : PolicyContext}

/-! ## Patterns -/

/-- The action is what the pattern becomes when each `*` is replaced by some text. -/
def IsGlob (pattern action : String) : Prop := IsInstance pattern.toList action.toList

/-- No line terminator of the action falls to a wildcard of a longer pattern. -/
def IsLevel (pattern action : String) : Prop :=
  pattern = "*" ∨ breaks pattern.toList = breaks action.toList

instance : Decidable (IsLevel pattern action) := inferInstanceAs (Decidable (_ ∨ _))

theorem isDot_eq (c : Char) : isDot c = !isLineTerminator c := by
  rw [Bool.eq_iff_iff]
  simp [isDot, isLineTerminator, ← Char.toNat_inj]

theorem any_skips (rest : List Char → Bool) (text : List Char) :
    (skips text).any rest = starThen rest text := by
  induction text with
  | nil => simp [skips, starThen]
  | cons c text ih =>
      rw [skips, starThen, List.any_cons, isDot_eq]
      cases isLineTerminator c with
      | true => simp
      | false => simpa using congrArg (rest (c :: text) || ·) ih

theorem matchesWildcards_eq (pattern text : List Char) :
    matchesWildcards pattern text = matchesWildcard pattern text := by
  induction pattern generalizing text with
  | nil => rfl
  | cons c pattern ih =>
      by_cases star : c = '*'
      · rw [star, matchesWildcard_star, ← funext ih, ← any_skips]
        cases text <;> rfl
      · cases text with
        | nil => simp [matchesWildcards, matchesWildcard, star]
        | cons d text => simp [matchesWildcards, matchesWildcard, star, ih]

/-- A pattern matches its instances, but for those whose line terminators are not its own. -/
theorem matchesAction_iff :
    matchesAction pattern action = true ↔ IsGlob pattern action ∧ IsLevel pattern action := by
  unfold matchesAction IsGlob IsLevel
  split
  · rename_i star
    subst star
    exact ⟨fun _ => ⟨isInstance_star, .inl rfl⟩, fun _ => rfl⟩
  · rename_i longer
    split
    · rename_i plain
      rw [decide_eq_true_eq, isInstance_plain plain]
      constructor
      · rintro rfl
        exact ⟨rfl, .inr rfl⟩
      · rintro ⟨same, _⟩
        exact String.ext same
    · rw [matchesWildcards_eq, matchesWildcard_iff]
      simp [longer]

/-! ## Rules -/

/-- The rule is enabled, in scope and for the action. -/
def PolicyRule.IsFor (rule : PolicyRule) (agentId action : String) (context : PolicyContext) :
    Prop :=
  isRuleEnabled rule = true ∧ matchesScope rule agentId context = true ∧ IsGlob rule.action action

/-- A rule for the action has the effect. -/
def Ruled (rules : List PolicyRule) (effect : PolicyEffect) (agentId action : String)
    (context : PolicyContext) : Prop :=
  ∃ rule ∈ rules, rule.effect = effect ∧ rule.IsFor agentId action context

/-- A rule for the action that the engine finds has the effect. -/
def Found (rules : List PolicyRule) (effect : PolicyEffect) (agentId action : String)
    (context : PolicyContext) : Prop :=
  ∃ rule ∈ rules, rule.effect = effect ∧ rule.IsFor agentId action context ∧
    IsLevel rule.action action

/-- A rule for the action that the engine does not find has the effect. -/
def Overlooked (rules : List PolicyRule) (effect : PolicyEffect) (agentId action : String)
    (context : PolicyContext) : Prop :=
  ∃ rule ∈ rules, rule.effect = effect ∧ rule.IsFor agentId action context ∧
    ¬ IsLevel rule.action action

theorem ruled_iff : Ruled rules effect agentId action context ↔
    Found rules effect agentId action context ∨ Overlooked rules effect agentId action context := by
  constructor
  · rintro ⟨rule, inside, same, isFor⟩
    by_cases level : IsLevel rule.action action
    · exact .inl ⟨rule, inside, same, isFor, level⟩
    · exact .inr ⟨rule, inside, same, isFor, level⟩
  · rintro (⟨rule, inside, same, isFor, _⟩ | ⟨rule, inside, same, isFor, _⟩)
    · exact ⟨rule, inside, same, isFor⟩
    · exact ⟨rule, inside, same, isFor⟩

theorem has_iff_found : (PolicyEngine.mk rules).Has effect agentId action context ↔
    Found rules effect agentId action context := by
  unfold PolicyEngine.Has PolicyEngine.matchingRules Found PolicyRule.IsFor
  simp only [List.mem_filter, Bool.and_eq_true, matchesAction_iff]
  constructor
  · rintro ⟨rule, ⟨inside, ⟨enabled, fits⟩, isGlob, level⟩, same⟩
    exact ⟨rule, inside, same, ⟨enabled, fits, isGlob⟩, level⟩
  · rintro ⟨rule, inside, same, ⟨enabled, fits, isGlob⟩, level⟩
    exact ⟨rule, ⟨inside, ⟨enabled, fits⟩, isGlob, level⟩, same⟩

/-- The engine grants what a rule it finds allows and no rule it finds denies. -/
theorem evaluate_found : ((PolicyEngine.mk rules).evaluate agentId action context).granted = true ↔
    Found rules .allow agentId action context ∧ ¬ Found rules .deny agentId action context := by
  rw [PolicyEngine.evaluate_granted, has_iff_found, has_iff_found, and_comm]

theorem Found.perm (perm : rules.Perm rules') (found : Found rules effect agentId action context) :
    Found rules' effect agentId action context := by
  obtain ⟨rule, inside, rest⟩ := found
  exact ⟨rule, perm.mem_iff.mp inside, rest⟩

theorem evaluate_perm (perm : rules.Perm rules') :
    ((PolicyEngine.mk rules).evaluate agentId action context).granted =
      ((PolicyEngine.mk rules').evaluate agentId action context).granted := by
  have same (effect : PolicyEffect) : Found rules effect agentId action context ↔
      Found rules' effect agentId action context := ⟨.perm perm, .perm perm.symm⟩
  rw [Bool.eq_iff_iff, evaluate_found, evaluate_found, same, same]

/-! ## The verdict -/

/-- The verdict on a call is that of the rules for it, in any order, and the pattern matches its
instances. -/
structure DenyOverrides (rules : List PolicyRule) (agentId action : String)
    (context : PolicyContext) (pattern : String) : Prop where
  granted : ((PolicyEngine.mk rules).evaluate agentId action context).granted = true ↔
    Ruled rules .allow agentId action context ∧ ¬ Ruled rules .deny agentId action context
  permuted : ∀ rules' : List PolicyRule, rules'.Perm rules →
    ((PolicyEngine.mk rules').evaluate agentId action context).granted =
      ((PolicyEngine.mk rules).evaluate agentId action context).granted
  matched : matchesAction pattern action = true ↔ IsGlob pattern action

/-- The overlooked rules do not matter: a denial is found, or none is overlooked and one
permission is found if any is there, or the engine refuses what an overlooked denial refuses. -/
def Immaterial (rules : List PolicyRule) (agentId action : String) (context : PolicyContext) :
    Prop :=
  Found rules .deny agentId action context ∨
  (Found rules .allow agentId action context ∧ ¬ Overlooked rules .deny agentId action context) ∨
  (¬ Found rules .allow agentId action context ∧
    (Overlooked rules .allow agentId action context →
      Overlooked rules .deny agentId action context))

/-- **Denials override, where no line terminator falls to a wildcard.** The engine decides by the
rules for the call if and only if the rules it overlooks do not matter, and a pattern matches its
instances if and only if the action is none or has the line terminators of the pattern only. -/
theorem denyOverrides_iff : DenyOverrides rules agentId action context pattern ↔
    Immaterial rules agentId action context ∧
      (IsGlob pattern action → IsLevel pattern action) := by
  have verdict : (((PolicyEngine.mk rules).evaluate agentId action context).granted = true ↔
      Ruled rules .allow agentId action context ∧ ¬ Ruled rules .deny agentId action context) ↔
      Immaterial rules agentId action context := by
    rw [evaluate_found, ruled_iff, ruled_iff]
    unfold Immaterial
    tauto
  have matched : (matchesAction pattern action = true ↔ IsGlob pattern action) ↔
      (IsGlob pattern action → IsLevel pattern action) := by
    rw [matchesAction_iff]
    tauto
  constructor
  · intro overrides
    exact ⟨verdict.mp overrides.granted, matched.mp overrides.matched⟩
  · rintro ⟨immaterial, level⟩
    exact ⟨verdict.mpr immaterial, fun _ perm => evaluate_perm perm, matched.mpr level⟩

/-- An action with a line break that a rule should allow. -/
theorem lineBreak_not_denyOverrides :
    let rule : PolicyRule := { id := "r", action := "tool.*", effect := .allow }
    ¬ DenyOverrides [rule] "a" "tool.a\nb" {} "tool.*" := by
  intro rule overrides
  have isGlob : IsGlob "tool.*" "tool.a\nb" := by
    refine .literal (by decide) (.literal (by decide) (.literal (by decide) (.literal (by decide)
      (.literal (by decide) ?_))))
    exact .star ['a', '\n', 'b'] .nil
  have found := overrides.matched.mpr isGlob
  revert found
  decide

end Agents
