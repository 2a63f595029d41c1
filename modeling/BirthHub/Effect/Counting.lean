import BirthHub.Effect.System

/-!
# Counting threads

How many threads of a world are somewhere: what one step does to the count, and that a
count of stages is at most one of programs.
-/

namespace Effect

variable {α β : Type}

/-- When one element changes, a count changes by what holds of it before and after. -/
theorem countP_modify {p : α → Bool} {l : List α} {i : Nat} {a : α} {f : α → α}
    (found : l[i]? = some a) :
    (l.modify i f).countP p + (if p a then 1 else 0) = l.countP p + (if p (f a) then 1 else 0) := by
  induction l generalizing i with
  | nil => cases found
  | cons b l ih =>
      cases i with
      | zero =>
          cases found
          simp only [List.modify_zero_cons, List.countP_cons]
          omega
      | succ i =>
          have rest := ih found
          simp only [List.modify_succ_cons, List.countP_cons]
          omega

/-- A count is at most another when what is counted at a place is counted there. -/
theorem countP_le_of_places {p : α → Bool} {q : β → Bool} {l : List α} {l' : List β}
    (length : l.length = l'.length)
    (imp : ∀ {i : Nat} {a : α} {b : β}, l[i]? = some a → l'[i]? = some b → p a = true → q b = true) :
    l.countP p ≤ l'.countP q := by
  induction l generalizing l' with
  | nil => exact Nat.zero_le _
  | cons a l ih =>
      cases l' with
      | nil => cases length
      | cons b l' =>
          have rest := ih (Nat.succ.inj length) fun {i _ _} first second =>
            @imp (i + 1) _ _ first second
          have here : p a = true → q b = true := @imp 0 _ _ rfl rfl
          rw [List.countP_cons, List.countP_cons]
          cases counted : p a with
          | true =>
              rw [here counted]
              simpa using rest
          | false =>
              simp only [Bool.false_eq_true, if_false, Nat.add_zero]
              exact Nat.le_trans rest (Nat.le_add_right _ _)

namespace World

variable {I : Iface} {τ σ : Type} {p : β → Bool}

/-- A step of a thread changes a count by where the thread was and where it is. -/
theorem countP_advance {w : World I τ σ β} {i : Nat} {t : Thread τ β} {b : β} {store : σ}
    {event : Event I} (found : w.threads[i]? = some t) :
    ((w.advance i b store event).threads.countP fun t => p t.body) + (if p t.body then 1 else 0) =
      (w.threads.countP fun t => p t.body) + (if p b then 1 else 0) :=
  countP_modify found

theorem countP_change {w : World I τ σ β} {start : τ → β} {c : Change τ σ}
    (unsettled : c.settle = none) (uncounted : ∀ tag, p (start tag) = false) :
    ((w.change start c).threads.countP fun t => p t.body) = w.threads.countP fun t => p t.body := by
  rcases c with ⟨store, spawn, settle⟩
  cases unsettled
  simp [change, List.countP_append, List.countP_map, Function.comp_def, uncounted]

end World

end Effect
