import BirthHub.Effect.Serial

/-!
# Ends of a program that runs alone

`System.Ends Q p s` says that from `s` the program can be run, every operation on its way being
answered, and that it ends within `Q` whatever is chosen. It is built along the program by the
rules below; it gives an execution, and what is true of every execution.
-/

namespace Effect

section

variable {I : Iface} {τ σ α β γ : Type} {sys : System I τ σ α}

def System.Ends (sys : System I τ σ α) (Q : Except I.Err β → σ → Prop) : Prog I β → σ → Prop
  | .pure a, s => Q (.ok a) s
  | .throw e, s => Q (.error e) s
  | .op o k, s => (∃ choice answered, sys.handle o choice s = some answered) ∧
      ∀ choice answer s', sys.handle o choice s = some (answer, s') → System.Ends sys Q (k answer) s'

variable {Q Q' : Except I.Err β → σ → Prop} {s s' : σ}

theorem System.Ends.mono {p : Prog I β} (imp : ∀ x s, Q x s → Q' x s) (ends : sys.Ends Q p s) :
    sys.Ends Q' p s := by
  induction p generalizing s with
  | pure a => exact imp _ _ ends
  | throw e => exact imp _ _ ends
  | op o k ih => exact ⟨ends.1, fun choice answer s' answered =>
      ih answer (ends.2 choice answer s' answered)⟩

theorem System.Ends.bind {p : Prog I β} {f : β → Prog I γ} {Q : Except I.Err γ → σ → Prop}
    (ends : sys.Ends (fun
      | .ok a => sys.Ends Q (f a)
      | .error e => Q (.error e)) p s) : sys.Ends Q (p.bind f) s := by
  induction p generalizing s with
  | pure a => exact ends
  | throw e => exact ends
  | op o k ih => exact ⟨ends.1, fun choice answer s' answered =>
      ih answer (ends.2 choice answer s' answered)⟩

theorem System.Ends.tryCatch {p : Prog I β} {h : I.Err → Prog I β}
    (ends : sys.Ends (fun
      | .ok a => Q (.ok a)
      | .error e => sys.Ends Q (h e)) p s) : sys.Ends Q (p.tryCatch h) s := by
  induction p generalizing s with
  | pure a => exact ends
  | throw e => exact ends
  | op o k ih => exact ⟨ends.1, fun choice answer s' answered =>
      ih answer (ends.2 choice answer s' answered)⟩

/-- An operation with one answer, followed by the rest of the program. -/
theorem System.Ends.performBind {o : I.Op} {r : I.Res o} {f : I.Res o → Prog I β}
    (answers : ∃ choice, sys.handle o choice s = some (.ok r, s'))
    (only : ∀ choice answered, sys.handle o choice s = some answered → answered = (.ok r, s'))
    (rest : sys.Ends Q (f r) s') : sys.Ends Q ((Prog.perform o).bind f) s := by
  obtain ⟨choice, answered⟩ := answers
  refine ⟨⟨choice, _, answered⟩, fun choice answer s'' answered => ?_⟩
  cases only choice _ answered
  exact rest

theorem System.Ends.exec {p : Prog I β} {x : Except I.Err β} (ends : sys.Ends Q p s)
    (ran : sys.Exec p s x s') : Q x s' := by
  induction ran with
  | pure => exact ends
  | throw => exact ends
  | op answered _ ih => exact ih (ends.2 _ _ _ answered)

theorem System.Ends.exists_exec {p : Prog I β} (ends : sys.Ends Q p s) :
    ∃ x s', sys.Exec p s x s' := by
  induction p generalizing s with
  | pure a => exact ⟨_, _, .pure⟩
  | throw e => exact ⟨_, _, .throw⟩
  | op o k ih =>
      obtain ⟨⟨choice, ⟨answer, s₁⟩, answered⟩, rest⟩ := ends
      obtain ⟨x, s', ran⟩ := ih answer (rest choice answer s₁ answered)
      exact ⟨x, s', .op answered ran⟩

end

end Effect
