import BirthHub.Effect.Serial

/-!
# Programs of one interface inside another

A system that runs programs of several components has an interface that contains theirs.
`Prog.embed` is a program of the smaller interface as one of the larger, and
`Prog.Follows.embed` carries its protocol over.
-/

namespace Effect

/-- The operations of `I` as operations of `J`, and what their answers and errors are
there. -/
structure Embedding (I J : Iface) where
  op : I.Op → J.Op
  answer : (o : I.Op) → J.Answer (op o) → I.Answer o
  err : I.Err → J.Err

namespace Prog

variable {I J : Iface} {α : Type} (e : Embedding I J)

def embed : Prog I α → Prog J α
  | .pure a => .pure a
  | .throw error => .throw (e.err error)
  | .op o k => .op (e.op o) fun answer => (k (e.answer o answer)).embed

variable {e} {S : Type} {step : S → (o : I.Op) → I.Answer o → S → Prop}
  {step' : S → (o : J.Op) → J.Answer o → S → Prop} {Q : Except I.Err α → S → Prop}
  {Q' : Except J.Err α → S → Prop}

theorem Follows.embed {p : Prog I α} {s : S}
    (steps : ∀ s o answer s', step s o (e.answer o answer) s' → step' s (e.op o) answer s')
    (returned : ∀ a s, Q (.ok a) s → Q' (.ok a) s)
    (threw : ∀ error s, Q (.error error) s → Q' (.error (e.err error)) s)
    (follows : p.Follows step Q s) : (p.embed e).Follows step' Q' s := by
  induction p generalizing s with
  | pure a => exact returned a s follows
  | throw error => exact threw error s follows
  | op o k ih =>
      intro answer
      obtain ⟨s', taken, rest⟩ := follows (e.answer o answer)
      exact ⟨s', steps s o answer s' taken, ih _ rest⟩

theorem Within.embed {A : I.Op → Prop} {A' : J.Op → Prop} {p : Prog I α}
    (each : ∀ o, A o → A' (e.op o)) (within : p.Within A) : (p.embed e).Within A' := by
  induction p with
  | pure a => trivial
  | throw error => trivial
  | op o k ih => exact ⟨each o within.1, fun answer => ih _ (within.2 _)⟩

end Prog

end Effect
