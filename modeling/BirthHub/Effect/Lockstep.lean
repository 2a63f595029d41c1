import BirthHub.Effect.Serial

/-!
# Two systems side by side

`Lockstep` relates a program on one store and a program on another that await their operations
in turn, each with the choice of the other, and end in results and stores that are related.
It is built along the programs by the rules below, and gives for each run of the first program
the run of the second with the same choices (`Lockstep.alone`), and for a history of requests
the same history (`Lockstep.serve`).
-/

namespace Effect

section

variable {I J : Iface} {τ σ σ' α α' β β' γ γ' : Type} {sys : System I τ σ α}
  {sys' : System J τ σ' α'} {choose : sys.Choice → sys'.Choice}

/-- The programs go on together, from `s` and from `t`, to ends that satisfy `Q`. -/
def Lockstep (sys : System I τ σ α) (sys' : System J τ σ' α') (choose : sys.Choice → sys'.Choice)
    (Q : Except I.Err β → Except J.Err γ → σ → σ' → Prop) : Prog I β → Prog J γ → σ → σ' → Prop
  | .pure a, .pure b, s, t => Q (.ok a) (.ok b) s t
  | .throw e, .throw e', s, t => Q (.error e) (.error e') s t
  | .op o k, .op o' k', s, t => ∀ choice answer s₁, sys.handle o choice s = some (answer, s₁) →
      ∃ answer' t₁, sys'.handle o' (choose choice) t = some (answer', t₁) ∧
        Lockstep sys sys' choose Q (k answer) (k' answer') s₁ t₁
  | _, _, _, _ => False

/-- Both ends are results that satisfy `R`, or both are errors that satisfy `Q`. -/
def together (Q : Except I.Err β' → Except J.Err γ' → σ → σ' → Prop) (R : β → γ → σ → σ' → Prop) :
    Except I.Err β → Except J.Err γ → σ → σ' → Prop
  | .ok a, .ok b, s, t => R a b s t
  | .error e, .error e', s, t => Q (.error e) (.error e') s t
  | _, _, _, _ => False

variable {Q Q' : Except I.Err β → Except J.Err γ → σ → σ' → Prop} {s : σ} {t : σ'}

theorem Lockstep.mono {p : Prog I β} {q : Prog J γ} (imp : ∀ x y s t, Q x y s t → Q' x y s t)
    (both : Lockstep sys sys' choose Q p q s t) : Lockstep sys sys' choose Q' p q s t := by
  induction p generalizing q s t with
  | pure a =>
      cases q with
      | pure b => exact imp _ _ _ _ both
      | throw e => exact both.elim
      | op o k => exact both.elim
  | throw e =>
      cases q with
      | pure b => exact both.elim
      | throw e' => exact imp _ _ _ _ both
      | op o k => exact both.elim
  | op o k ih =>
      cases q with
      | pure b => exact both.elim
      | throw e => exact both.elim
      | op o' k' =>
          intro choice answer s₁ answered
          obtain ⟨answer', t₁, answered', rest⟩ := both choice answer s₁ answered
          exact ⟨answer', t₁, answered', ih answer rest⟩

theorem Lockstep.bind {p : Prog I β'} {q : Prog J γ'} {f : β' → Prog I β} {g : γ' → Prog J γ}
    (both : Lockstep sys sys' choose
      (together Q fun a b s t => Lockstep sys sys' choose Q (f a) (g b) s t) p q s t) :
    Lockstep sys sys' choose Q (p.bind f) (q.bind g) s t := by
  induction p generalizing q s t with
  | pure a =>
      cases q with
      | pure b => exact both
      | throw e => exact both.elim
      | op o k => exact both.elim
  | throw e =>
      cases q with
      | pure b => exact both.elim
      | throw e' => exact both
      | op o k => exact both.elim
  | op o k ih =>
      cases q with
      | pure b => exact both.elim
      | throw e => exact both.elim
      | op o' k' =>
          intro choice answer s₁ answered
          obtain ⟨answer', t₁, answered', rest⟩ := both choice answer s₁ answered
          exact ⟨answer', t₁, answered', ih answer rest⟩

/-- One awaited operation in each program. -/
theorem Lockstep.perform {o : I.Op} {o' : J.Op}
    {Q : Except I.Err (I.Res o) → Except J.Err (J.Res o') → σ → σ' → Prop}
    (each : ∀ choice answer s₁, sys.handle o choice s = some (answer, s₁) →
      ∃ answer' t₁, sys'.handle o' (choose choice) t = some (answer', t₁) ∧
        together Q (fun a b => Q (.ok a) (.ok b)) answer answer' s₁ t₁) :
    Lockstep sys sys' choose Q (Prog.perform o) (Prog.perform o') s t := by
  intro choice answer s₁ answered
  obtain ⟨answer', t₁, answered', ends⟩ := each choice answer s₁ answered
  refine ⟨answer', t₁, answered', ?_⟩
  cases answer with
  | ok a =>
      cases answer' with
      | ok b => exact ends
      | error e => exact ends.elim
  | error e =>
      cases answer' with
      | ok b => exact ends.elim
      | error e' => exact ends

/-- The run of the second program that goes with a run of the first. -/
theorem Lockstep.alone {p : Prog I β} {q : Prog J γ}
    (both : Lockstep sys sys' choose Q p q s t) {choices : List sys.Choice} {x : Except I.Err β}
    {s' : σ} (ran : sys.alone p choices s = some (x, s')) :
    ∃ y t', sys'.alone q (choices.map choose) t = some (y, t') ∧ Q x y s' t' := by
  induction p generalizing q s t choices with
  | pure a =>
      cases q with
      | pure b =>
          cases ran
          exact ⟨_, _, rfl, both⟩
      | throw e => exact both.elim
      | op o k => exact both.elim
  | throw e =>
      cases q with
      | pure b => exact both.elim
      | throw e' =>
          cases ran
          exact ⟨_, _, rfl, both⟩
      | op o k => exact both.elim
  | op o k ih =>
      cases q with
      | pure b => exact both.elim
      | throw e => exact both.elim
      | op o' k' =>
          cases choices with
          | nil => cases ran
          | cons choice choices =>
              obtain ⟨⟨answer, s₁⟩, answered, rest⟩ := Option.bind_eq_some_iff.mp ran
              obtain ⟨answer', t₁, answered', both'⟩ := both choice answer s₁ answered
              obtain ⟨y, t', rest', ends⟩ := ih answer both' rest
              exact ⟨y, t', Option.bind_eq_some_iff.mpr ⟨_, answered', rest'⟩, ends⟩

/-- Two histories of the same requests, whose results are related. -/
def SameCalls (M : τ → Except I.Err α → Except J.Err α' → Prop) (calls : List (Call I τ α))
    (calls' : List (Call J τ α')) : Prop :=
  List.Forall₂ (fun call call' => call'.request = call.request ∧
    M call.request call.result call'.result) calls calls'

/-- The history of the second system that goes with a history of the first. -/
theorem Lockstep.serve {R : σ → σ' → Prop} {M : τ → Except I.Err α → Except J.Err α' → Prop}
    (each : ∀ request s t, R s t → Lockstep sys sys' choose
      (fun x y s t => R s t ∧ M request x y) (sys.program request) (sys'.program request) s t)
    (related : R s t) {requests : List (τ × List sys.Choice)} {calls : List (Call I τ α)} {s' : σ}
    (served : sys.serve (fun _ _ => true) s requests = some (calls, s')) :
    ∃ calls' t', sys'.serve (fun _ _ => true) t
        (requests.map fun request => (request.1, request.2.map choose)) = some (calls', t') ∧
      R s' t' ∧ SameCalls M calls calls' := by
  induction requests generalizing s t calls with
  | nil =>
      cases served
      exact ⟨_, _, rfl, related, .nil⟩
  | cons first rest ih =>
      obtain ⟨request, choices⟩ := first
      simp only [System.serve, if_true] at served
      obtain ⟨⟨x, s₁⟩, ran, others⟩ := Option.bind_eq_some_iff.mp served
      obtain ⟨⟨later, s₂⟩, served', same⟩ := Option.map_eq_some_iff.mp others
      cases same
      obtain ⟨y, t₁, ran', related', ends⟩ := (each request s t related).alone ran
      obtain ⟨later', t', served'', related'', all⟩ := ih related' served'
      refine ⟨⟨request, y⟩ :: later', t', ?_, related'', .cons ⟨rfl, ends⟩ all⟩
      simp [System.serve, ran', served'']

end

end Effect
