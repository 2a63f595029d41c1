import BirthHub.Effect.Serial

/-!
# What a program does, given what it relies on

`Prog.Under A R Q` says that a program awaits only operations in `A` and ends within `Q`, as
long as the answers it gets are in `R`. `System.Run.under` carries it to every thread of a
run: the store has to answer operations in `A` by answers in `R`. For a program that runs alone
`System.Exec.under_trans` collects what each operation does to the store, and
`System.Exec.under_simulate` repeats the execution in a related store.
-/

namespace Effect

namespace Prog

variable {I : Iface} {α β : Type} {A : I.Op → Prop} {R : (o : I.Op) → I.Answer o → Prop}
  {Q Q' : Except I.Err α → Prop}

def Under (A : I.Op → Prop) (R : (o : I.Op) → I.Answer o → Prop) (Q : Except I.Err α → Prop) :
    Prog I α → Prop
  | .pure a => Q (.ok a)
  | .throw e => Q (.error e)
  | .op o k => A o ∧ ∀ r, R o r → (k r).Under A R Q

theorem Under.mono {p : Prog I α} (imp : ∀ x, Q x → Q' x) (under : p.Under A R Q) :
    p.Under A R Q' := by
  induction p with
  | pure a => exact imp _ under
  | throw e => exact imp _ under
  | op o k ih => exact ⟨under.1, fun r relied => ih r (under.2 r relied)⟩

theorem Under.bind {p : Prog I α} {f : α → Prog I β} {Q : Except I.Err β → Prop}
    (under : p.Under A R fun
      | .ok a => (f a).Under A R Q
      | .error e => Q (.error e)) : (p.bind f).Under A R Q := by
  induction p with
  | pure a => exact under
  | throw e => exact under
  | op o k ih => exact ⟨under.1, fun r relied => ih r (under.2 r relied)⟩

theorem Under.performBind {o : I.Op} {f : I.Res o → Prog I α} (within : A o)
    (answered : ∀ a, R o (.ok a) → (f a).Under A R Q)
    (failed : ∀ e, R o (.error e) → Q (.error e)) : ((Prog.perform o).bind f).Under A R Q := by
  refine ⟨within, fun r relied => ?_⟩
  cases r with
  | ok a => exact answered a relied
  | error e => exact failed e relied

/-- An ending that may fail as the program may. -/
theorem Under.finallyDo {p : Prog I α} {q : Prog I Unit} (under : p.Under A R Q)
    (last : q.Under A R fun
      | .ok _ => True
      | .error e => Q (.error e)) : (p.finallyDo q).Under A R Q := by
  have ends {p' : Prog I α} (under : p'.Under A R Q) : (q.bind fun _ => p').Under A R Q := by
    refine Under.bind (last.mono fun x failed => ?_)
    rcases x with e | _
    · exact failed
    · exact under
  induction p with
  | pure a => exact ends under
  | throw e => exact ends under
  | op o k ih => exact ⟨under.1, fun r relied => ih r (under.2 r relied)⟩

theorem Under.perform {o : I.Op} {Q : Except I.Err (I.Res o) → Prop} (within : A o)
    (ends : ∀ r, R o r → Q r) : (Prog.perform o).Under A R Q := by
  refine ⟨within, fun r relied => ?_⟩
  cases r with
  | ok a => exact ends _ relied
  | error e => exact ends _ relied

end Prog

variable {I : Iface} {τ σ α : Type} {sys : System I τ σ α}

/-- The store keeps `J`, and each thread keeps what it has of a store that only goes along `T`, in
every run with a trace within `N`, if each operation and each event beside the threads does. -/
theorem System.Run.steady {guard : World I τ σ (Prog I α) → Act sys.Choice sys.Env → Prop}
    {J : σ → Prop} {T : σ → σ → Prop} {P : σ → τ → Prog I α → Prop} {N : Event I → Prop}
    (stable : ∀ {s s' tag p}, T s s' → P s tag p → P s' tag p)
    (starts : ∀ s tag, P s tag (sys.program tag))
    (each : ∀ {i tag o k choice s answer s'}, J s → P s tag (.op o k) →
      sys.handle o choice s = some (answer, s') → N ⟨i, o, answer⟩ →
      J s' ∧ T s s' ∧ P s' tag (k answer))
    (beside : ∀ {event s threads c}, J s → sys.env event s threads = some c →
      J c.store ∧ T s c.store)
    {w₀ w : World I τ σ (Prog I α)} (first : J w₀.store)
    (begun : ∀ t ∈ w₀.threads, P w₀.store t.tag t.body) (reached : sys.Run guard w₀ w)
    (within : ∀ event ∈ w.trace, N event) :
    J w.store ∧ ∀ t ∈ w.threads, P w.store t.tag t.body := by
  induction reached with
  | refl => exact ⟨first, begun⟩
  | @step w w' act _ _ taken ih =>
      cases act with
      | run i choice =>
          obtain ⟨t, o, k, answer, store, found, pending, answered, rfl⟩ :=
            System.step_run taken
          obtain ⟨kept, inside⟩ := ih fun event there => within event (.tail _ there)
          have holds := inside t (List.mem_of_getElem? found)
          rw [pending] at holds
          obtain ⟨kept', along, rest⟩ := each kept holds answered (within _ (.head _))
          refine ⟨kept', fun u there => ?_⟩
          rcases World.mem_advance found there with rfl | before
          · exact rest
          · exact stable along (inside u before)
      | env event =>
          obtain ⟨c, change, rfl⟩ := System.step_env taken
          obtain ⟨kept, inside⟩ := ih within
          obtain ⟨kept', along⟩ := beside kept change
          refine ⟨kept', fun u there => ?_⟩
          obtain ⟨j, there⟩ := List.getElem?_of_mem there
          rcases World.change_cases there with ⟨t, found, rfl⟩ | ⟨tag, _, _, rfl⟩
          · exact stable along (inside t (List.mem_of_getElem? found))
          · exact starts c.store tag

/-- What is true of the program of each task, and kept by each answer, is true of the threads
of every run. -/
theorem System.Run.threads {guard : World I τ σ (Prog I α) → Act sys.Choice sys.Env → Prop}
    {P : τ → Prog I α → Prop} (starts : ∀ tag, P tag (sys.program tag))
    (each : ∀ {tag o k choice s answer s'}, P tag (.op o k) →
      sys.handle o choice s = some (answer, s') → P tag (k answer))
    {w₀ w : World I τ σ (Prog I α)} (first : ∀ t ∈ w₀.threads, P t.tag t.body)
    (reached : sys.Run guard w₀ w) : ∀ t ∈ w.threads, P t.tag t.body :=
  (reached.steady (J := fun _ => True) (T := fun _ _ => True) (P := fun _ => P)
    (N := fun _ => True) (fun _ => id) (fun _ => starts)
    (fun _ holds answered _ => ⟨trivial, trivial, each holds answered⟩)
    (fun _ _ => ⟨trivial, trivial⟩) trivial first fun _ _ => trivial).2

/-- The threads of a run do what their programs do, if the store answers as they rely on. -/
theorem System.Run.under {guard : World I τ σ (Prog I α) → Act sys.Choice sys.Env → Prop}
    {A : τ → I.Op → Prop} {R : τ → (o : I.Op) → I.Answer o → Prop}
    {Q : τ → Except I.Err α → Prop}
    (starts : ∀ tag, (sys.program tag).Under (A tag) (R tag) (Q tag))
    (answers : ∀ {tag o choice s answer s'}, A tag o →
      sys.handle o choice s = some (answer, s') → R tag o answer)
    {w₀ w : World I τ σ (Prog I α)} (first : w₀.threads = []) (reached : sys.Run guard w₀ w) :
    ∀ t ∈ w.threads, t.body.Under (A t.tag) (R t.tag) (Q t.tag) := by
  refine reached.threads (P := fun tag p => p.Under (A tag) (R tag) (Q tag)) starts
    (fun under answered => under.2 _ (answers under.1 answered)) ?_
  rw [first]
  exact fun t inside => (List.not_mem_nil inside).elim

/-- What the threads of a run have awaited is within what their programs may await. -/
theorem System.Run.asked {guard : World I τ σ (Prog I α) → Act sys.Choice sys.Env → Prop}
    {A : τ → I.Op → Prop} {R : τ → (o : I.Op) → I.Answer o → Prop}
    {Q : τ → Except I.Err α → Prop}
    (starts : ∀ tag, (sys.program tag).Under (A tag) (R tag) (Q tag))
    (answers : ∀ {tag o choice s answer s'}, A tag o →
      sys.handle o choice s = some (answer, s') → R tag o answer)
    {w₀ w : World I τ σ (Prog I α)} (first : w₀.threads = []) (silent : w₀.trace = [])
    (reached : sys.Run guard w₀ w) :
    ∀ event ∈ w.trace, ∃ t, w.threads[event.actor]? = some t ∧ A t.tag event.op := by
  induction reached with
  | refl =>
      rw [silent]
      exact fun event inside => (List.not_mem_nil inside).elim
  | @step w w' act before allowed taken ih =>
      cases act with
      | run i choice =>
          have under := before.under starts answers first
          obtain ⟨t, o, k, answer, store, found, pending, answered, rfl⟩ := System.step_run taken
          have own := under t (List.mem_of_getElem? found)
          rw [pending] at own
          intro event inside
          rcases List.mem_cons.mp inside with rfl | earlier
          · exact ⟨_, World.advance_self found, own.1⟩
          · obtain ⟨u, there, asked⟩ := ih event earlier
            by_cases same : event.actor = i
            · rw [same] at there ⊢
              obtain rfl := Option.some.inj (found.symm.trans there)
              exact ⟨_, World.advance_self found, asked⟩
            · exact ⟨u, (World.advance_other same).trans there, asked⟩
      | env event =>
          obtain ⟨c, _, rfl⟩ := System.step_env taken
          intro event inside
          obtain ⟨u, there, asked⟩ := ih event inside
          exact ⟨_, World.change_kept there, asked⟩

section

variable {β : Type} {A : I.Op → Prop} {R : (o : I.Op) → I.Answer o → Prop}
  {Q : Except I.Err β → Prop} {p : Prog I β} {x : Except I.Err β} {s s' t : σ}

theorem System.Exec.under_trans {T : σ → σ → Prop} (refl : ∀ s, T s s)
    (trans : ∀ {s₁ s₂ s₃}, T s₁ s₂ → T s₂ s₃ → T s₁ s₃)
    (each : ∀ {o choice s answer s'}, A o → sys.handle o choice s = some (answer, s') →
      R o answer ∧ T s s')
    (under : p.Under A R Q) (ran : sys.Exec p s x s') : Q x ∧ T s s' := by
  induction ran with
  | pure => exact ⟨under, refl _⟩
  | throw => exact ⟨under, refl _⟩
  | op answered _ ih =>
      obtain ⟨relied, first⟩ := each under.1 answered
      obtain ⟨ends, rest⟩ := ih (under.2 _ relied)
      exact ⟨ends, trans first rest⟩

theorem System.Exec.under_simulate {T : σ → σ → Prop}
    (each : ∀ {o choice s t answer s'}, A o → T s t → sys.handle o choice s = some (answer, s') →
      R o answer ∧ ∃ t', sys.handle o choice t = some (answer, t') ∧ T s' t')
    (under : p.Under A R Q) (related : T s t) (ran : sys.Exec p s x s') :
    ∃ t', sys.Exec p t x t' ∧ T s' t' := by
  induction ran generalizing t with
  | pure => exact ⟨t, .pure, related⟩
  | throw => exact ⟨t, .throw, related⟩
  | op answered _ ih =>
      obtain ⟨relied, t₁, answered', related'⟩ := each under.1 related answered
      obtain ⟨t', rest, last⟩ := ih (under.2 _ relied) related'
      exact ⟨t', .op answered' rest, last⟩

end

end Effect
