import BirthHub.Effect.System

/-!
# Calls that read a cell and write it later

A call reads a cell, and later writes what it makes of the value it found. When no call reads
while another one has read and not yet written, the value of the cell is what the calls that
have written make of the first value, one after the other in some order (`Serial.step`).
-/

namespace Effect

/-- How far a call is. -/
inductive CellStage (V : Type)
  | reading
  | writing (found : V)
  | written
  /-- It ended and did not write. -/
  | gone

def CellStage.isWriting {V : Type} : CellStage V → Bool
  | .writing _ => true
  | _ => false

/-- A cell, and the calls by number. -/
structure Cell (τ V : Type) where
  value : V
  calls : List (τ × CellStage V)

namespace Cell

variable {τ V : Type} {update : τ → V → V} {first : V} {c c' : Cell τ V}

inductive Step (update : τ → V → V) (c : Cell τ V) : Cell τ V → Prop
  | idle : Step update c c
  | start (tag : τ) : Step update c ⟨c.value, c.calls ++ [(tag, .reading)]⟩
  | read {i : Nat} {tag : τ} (there : c.calls[i]? = some (tag, .reading))
      (alone : ∀ call ∈ c.calls, call.2.isWriting = false) :
      Step update c ⟨c.value, c.calls.set i (tag, .writing c.value)⟩
  | write {i : Nat} {tag : τ} {found : V} (there : c.calls[i]? = some (tag, .writing found)) :
      Step update c ⟨update tag found, c.calls.set i (tag, .written)⟩
  | leave {i : Nat} {tag : τ} (there : c.calls[i]? = some (tag, .reading)) :
      Step update c ⟨c.value, c.calls.set i (tag, .gone)⟩

/-- The call, if it has written. -/
def wrote (call : τ × CellStage V) : Option τ :=
  match call.2 with
  | .written => some call.1
  | _ => none

theorem wrote_eq_none {tag : τ} {stage : CellStage V} (unwritten : stage ≠ .written) :
    wrote (tag, stage) = none := by
  cases stage with
  | written => exact absurd rfl unwritten
  | _ => rfl

/-- What calls make of a value, one after the other. -/
def replay (update : τ → V → V) (first : V) (order : List τ) : V :=
  order.foldl (fun value tag => update tag value) first

/-- The calls that have written did so one after the other, and a call that has read and not yet
written is the only one. -/
structure Serial (update : τ → V → V) (first : V) (c : Cell τ V) : Prop where
  current : ∀ {i : Nat} {tag : τ} {found : V}, c.calls[i]? = some (tag, .writing found) →
    found = c.value
  alone : ∀ {i j : Nat} {call call' : τ × CellStage V}, c.calls[i]? = some call →
    c.calls[j]? = some call' → call.2.isWriting = true → call'.2.isWriting = true → i = j
  order : ∃ order : List τ, order.Perm (c.calls.filterMap wrote) ∧
    c.value = replay update first order

theorem replay_append {order : List τ} {tag : τ} :
    replay update first (order ++ [tag]) = update tag (replay update first order) := by
  simp [replay]

theorem filterMap_set {α β : Type} {f : α → Option β} {l : List α} {i : Nat} {a b : α}
    (there : l[i]? = some a) (before : f a = none) (after : f b = none) :
    (l.set i b).filterMap f = l.filterMap f := by
  induction l generalizing i with
  | nil => rfl
  | cons x l ih =>
      cases i with
      | zero =>
          cases there
          simp [before, after]
      | succ i => simp only [List.set_cons_succ, List.filterMap_cons, ih there]

theorem filterMap_set_perm {α β : Type} {f : α → Option β} {l : List α} {i : Nat} {a b : α} {y : β}
    (there : l[i]? = some a) (before : f a = none) (after : f b = some y) :
    ((l.set i b).filterMap f).Perm (l.filterMap f ++ [y]) := by
  induction l generalizing i with
  | nil => cases there
  | cons x l ih =>
      cases i with
      | zero =>
          cases there
          simp only [List.set_cons_zero, List.filterMap_cons, before, after]
          exact (List.perm_append_singleton y _).symm
      | succ i =>
          have rest := ih there
          simp only [List.set_cons_succ, List.filterMap_cons]
          cases f x with
          | none => exact rest
          | some z => exact rest.cons z

theorem getElem?_set_cases {α : Type} {l : List α} {i j : Nat} {b x : α}
    (after : (l.set i b)[j]? = some x) : j = i ∧ x = b ∨ j ≠ i ∧ l[j]? = some x := by
  by_cases same : j = i
  · subst same
    have bound : j < l.length := by
      have inside := (List.getElem?_eq_some_iff.mp after).1
      rwa [List.length_set] at inside
    rw [List.getElem?_set_self bound] at after
    exact .inl ⟨rfl, (Option.some.inj after).symm⟩
  · rw [List.getElem?_set_ne (Ne.symm same)] at after
    exact .inr ⟨same, after⟩

/-- Of calls with one more that reads, those that write were there before. -/
theorem writing_append {calls : List (τ × CellStage V)} {i : Nat} {tag : τ}
    {call : τ × CellStage V} (there : (calls ++ [(tag, .reading)])[i]? = some call)
    (writes : call.2.isWriting = true) : calls[i]? = some call := by
  rcases Nat.lt_or_ge i calls.length with before | after
  · rwa [List.getElem?_append_left before] at there
  · rw [List.getElem?_append_right after] at there
    rw [List.mem_singleton.mp (List.mem_of_getElem? there)] at writes
    cases writes

theorem Serial.start : Serial update first ⟨first, []⟩ where
  current there := by simp at there
  alone there := by simp at there
  order := ⟨[], .nil, rfl⟩

/-- A call that is set to a stage at which it does not write leaves the other calls as they
are. -/
theorem writing_set {calls : List (τ × CellStage V)} {i j : Nat} {tag : τ} {stage : CellStage V}
    {call : τ × CellStage V} (there : (calls.set i (tag, stage))[j]? = some call)
    (idle : stage.isWriting = false) (writes : call.2.isWriting = true) :
    j ≠ i ∧ calls[j]? = some call := by
  rcases getElem?_set_cases there with ⟨_, rfl⟩ | before
  · rw [idle] at writes
    cases writes
  · exact before

theorem Serial.step (serial : Serial update first c) (step : Step update c c') :
    Serial update first c' := by
  obtain ⟨order, perm, value⟩ := serial.order
  cases step with
  | idle => exact serial
  | start tag =>
      refine ⟨fun there => serial.current (writing_append there rfl),
        fun there there' writes writes' => serial.alone (writing_append there writes)
          (writing_append there' writes') writes writes', order, ?_, value⟩
      have idle : [(tag, CellStage.reading (V := V))].filterMap wrote = [] := rfl
      rw [List.filterMap_append, idle, List.append_nil]
      exact perm
  | @read i tag there alone =>
      have only {j : Nat} {call : τ × CellStage V}
          (after : (c.calls.set i (tag, .writing c.value))[j]? = some call)
          (writes : call.2.isWriting = true) : j = i ∧ call = (tag, .writing c.value) := by
        rcases getElem?_set_cases after with same | ⟨_, before⟩
        · exact same
        · rw [alone call (List.mem_of_getElem? before)] at writes
          cases writes
      refine ⟨fun after => ?_, fun after after' writes writes' =>
        (only after writes).1.trans (only after' writes').1.symm, order, ?_, value⟩
      · have same := (only after rfl).2
        cases same
        rfl
      · rwa [filterMap_set there rfl rfl]
  | @write i tag found there =>
      have none {j : Nat} {call : τ × CellStage V}
          (after : (c.calls.set i (tag, .written))[j]? = some call) : call.2.isWriting = false := by
        cases writes : call.2.isWriting with
        | false => rfl
        | true =>
            obtain ⟨other, before⟩ := writing_set after rfl writes
            exact absurd (serial.alone before there writes rfl) other
      refine ⟨fun after => ?_, fun after _ writes => ?_, order ++ [tag], ?_, ?_⟩
      · have idle := none after
        cases idle
      · rw [none after] at writes
        cases writes
      · have more := filterMap_set_perm (f := wrote) (b := (tag, .written)) there rfl rfl
        exact (perm.append_right [tag]).trans more.symm
      · rw [replay_append, ← value, serial.current there]
  | @leave i tag there =>
      refine ⟨fun after => serial.current (writing_set after rfl rfl).2,
        fun after after' writes writes' => serial.alone (writing_set after rfl writes).2
          (writing_set after' rfl writes').2 writes writes', order, ?_, value⟩
      rwa [filterMap_set there rfl rfl]

end Cell

/-! ## Threads as calls -/

namespace World

variable {I : Iface} {τ σ β γ : Type} {view : Thread τ β → γ} {w : World I τ σ β}

/-- What is seen of the threads after a step of one of them. -/
theorem map_advance {i : Nat} {t : Thread τ β} {b : β} {store : σ} {event : Event I}
    (found : w.threads[i]? = some t) :
    (w.advance i b store event).threads.map view =
      (w.threads.map view).set i (view { t with body := b }) := by
  apply List.ext_getElem?
  intro j
  rw [List.getElem?_map, List.getElem?_set]
  by_cases same : i = j
  · subst same
    have bound := (List.getElem?_eq_some_iff.mp found).1
    rw [advance_self found, if_pos rfl, if_pos (by simpa using bound)]
    rfl
  · rw [advance_other (Ne.symm same), if_neg same, List.getElem?_map]

/-- What is seen of the threads, their settlement apart, after a change that starts some. -/
theorem map_change {start : τ → β} {c : Change τ σ} (unsettled : c.settle = none) :
    (w.change start c).threads.map view =
      w.threads.map view ++ c.spawn.map fun tag => view ⟨tag, start tag, false⟩ := by
  simp [change, unsettled]

end World

/-- Two lists give the same when they do at each place. -/
theorem filterMap_eq_of_places {α β γ : Type} {f : α → Option γ} {g : β → Option γ} {l : List α}
    {l' : List β} (length : l.length = l'.length)
    (same : ∀ {i : Nat} {a : α} {b : β}, l[i]? = some a → l'[i]? = some b → f a = g b) :
    l.filterMap f = l'.filterMap g := by
  induction l generalizing l' with
  | nil =>
      cases l' with
      | nil => rfl
      | cons b l' => cases length
  | cons a l ih =>
      cases l' with
      | nil => cases length
      | cons b l' =>
          have rest := ih (Nat.succ.inj length) fun {i _ _} first second =>
            @same (i + 1) _ _ first second
          have here : f a = g b := @same 0 _ _ rfl rfl
          rw [List.filterMap_cons, List.filterMap_cons, here, rest]

/-- What is seen of the threads is seen of their stages. -/
theorem Discipline.Refines.filterMap_eq {I : Iface} {τ σ α γ : Type} {D : Discipline I τ α}
    {w : World I τ σ (Prog I α)} {a : World I τ σ D.Stage} (refines : D.Refines w a)
    {f : Thread τ (Prog I α) → Option γ} {g : Thread τ D.Stage → Option γ}
    (same : ∀ t u, u.tag = t.tag → t.body.Follows (D.step t.tag) (D.ends t.tag) u.body →
      f t = g u) :
    w.threads.filterMap f = a.threads.filterMap g :=
  filterMap_eq_of_places refines.length.symm fun first second =>
    same _ _ (refines.follows first second).1 (refines.follows first second).2.2

end Effect
