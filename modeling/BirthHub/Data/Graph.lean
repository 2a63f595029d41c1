import Mathlib.Data.Fintype.Order
import Mathlib.Data.List.Chain
import Mathlib.Data.Set.Finite.Basic

/-!
# Cycles and topological orders

A relation on nodes is acyclic when no node leads back to itself. A closed path shows that it is
not; a list in which the successors of each node stand behind it shows that it is, as far as the
list goes. Over finitely many nodes one may reason from the predecessors of a node to the node.
-/

namespace Data

variable {α : Type} {R : α → α → Prop} {path nodes l : List α} {a b : α}

def IsAcyclic (R : α → α → Prop) : Prop := ∀ a, ¬ Relation.TransGen R a a

/-- A path of at least one step that ends where it starts. -/
structure IsCycle (R : α → α → Prop) (path : List α) : Prop where
  chain : path.IsChain R
  closed : path.head? = path.getLast?
  long : 2 ≤ path.length

theorem transGen_of_chain (chain : (a :: l).IsChain R) (inside : b ∈ l) :
    Relation.TransGen R a b := by
  induction l generalizing a with
  | nil => cases inside
  | cons c l ih =>
      obtain ⟨step, rest⟩ := List.isChain_cons_cons.mp chain
      rcases List.mem_cons.mp inside with rfl | later
      · exact .single step
      · exact .head step (ih rest later)

theorem IsCycle.not_acyclic (cycle : IsCycle R path) : ¬ IsAcyclic R := by
  intro acyclic
  obtain ⟨chain, closed, long⟩ := cycle
  cases path with
  | nil => cases long
  | cons a l =>
      have inside : a ∈ l := by
        rw [List.head?_cons] at closed
        have last := List.mem_of_getLast? closed.symm
        cases l with
        | nil => simp at long
        | cons c l =>
            rw [List.getLast?_cons_cons] at closed
            exact List.mem_of_getLast? closed.symm
      exact acyclic a (transGen_of_chain chain inside)

/-- Each node of the list is new, and its successors stand behind it. -/
inductive Finished (R : α → α → Prop) : List α → Prop
  | nil : Finished R []
  | cons {a : α} {l : List α} (fresh : a ∉ l) (next : ∀ b, R a b → b ∈ l) (rest : Finished R l) :
      Finished R (a :: l)

theorem Finished.successor (finished : Finished R l) (inside : a ∈ l) (step : R a b) : b ∈ l := by
  induction finished with
  | nil => cases inside
  | @cons x l fresh next rest ih =>
      rcases List.mem_cons.mp inside with rfl | later
      · exact List.mem_cons_of_mem _ (next b step)
      · exact List.mem_cons_of_mem _ (ih later)

theorem Finished.closed (finished : Finished R l) (inside : a ∈ l)
    (path : Relation.ReflTransGen R a b) : b ∈ l := by
  induction path with
  | refl => exact inside
  | tail _ step ih => exact finished.successor ih step

/-- No node of the list leads back to itself. -/
theorem Finished.irrefl (finished : Finished R l) (inside : a ∈ l) : ¬ Relation.TransGen R a a := by
  induction finished with
  | nil => cases inside
  | @cons x l fresh next rest ih =>
      rcases List.mem_cons.mp inside with rfl | later
      · intro cycle
        obtain ⟨b, step, path⟩ := Relation.TransGen.head'_iff.mp cycle
        exact fresh (rest.closed (next b step) path)
      · exact ih later

/-- Over the nodes of an acyclic relation, what holds of a node when it holds of its predecessors
holds of all. -/
theorem IsAcyclic.induction (acyclic : IsAcyclic R) (known : ∀ a b, R a b → a ∈ nodes)
    {P : α → Prop} (step : ∀ b ∈ nodes, (∀ a, R a b → P a) → P b) : ∀ b ∈ nodes, P b := by
  let before (x y : { x // x ∈ nodes }) : Prop := Relation.TransGen R x y
  have finite : Finite { x // x ∈ nodes } := nodes.finite_toSet
  have trans : IsTrans _ before := ⟨fun _ _ _ first second => first.trans second⟩
  have irrefl : Std.Irrefl before := ⟨fun x cycle => acyclic x cycle⟩
  have wellFounded : WellFounded before := Finite.wellFounded_of_trans_of_irrefl before
  intro b inside
  refine wellFounded.induction (C := fun x => P x) ⟨b, inside⟩ fun x ih => ?_
  exact step x x.2 fun a leads => ih ⟨a, known a x leads⟩ (.single leads)

theorem IsAcyclic.reaches (acyclic : IsAcyclic R) (known : ∀ a b, R a b → a ∈ nodes) {root : α}
    (only : ∀ b ∈ nodes, (∀ a, ¬ R a b) → b = root) :
    ∀ b ∈ nodes, Relation.ReflTransGen R root b := by
  refine acyclic.induction known fun b inside reached => ?_
  by_cases first : ∀ a, ¬ R a b
  · rw [only b inside first]
  · push Not at first
    obtain ⟨a, leads⟩ := first
    exact (reached a leads).tail leads

/-- The predecessors of each node of the list stand before it. -/
def IsTopological (R : α → α → Prop) (order : List α) : Prop :=
  ∀ before b after, order = before ++ b :: after → ∀ a, R a b → a ∈ before

theorem IsTopological.nil : IsTopological R [] := by
  intro before b after split
  simp at split

theorem IsTopological.concat (topological : IsTopological R l) (all : ∀ b, R b a → b ∈ l) :
    IsTopological R (l ++ [a]) := by
  intro before b after split c leads
  rcases List.eq_nil_or_concat' after with rfl | ⟨after, last, rfl⟩
  · obtain ⟨rfl, same⟩ := List.append_inj' split rfl
    cases same
    exact all c leads
  · rw [← List.cons_append, ← List.append_assoc] at split
    obtain ⟨same, _⟩ := List.append_inj' split rfl
    exact topological before b after same c leads

end Data
