import BirthHub.Data.SchemaKeeps

/-!
# Places in JSON values

A path leads from a value to one within it by keys and indices. What stands at a place is told by
its node: the keys of an object, the length of an array, or the value itself. Two values are alike
beside hidden keys when they have the same nodes at all places that are not under such a key.
-/

namespace Data.Json

/-! ## Paths and nodes -/

inductive Step
  | key (key : String)
  | index (index : Nat)
deriving DecidableEq

/-- The value that a step leads to. -/
def child : Step → Json → Option Json
  | .key key, .object members => members.lookup key
  | .index index, .array items => items[index]?
  | _, _ => none

/-- The value at the end of a path. -/
def atPath : List Step → Json → Option Json
  | [], v => some v
  | step :: path, v => (child step v).bind (atPath path)

inductive Node
  | object (keys : List String)
  | array (length : Nat)
  | leaf (v : Json)

def node : Json → Node
  | .object members => .object (members.map Prod.fst)
  | .array items => .array items.length
  | v => .leaf v

/-- The path does not lead under a hidden key. -/
def isOpen (hidden : String → Bool) (path : List Step) : Bool :=
  path.all fun
    | .key key => !hidden key
    | .index _ => true

/-- At every place that is not under a hidden key the values have the same node. -/
def AlikeBeside (hidden : String → Bool) (v w : Json) : Prop :=
  ∀ path, isOpen hidden path = true → (atPath path v).map node = (atPath path w).map node

variable {hidden : String → Bool} {v w : Json} {items items' : List Json}
  {members members' : List (String × Json)} {path : List Step} {step : Step}

theorem isOpen_cons : isOpen hidden (step :: path) = true ↔
    (∀ key, step = .key key → hidden key = false) ∧ isOpen hidden path = true := by
  unfold isOpen
  rw [List.all_cons, Bool.and_eq_true]
  cases step with
  | key key => simp
  | index index => simp

theorem IsValue.child (value : v.IsValue) (found : Json.child step v = some w) : w.IsValue := by
  cases v with
  | array items =>
      cases step with
      | key key => cases found
      | index i => exact AreValues.mem value (List.mem_of_getElem? found)
  | object members =>
      cases step with
      | key key => exact AreMembers.mem value.2 (mem_of_lookup found)
      | index i => cases found
  | null | bool | number | string => cases step <;> cases found

theorem AlikeBeside.node (alike : AlikeBeside hidden v w) : v.node = w.node :=
  Option.some.inj (alike [] rfl)

theorem AlikeBeside.child {v' w' : Json} (alike : AlikeBeside hidden v w) (step : Step)
    (clear : ∀ key, step = .key key → hidden key = false) (first : child step v = some v')
    (second : child step w = some w') : AlikeBeside hidden v' w' := by
  intro path rest
  have same := alike (step :: path) (isOpen_cons.mpr ⟨clear, rest⟩)
  rwa [atPath, atPath, first, second] at same

theorem AlikeBeside.items_alike (alike : AlikeBeside hidden (.array items) (.array items')) :
    List.Forall₂ (AlikeBeside hidden) items items' := by
  have lengths : items.length = items'.length := Node.array.inj alike.node
  refine List.forall₂_iff_get.mpr ⟨lengths, fun i first second => ?_⟩
  refine alike.child (.index i) (fun key same => by cases same) ?_ ?_
  · exact List.getElem?_eq_getElem first
  · exact List.getElem?_eq_getElem second

theorem AlikeBeside.members_alike (distinct : (members.map Prod.fst).Nodup)
    (alike : AlikeBeside hidden (.object members) (.object members')) :
    List.Forall₂ (fun m m' => m.1 = m'.1 ∧ (hidden m.1 = false → AlikeBeside hidden m.2 m'.2))
      members members' := by
  have keys : members.map Prod.fst = members'.map Prod.fst := Node.object.inj alike.node
  have distinct' := keys ▸ distinct
  have lengths : members.length = members'.length := by
    have same := congrArg List.length keys
    rwa [List.length_map, List.length_map] at same
  refine List.forall₂_iff_get.mpr ⟨lengths, fun i first second => ?_⟩
  have same : (members.get ⟨i, first⟩).1 = (members'.get ⟨i, second⟩).1 := by
    have at' := congrArg (·[i]?) keys
    simpa [first, second] using at'
  refine ⟨same, fun clear => ?_⟩
  refine alike.child (.key (members.get ⟨i, first⟩).1) (fun key found => ?_) ?_ ?_
  · cases found
    exact clear
  · exact (lookup_eq_some distinct).mpr (List.get_mem members ⟨i, first⟩)
  · rw [same]
    exact (lookup_eq_some distinct').mpr (List.get_mem members' ⟨i, second⟩)

end Data.Json
