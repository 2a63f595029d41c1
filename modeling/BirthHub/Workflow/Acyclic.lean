import BirthHub.Data.Graph
import BirthHub.Workflow.Start

/-!
# Which graphs are accepted

`validateDag` accepts a graph exactly when it has nodes, their ids are not blank and different, its
edges join them, there is no cycle and one node has no incoming edge. The depth-first search finds
a cycle if there is one, the order of Kahn's algorithm has the source of each edge before its
target, and the other checks reject nothing that these have passed.
-/

namespace Workflow

open Data

/-! ## The search for a cycle -/

section Search

variable {adjacency : String → List String} {nodes : List String} {nodeId : String}
  {s s' : Search} {fuel : Nat}

/-- An edge of the graph. -/
abbrev Edge (adjacency : String → List String) (a b : String) : Prop := b ∈ adjacency a

/-- Between two calls of the search: the stack is a path, of the nodes that are being visited, and
what was visited is finished. -/
structure Searching (adjacency : String → List String) (nodes : List String) (s : Search) :
    Prop where
  path : s.stack.IsChain (Edge adjacency)
  nodup : s.stack.Nodup
  inside : ∀ x ∈ s.stack, x ∈ nodes
  visiting : ∀ x, x ∈ s.visiting ↔ x ∈ s.stack
  apart : ∀ x ∈ s.stack, x ∉ s.visited
  finished : Finished (Edge adjacency) s.visited

/-- How a call may end: with a cycle, or with the stack as it was and more nodes visited. -/
def Searched (adjacency : String → List String) (nodes : List String) (s : Search)
    (done : List String) : Option (List String) × Search → Prop
  | (some cycle, _) => IsCycle (Edge adjacency) cycle
  | (none, s') => Searching adjacency nodes s' ∧ s'.stack = s.stack ∧
      s.visited ⊆ s'.visited ∧ ∀ x ∈ done, x ∈ s'.visited

theorem idxOf_append {before after : List String} (fresh : nodeId ∉ before) :
    (before ++ nodeId :: after).idxOf? nodeId = some before.length := by
  induction before with
  | nil => simp [List.idxOf?_cons]
  | cons x before ih =>
      rw [List.mem_cons, not_or] at fresh
      rw [List.cons_append, List.idxOf?_cons, if_neg (by simpa using Ne.symm fresh.1), ih fresh.2]
      rfl

/-- The node is on the stack: what follows it there leads back to it. -/
theorem Searching.cycle (searching : Searching adjacency nodes s) (there : nodeId ∈ s.stack)
    (leads : ∀ last ∈ s.stack.getLast?, Edge adjacency last nodeId) :
    ∃ cycleStart, s.stack.idxOf? nodeId = some cycleStart ∧
      IsCycle (Edge adjacency) (s.stack.drop cycleStart ++ [nodeId]) := by
  obtain ⟨before, after, split⟩ := List.append_of_mem there
  have path := searching.path
  have nodup := searching.nodup
  rw [split] at path nodup leads ⊢
  have fresh : nodeId ∉ before := fun inside =>
    (List.nodup_append.mp nodup).2.2 nodeId inside nodeId List.mem_cons_self rfl
  refine ⟨before.length, idxOf_append fresh, ?_⟩
  rw [List.drop_left]
  refine ⟨?_, ?_, ?_⟩
  · refine List.isChain_append.mpr ⟨path.right_of_append, .singleton _, ?_⟩
    intro last isLast first isFirst
    cases isFirst
    refine leads last ?_
    rw [List.getLast?_append_of_ne_nil _ (List.cons_ne_nil _ _)]
    exact isLast
  · rw [List.getLast?_concat]
    rfl
  · simp

theorem Searching.enter (searching : Searching adjacency nodes s) (known : nodeId ∈ nodes)
    (fresh : nodeId ∉ s.stack) (unvisited : nodeId ∉ s.visited)
    (leads : ∀ last ∈ s.stack.getLast?, Edge adjacency last nodeId) :
    Searching adjacency nodes
      { s with visiting := nodeId :: s.visiting, stack := s.stack ++ [nodeId] } where
  path := by
    refine List.isChain_append.mpr ⟨searching.path, .singleton _, ?_⟩
    intro last isLast first isFirst
    cases isFirst
    exact leads last isLast
  nodup := by
    refine List.nodup_append.mpr ⟨searching.nodup, List.nodup_singleton _, ?_⟩
    rintro a inside b last rfl
    rw [List.mem_singleton.mp last] at inside
    exact fresh inside
  inside := by
    intro x inside
    rcases List.mem_append.mp inside with inside | last
    · exact searching.inside x inside
    · rw [List.mem_singleton.mp last]
      exact known
  visiting := by
    intro x
    rw [List.mem_cons, searching.visiting, List.mem_append, List.mem_singleton, or_comm]
  apart := by
    intro x inside
    rcases List.mem_append.mp inside with inside | last
    · exact searching.apart x inside
    · rw [List.mem_singleton.mp last]
      exact unvisited
  finished := searching.finished

/-- The node is left: it is visited, and the stack is as it was before. -/
theorem Searching.leave {stack : List String} (searching : Searching adjacency nodes s)
    (entered : s.stack = stack ++ [nodeId]) (done : ∀ x ∈ adjacency nodeId, x ∈ s.visited) :
    Searching adjacency nodes {
      visiting := s.visiting.filter (· ≠ nodeId)
      visited := nodeId :: s.visited
      stack := s.stack.dropLast } := by
  obtain ⟨path, nodup, inside, visiting, apart, finished⟩ := searching
  rw [entered] at path nodup inside visiting apart ⊢
  rw [List.dropLast_concat]
  have fresh : nodeId ∉ stack := fun there =>
    (List.nodup_append.mp nodup).2.2 nodeId there nodeId (List.mem_singleton_self _) rfl
  refine ⟨path.left_of_append, (List.nodup_append.mp nodup).1,
    fun x there => inside x (List.mem_append_left _ there), ?_, ?_, ?_⟩
  · intro x
    rw [List.mem_filter, visiting, List.mem_append, List.mem_singleton]
    by_cases same : x = nodeId
    · subst same
      simp [fresh]
    · simp [same]
  · intro x there
    rw [List.mem_cons, not_or]
    refine ⟨?_, apart x (List.mem_append_left _ there)⟩
    rintro rfl
    exact fresh there
  · exact .cons (apart nodeId (List.mem_append_right _ (List.mem_singleton_self _))) done finished

theorem visitTargets_searched (visit : String → Search → Option (List String) × Search)
    (targets : List String) (visits : ∀ target ∈ targets, ∀ s', Searching adjacency nodes s' → s'.stack = s.stack →
      Searched adjacency nodes s' [target] (visit target s'))
    (searching : Searching adjacency nodes s) :
    Searched adjacency nodes s targets (visitTargets visit targets s) := by
  induction targets generalizing s with
  | nil => exact ⟨searching, rfl, List.Subset.refl _, fun _ none => (List.not_mem_nil none).elim⟩
  | cons target targets ih =>
      have first := visits target List.mem_cons_self s searching rfl
      rw [visitTargets]
      cases visited : visit target s with
      | mk result s' =>
          rw [visited] at first
          cases result with
          | some cycle => exact first
          | none =>
              obtain ⟨searching', stack, grown, done⟩ := first
              have rest := ih (fun t inside s'' searching'' same =>
                visits t (List.mem_cons_of_mem _ inside) s'' searching'' (same.trans stack)) searching'
              dsimp only
              cases later : visitTargets visit targets s' with
              | mk result s'' =>
                  rw [later] at rest
                  cases result with
                  | some cycle => exact rest
                  | none =>
                      obtain ⟨searching'', stack', grown', done'⟩ := rest
                      refine ⟨searching'', stack'.trans stack, List.Subset.trans grown grown', ?_⟩
                      intro x inside
                      rcases List.mem_cons.mp inside with rfl | inside
                      · exact grown' (done x (List.mem_singleton_self _))
                      · exact done' x inside

/-- A call of the search, where the fuel is enough for the nodes that are not on the stack. -/
theorem getCyclePath_searched (closed : ∀ a ∈ nodes, ∀ b ∈ adjacency a, b ∈ nodes)
    (searching : Searching adjacency nodes s) (known : nodeId ∈ nodes)
    (leads : ∀ last ∈ s.stack.getLast?, Edge adjacency last nodeId)
    (enough : nodes.length < fuel + s.stack.length) :
    Searched adjacency nodes s [nodeId] (getCyclePath adjacency fuel nodeId s) := by
  induction fuel generalizing nodeId s with
  | zero =>
      -- the stack has more nodes than there are
      have few := (searching.nodup.subperm searching.inside).length_le
      omega
  | succ fuel ih =>
      rw [getCyclePath]
      split
      · rename_i visiting
        have there := (searching.visiting nodeId).mp (List.contains_iff_mem.mp visiting)
        obtain ⟨cycleStart, found, cycle⟩ := searching.cycle there leads
        rw [found]
        exact cycle
      · rename_i unvisiting
        have fresh : nodeId ∉ s.stack := fun there =>
          unvisiting (List.contains_iff_mem.mpr ((searching.visiting nodeId).mpr there))
        split
        · rename_i visited
          refine ⟨searching, rfl, List.Subset.refl _, fun x own => ?_⟩
          rw [List.mem_singleton.mp own]
          exact List.contains_iff_mem.mp visited
        · rename_i unvisited
          have unvisited : nodeId ∉ s.visited := fun there =>
            unvisited (List.contains_iff_mem.mpr there)
          have entered := searching.enter known fresh unvisited leads
          have below := visitTargets_searched (getCyclePath adjacency fuel) (adjacency nodeId)
            (fun target next s' searching' same => by
              refine ih searching' (closed nodeId known target next) ?_ ?_
              · rw [same, List.getLast?_concat]
                rintro last ⟨⟩
                exact next
              · rw [same, List.length_append, List.length_singleton]
                omega) entered
          dsimp only
          cases visited : visitTargets (getCyclePath adjacency fuel) (adjacency nodeId)
            { s with visiting := nodeId :: s.visiting, stack := s.stack ++ [nodeId] } with
          | mk result s' =>
              rw [visited] at below
              cases result with
              | some cycle => exact below
              | none =>
                  obtain ⟨searching', stack, grown, done⟩ := below
                  refine ⟨searching'.leave stack done, ?_, ?_, ?_⟩
                  · rw [stack, List.dropLast_concat]
                  · exact List.Subset.trans grown (List.subset_cons_self _ _)
                  · intro x own
                    rw [List.mem_singleton.mp own]
                    exact List.mem_cons_self

/-- The search over all nodes finds a cycle, or finishes them all. -/
theorem findCycle_searched (s : Search) {all : List String}
    (closed : ∀ a ∈ nodes, ∀ b ∈ adjacency a, b ∈ nodes) (known : all ⊆ nodes)
    (searching : Searching adjacency nodes { s with stack := [] })
    (enough : nodes.length < fuel) :
    (∃ cycle, findCycle adjacency fuel all s = some cycle ∧ IsCycle (Edge adjacency) cycle) ∨
    (findCycle adjacency fuel all s = none ∧ ∃ visited, Finished (Edge adjacency) visited ∧
      s.visited ⊆ visited ∧ all ⊆ visited) := by
  induction all generalizing s with
  | nil => exact .inr ⟨rfl, s.visited, searching.finished, List.Subset.refl _, List.nil_subset _⟩
  | cons nodeId all ih =>
      have first := getCyclePath_searched closed searching (known List.mem_cons_self)
        (fun last none => by cases none) (by simpa using enough)
      rw [findCycle]
      cases visited : getCyclePath adjacency fuel nodeId { s with stack := [] } with
      | mk result s' =>
          rw [visited] at first
          cases result with
          | some cycle => exact .inl ⟨cycle, rfl, first⟩
          | none =>
              obtain ⟨searching', stack, grown, done⟩ := first
              have clean : ({ s' with stack := [] } : Search) = s' := by
                cases s'
                cases stack
                rfl
              rcases ih s' (fun x inside => known (List.mem_cons_of_mem _ inside))
                (clean.symm ▸ searching') with ⟨cycle, found, isCycle⟩ | ⟨none, visited, rest⟩
              · exact .inl ⟨cycle, found, isCycle⟩
              · obtain ⟨finished, older, others⟩ := rest
                refine .inr ⟨none, visited, finished, List.Subset.trans grown older, ?_⟩
                refine List.cons_subset.mpr ⟨older (done nodeId (List.mem_singleton_self _)), others⟩

/-! ## The search from the root -/

/-- Of the edges from nodes not reached, those from one node are its targets. -/
theorem countP_unreached (edges : List DagEdge) {reachable : List String} {current : String}
    (fresh : current ∉ reachable) :
    edges.countP (fun edge => edge.source ∉ reachable) =
      edges.countP (fun edge => edge.source ∉ reachable ++ [current]) +
        (Workflow.adjacency edges current).length := by
  induction edges with
  | nil => rfl
  | cons edge edges ih =>
      rw [List.countP_cons, List.countP_cons, ih]
      unfold Workflow.adjacency
      rw [List.filter_cons]
      by_cases own : edge.source = current
      · rw [own]
        simp [fresh]
        omega
      · by_cases reached : edge.source ∈ reachable
        · simp [own, reached]
        · simp [own, reached]
          omega

/-- What the search from the root ends with: all that it starts with, and what that leads to. -/
theorem reach_complete {edges : List DagEdge} {stack reachable : List String}
    (named : ∀ edge ∈ edges, edge.target ≠ "") (stacked : "" ∉ stack)
    (pending : ∀ a ∈ reachable, ∀ b ∈ Workflow.adjacency edges a, b ∈ reachable ∨ b ∈ stack)
    (enough : stack.length + edges.countP (fun edge => edge.source ∉ reachable) < fuel) :
    (∀ a, a ∈ stack ∨ a ∈ reachable → a ∈ reach (Workflow.adjacency edges) fuel stack reachable) ∧
    ∀ a ∈ reach (Workflow.adjacency edges) fuel stack reachable, ∀ b ∈ Workflow.adjacency edges a,
      b ∈ reach (Workflow.adjacency edges) fuel stack reachable := by
  induction fuel generalizing stack reachable with
  | zero => omega
  | succ fuel ih =>
      rw [reach]
      split
      · rename_i empty
        obtain rfl := List.getLast?_eq_none_iff.mp empty
        refine ⟨fun a there => there.elim (fun none => (List.not_mem_nil none).elim) id, ?_⟩
        intro a there b next
        exact (pending a there b next).elim id fun none => (List.not_mem_nil none).elim
      · rename_i current top
        obtain ⟨below, rfl⟩ := List.getLast?_eq_some_iff.mp top
        rw [List.dropLast_concat]
        rw [List.length_append, List.length_singleton] at enough
        rw [List.mem_append, not_or] at stacked
        split
        · rename_i skipped
          have reached : current ∈ reachable := by
            rcases skipped with blank | reached
            · rw [blank] at stacked
              exact (stacked.2 (List.mem_singleton_self _)).elim
            · exact List.contains_iff_mem.mp reached
          obtain ⟨whole, closed⟩ := ih stacked.1 (fun a there b next => by
            rcases pending a there b next with inside | inside
            · exact .inl inside
            · rcases List.mem_append.mp inside with inside | own
              · exact .inr inside
              · rw [List.mem_singleton.mp own]
                exact .inl reached) (by omega)
          refine ⟨fun a there => ?_, closed⟩
          rcases there with there | there
          · rcases List.mem_append.mp there with there | own
            · exact whole a (.inl there)
            · rw [List.mem_singleton.mp own]
              exact whole current (.inr reached)
          · exact whole a (.inr there)
        · rename_i expanded
          rw [not_or] at expanded
          have fresh : current ∉ reachable := fun inside =>
            expanded.2 (List.contains_iff_mem.mpr inside)
          have fewer := countP_unreached edges fresh
          dsimp only
          have pushed := List.length_filter_le (fun next => !(reachable ++ [current]).contains next)
            (Workflow.adjacency edges current)
          have stacked' : "" ∉ below ++ (Workflow.adjacency edges current).filter
              fun next => !(reachable ++ [current]).contains next := by
            rw [List.mem_append, not_or]
            refine ⟨stacked.1, fun blank => ?_⟩
            obtain ⟨edge, known, target⟩ := List.mem_map.mp (List.mem_filter.mp blank).1
            exact named edge (List.mem_filter.mp known).1 target
          have pending' : ∀ a ∈ reachable ++ [current], ∀ b ∈ Workflow.adjacency edges a,
              b ∈ reachable ++ [current] ∨
                b ∈ below ++ (Workflow.adjacency edges current).filter
                  fun next => !(reachable ++ [current]).contains next := by
            intro a there b next
            rcases List.mem_append.mp there with there | own
            · rcases pending a there b next with inside | inside
              · exact .inl (List.mem_append_left _ inside)
              · rcases List.mem_append.mp inside with inside | own
                · exact .inr (List.mem_append_left _ inside)
                · exact .inl (List.mem_append_right _ own)
            · rw [List.mem_singleton.mp own] at next
              by_cases inside : b ∈ reachable ++ [current]
              · exact .inl inside
              · refine .inr (List.mem_append_right _ (List.mem_filter.mpr ⟨next, ?_⟩))
                rw [Bool.not_eq_true', ← Bool.not_eq_true, List.contains_iff_mem]
                exact inside
          obtain ⟨whole, closed⟩ := ih stacked' pending' (by rw [List.length_append]; omega)
          refine ⟨fun a there => ?_, closed⟩
          rcases there with there | there
          · rcases List.mem_append.mp there with there | own
            · exact whole a (.inl (List.mem_append_left _ there))
            · exact whole a (.inr (List.mem_append_right _ own))
          · exact whole a (.inr (List.mem_append_left _ there))

/-! ## Kahn's algorithm -/

theorem lowerIndegree_spec {targets : List String} {count : String → Int} (queue : List String)
    (covered : ∀ id, (targets.count id : Int) ≤ count id) :
    ∃ ready, (lowerIndegree targets count queue).1 = queue ++ ready ∧ ready.Nodup ∧
      (∀ id, (lowerIndegree targets count queue).2 id = count id - targets.count id) ∧
      ∀ id, id ∈ ready ↔ id ∈ targets ∧ count id - targets.count id = 0 := by
  induction targets generalizing count queue with
  | nil => exact ⟨[], by simp [lowerIndegree], .nil, fun id => by simp [lowerIndegree], by simp⟩
  | cons target targets ih =>
      rw [lowerIndegree]
      have lowered (id : String) : Function.update count target (count target - 1) id -
          (targets.count id : Int) = count id - ((target :: targets).count id : Int) := by
        by_cases same : id = target
        · subst same
          rw [Function.update_self, List.count_cons_self]
          push_cast
          ring
        · rw [Function.update_of_ne same, List.count_cons_of_ne (Ne.symm same)]
      have covered' (id : String) :
          (targets.count id : Int) ≤ Function.update count target (count target - 1) id := by
        have before := covered id
        have after := lowered id
        omega
      obtain ⟨ready, queued, nodup, counted, isReady⟩ := ih
        (if count target - 1 = 0 then queue ++ [target] else queue) covered'
      simp only [lowered] at counted isReady
      by_cases zero : count target - 1 = 0
      · -- the count is used up, so the target does not come again
        have last : target ∉ targets := by
          intro again
          have more := covered' target
          rw [Function.update_self, zero] at more
          have := List.count_pos_iff.mpr again
          omega
        rw [if_pos zero] at queued counted ⊢
        refine ⟨target :: ready, by rw [queued]; simp, ?_, counted, ?_⟩
        · exact List.nodup_cons.mpr ⟨fun there => last ((isReady target).mp there).1, nodup⟩
        · intro id
          rw [List.mem_cons, isReady, List.mem_cons]
          constructor
          · rintro (rfl | ⟨inside, done⟩)
            · refine ⟨.inl rfl, ?_⟩
              rw [List.count_cons_self, List.count_eq_zero_of_not_mem last]
              push_cast
              omega
            · exact ⟨.inr inside, done⟩
          · rintro ⟨rfl | inside, done⟩
            · exact .inl rfl
            · exact .inr ⟨inside, done⟩
      · rw [if_neg zero] at queued counted ⊢
        refine ⟨ready, queued, nodup, counted, ?_⟩
        intro id
        rw [isReady, List.mem_cons]
        constructor
        · rintro ⟨inside, done⟩
          exact ⟨.inr inside, done⟩
        · rintro ⟨rfl | inside, done⟩
          · refine ⟨?_, done⟩
            rw [List.count_cons_self] at done
            push_cast at done
            exact List.count_pos_iff.mp (by omega)
          · exact ⟨inside, done⟩

/-- The state of the loop: what is ordered or queued are the nodes whose edges come from ordered
nodes. -/
structure Sorting (edges : List DagEdge) (nodes queue : List String) (count : String → Int)
    (order : List String) : Prop where
  nodup : (order ++ queue).Nodup
  inside : ∀ x ∈ order ++ queue, x ∈ nodes
  counted : ∀ id, count id =
    (edges.countP fun edge => edge.target = id ∧ edge.source ∉ order : Nat)
  ready : ∀ id ∈ nodes, count id = 0 → id ∈ order ++ queue
  zero : ∀ id ∈ order ++ queue, count id = 0
  topological : IsTopological (Edge (Workflow.adjacency edges)) order

/-- Of the edges to a node from nodes that are not ordered, those from one node are counted by its
targets. -/
theorem countP_unordered (edges : List DagEdge) {order : List String} {nodeId : String}
    (fresh : nodeId ∉ order) (id : String) :
    edges.countP (fun edge => edge.target = id ∧ edge.source ∉ order) =
      edges.countP (fun edge => edge.target = id ∧ edge.source ∉ order ++ [nodeId]) +
        (Workflow.adjacency edges nodeId).count id := by
  induction edges with
  | nil => rfl
  | cons edge edges ih =>
      rw [List.countP_cons, List.countP_cons, ih]
      unfold Workflow.adjacency
      rw [List.filter_cons]
      by_cases own : edge.source = nodeId
      · by_cases same : edge.target = id
        · simp [own, same, fresh]
          omega
        · simp [own, same]
      · simp [own]
        omega

theorem Sorting.step {edges : List DagEdge} {queue order : List String} {count : String → Int}
    (joins : ∀ edge ∈ edges, edge.source ∈ nodes ∧ edge.target ∈ nodes)
    (sorting : Sorting edges nodes (nodeId :: queue) count order) :
    Sorting edges nodes
      (lowerIndegree (Workflow.adjacency edges nodeId) count queue).1
      (lowerIndegree (Workflow.adjacency edges nodeId) count queue).2 (order ++ [nodeId]) := by
  obtain ⟨nodup, inside, counted, ready, zero, topological⟩ := sorting
  have fresh : nodeId ∉ order := fun there =>
    (List.nodup_append.mp nodup).2.2 nodeId there nodeId List.mem_cons_self rfl
  have split (id : String) := countP_unordered edges fresh id
  have covered (id : String) : ((Workflow.adjacency edges nodeId).count id : Int) ≤ count id := by
    rw [counted, split]
    push_cast
    omega
  obtain ⟨added, queued, addedNodup, lowered, isAdded⟩ := lowerIndegree_spec queue covered
  have counted' (id : String) : count id - (Workflow.adjacency edges nodeId).count id =
      (edges.countP fun edge => edge.target = id ∧ edge.source ∉ order ++ [nodeId] : Nat) := by
    rw [counted, split]
    push_cast
    omega
  have new : ∀ id ∈ added, id ∉ order ++ nodeId :: queue := by
    intro id there old
    have some := List.count_pos_iff.mpr ((isAdded id).mp there).1
    have none := zero id old
    have bound := covered id
    omega
  have parts : order ++ [nodeId] ++ (queue ++ added) = (order ++ nodeId :: queue) ++ added := by simp
  rw [queued]
  refine ⟨?_, ?_, fun id => by rw [lowered, counted'], ?_, ?_, ?_⟩
  · rw [parts]
    refine List.nodup_append.mpr ⟨nodup, addedNodup, ?_⟩
    rintro a old b there rfl
    exact new a there old
  · rw [parts]
    intro x there
    rcases List.mem_append.mp there with old | there
    · exact inside x old
    · obtain ⟨edge, known, rfl⟩ := List.mem_map.mp ((isAdded x).mp there).1
      exact (joins edge (List.mem_filter.mp known).1).2
  · rw [parts]
    intro id known done
    rw [lowered] at done
    by_cases before : count id = 0
    · exact List.mem_append_left _ (ready id known before)
    · refine List.mem_append_right _ ((isAdded id).mpr ⟨List.count_pos_iff.mp ?_, done⟩)
      omega
  · rw [parts]
    intro id there
    rw [lowered]
    rcases List.mem_append.mp there with old | there
    · have none := zero id old
      have bound := covered id
      omega
    · exact ((isAdded id).mp there).2
  · refine topological.concat fun b leads => ?_
    obtain ⟨edge, known, target⟩ := List.mem_map.mp leads
    obtain ⟨known, source⟩ := List.mem_filter.mp known
    have none := zero nodeId (List.mem_append_right _ List.mem_cons_self)
    rw [counted, Nat.cast_eq_zero, List.countP_eq_zero] at none
    have ordered := none edge known
    rw [of_decide_eq_true source] at ordered
    simpa [target] using ordered

/-- With fuel for each node the loop ends when the queue is empty. -/
theorem sortLoop_sorting {edges : List DagEdge} {queue order : List String} {count : String → Int}
    (joins : ∀ edge ∈ edges, edge.source ∈ nodes ∧ edge.target ∈ nodes)
    (sorting : Sorting edges nodes queue count order) (enough : nodes.length < fuel + order.length) :
    ∃ count', Sorting edges nodes [] count'
      (sortLoop (Workflow.adjacency edges) fuel queue count order) := by
  induction fuel generalizing queue count order with
  | zero =>
      have few := (sorting.nodup.subperm sorting.inside).length_le
      rw [List.length_append] at few
      omega
  | succ fuel ih =>
      cases queue with
      | nil => exact ⟨count, sorting⟩
      | cons nodeId queue =>
          rw [sortLoop]
          refine ih (sorting.step joins) ?_
          rw [List.length_append, List.length_singleton]
          omega

/-- Without cycles every node is ordered. -/
theorem Sorting.perm {edges : List DagEdge} {order : List String} {count : String → Int}
    (joins : ∀ edge ∈ edges, edge.source ∈ nodes ∧ edge.target ∈ nodes) (distinct : nodes.Nodup)
    (acyclic : IsAcyclic (Edge (Workflow.adjacency edges)))
    (sorting : Sorting edges nodes [] count order) : order.Perm nodes := by
  have known (a b : String) (leads : Edge (Workflow.adjacency edges) a b) : a ∈ nodes := by
    obtain ⟨edge, there, _⟩ := List.mem_map.mp leads
    obtain ⟨there, source⟩ := List.mem_filter.mp there
    rw [← of_decide_eq_true source]
    exact (joins edge there).1
  have all : ∀ b ∈ nodes, b ∈ order := by
    refine acyclic.induction known fun b inside before => ?_
    have none : count b = 0 := by
      rw [sorting.counted, Nat.cast_eq_zero, List.countP_eq_zero]
      intro edge there open_
      obtain ⟨target, source⟩ := of_decide_eq_true open_
      refine source (before edge.source ?_)
      exact List.mem_map.mpr ⟨edge, List.mem_filter.mpr ⟨there, decide_eq_true rfl⟩, target⟩
    simpa using sorting.ready b inside none
  have nodup := sorting.nodup
  have inside := sorting.inside
  rw [List.append_nil] at nodup inside
  exact (List.perm_ext_iff_of_nodup nodup distinct).mpr fun x => ⟨inside x, all x⟩

end Search

/-! ## The verdict -/

section Verdict

variable {nodes : List DagNode} {edges : List DagEdge} {ids : List String} {root : String}
  {e : InvalidGraphError} {result : DagValidationResult}

/-- An edge of the list joins two nodes. -/
def Joined (edges : List DagEdge) (a b : String) : Prop :=
  ∃ edge ∈ edges, edge.source = a ∧ edge.target = b

theorem edge_eq_joined : Edge (adjacency edges) = Joined edges := by
  funext a b
  unfold Edge adjacency Joined
  simp [and_assoc]

/-- The graphs that are to be accepted. -/
structure ValidGraph (nodes : List DagNode) (edges : List DagEdge) : Prop where
  nonempty : nodes ≠ []
  named : ∀ node ∈ nodes, isBlank node.id = false
  distinct : (nodes.map (·.id)).Nodup
  joins : ∀ edge ∈ edges, edge.source ∈ nodes.map (·.id) ∧ edge.target ∈ nodes.map (·.id)
  acyclic : IsAcyclic (Joined edges)
  rooted : ∃ root ∈ nodes.map (·.id), (∀ edge ∈ edges, edge.target ≠ root) ∧
    ∀ id ∈ nodes.map (·.id), (∀ edge ∈ edges, edge.target ≠ id) → id = root

/-- What is returned for a graph: its only node without an incoming edge, and its nodes with the
source of each edge before its target. -/
structure IsOrderOf (nodes : List DagNode) (edges : List DagEdge) (result : DagValidationResult) :
    Prop where
  root : ∃ root ∈ nodes.map (·.id), result.rootNodeIds = [root] ∧
    (∀ edge ∈ edges, edge.target ≠ root) ∧
    ∀ id ∈ nodes.map (·.id), (∀ edge ∈ edges, edge.target ≠ id) → id = root
  perm : result.topologicalOrder.Perm (nodes.map (·.id))
  ordered : IsTopological (Joined edges) result.topologicalOrder

theorem collectNodes_complete {seen : List String} (named : ∀ node ∈ nodes, isBlank node.id = false)
    (distinct : (seen ++ nodes.map (·.id)).Nodup) :
    collectNodes nodes seen = .ok (seen ++ nodes.map (·.id)) := by
  induction nodes generalizing seen with
  | nil => simp [collectNodes]; rfl
  | cons node nodes ih =>
      have parts : seen ++ (node :: nodes).map (·.id) =
          (seen ++ [node.id]) ++ nodes.map (·.id) := by simp
      rw [parts] at distinct ⊢
      have fresh : node.id ∉ seen := by
        intro there
        exact (List.nodup_append.mp (List.nodup_append.mp distinct).1).2.2 _ there _
          (List.mem_singleton_self _) rfl
      rw [collectNodes, if_neg (by simp [named node List.mem_cons_self]), if_neg (by simpa using fresh)]
      exact ih (fun other inside => named other (List.mem_cons_of_mem _ inside)) distinct

theorem collectNodes_named {seen : List String} (ok : collectNodes nodes seen = .ok ids) :
    ∀ node ∈ nodes, isBlank node.id = false := by
  induction nodes generalizing seen with
  | nil => exact fun _ none => (List.not_mem_nil none).elim
  | cons node nodes ih =>
      rw [collectNodes] at ok
      split at ok
      · cases ok
      · rename_i named
        split at ok
        · cases ok
        · intro other inside
          rcases List.mem_cons.mp inside with rfl | inside
          · exact Bool.eq_false_iff.mpr named
          · exact ih ok other inside

theorem collectNodes_error {seen : List String} (threw : collectNodes nodes seen = .error e) :
    e.name = "InvalidGraphError" := by
  induction nodes generalizing seen with
  | nil => cases threw
  | cons node nodes ih =>
      rw [collectNodes] at threw
      split at threw
      · cases threw
        rfl
      · split at threw
        · cases threw
          rfl
        · exact ih threw

theorem checkEdges_complete
    (joins : ∀ edge ∈ edges, edge.source ∈ ids ∧ edge.target ∈ ids)
    (apart : ∀ edge ∈ edges, edge.source ≠ edge.target) : checkEdges ids edges = .ok () := by
  induction edges with
  | nil => rfl
  | cons edge edges ih =>
      obtain ⟨source, target⟩ := joins edge List.mem_cons_self
      have endpoints : assertEdgeEndpoints ids edge = .ok () := by
        rw [assertEdgeEndpoints, if_neg (by simpa using source), if_neg (by simpa using target)]
        rfl
      rw [checkEdges, endpoints]
      dsimp only
      rw [if_neg (apart edge List.mem_cons_self)]
      exact ih (fun other inside => joins other (List.mem_cons_of_mem _ inside))
        fun other inside => apart other (List.mem_cons_of_mem _ inside)

/-- The check of the edges throws a plain error, or reports an edge from a node to itself. -/
theorem checkEdges_error (threw : checkEdges ids edges = .error e) :
    e.name = "InvalidGraphError" ∨
      ∃ a, e = cyclicDependencyError [a, a] ∧ Joined edges a a := by
  induction edges with
  | nil => cases threw
  | cons edge edges ih =>
      rw [checkEdges] at threw
      split at threw
      · rename_i endpoints
        cases threw
        rw [assertEdgeEndpoints] at endpoints
        split at endpoints
        · cases endpoints
          exact .inl rfl
        · split at endpoints
          · cases endpoints
            exact .inl rfl
          · cases endpoints
      · split at threw
        · rename_i own
          cases threw
          refine .inr ⟨edge.source, by rw [← own], edge, List.mem_cons_self, rfl, own.symm⟩
        · rcases ih threw with plain | ⟨a, same, other, inside, ends⟩
          · exact .inl plain
          · exact .inr ⟨a, same, other, List.mem_cons_of_mem _ inside, ends⟩

theorem ends_apart (acyclic : IsAcyclic (Joined edges)) :
    ∀ edge ∈ edges, edge.source ≠ edge.target := by
  intro edge inside own
  exact acyclic edge.source (.single ⟨edge, inside, rfl, own.symm⟩)

theorem ValidGraph.reaches (valid : ValidGraph nodes edges)
    (first : ∀ edge ∈ edges, edge.target ≠ root) (known : root ∈ nodes.map (·.id)) :
    ∀ id ∈ nodes.map (·.id), Relation.ReflTransGen (Joined edges) root id := by
  obtain ⟨source, _, _, unique⟩ := valid.rooted
  obtain rfl := unique root known first
  refine valid.acyclic.reaches (fun a b leads => ?_) fun b inside none => ?_
  · obtain ⟨edge, there, rfl, _⟩ := leads
    exact (valid.joins edge there).1
  · exact unique b inside fun edge there target => none edge.source ⟨edge, there, rfl, target⟩

/-- In a valid graph with more than one node, each is at the end of an edge. -/
theorem ValidGraph.connected (valid : ValidGraph nodes edges) :
    assertNoIsolatedNodes (nodes.map (·.id)) edges = .ok () := by
  rw [assertNoIsolatedNodes]
  split
  · rfl
  · rename_i several
    have none : (nodes.map (·.id)).filter (fun id =>
        !edges.any fun edge => edge.source == id || edge.target == id) = [] := by
      rw [List.filter_eq_nil_iff]
      intro id inside isolated
      have alone : ∀ edge ∈ edges, edge.source ≠ id ∧ edge.target ≠ id := by
        simpa using isolated
      -- the node is the root, so it leads to some other node
      have reached := valid.reaches (fun edge there => (alone edge there).2) inside
      have only : ∀ other ∈ nodes.map (·.id), other = id := by
        intro other there
        rcases Relation.ReflTransGen.cases_head (reached other there) with same | ⟨next, step, _⟩
        · exact same.symm
        · obtain ⟨edge, known, source, _⟩ := step
          exact ((alone edge known).1 source).elim
      have few : (nodes.map (·.id)).Subperm [id] :=
        valid.distinct.subperm fun other there => List.mem_singleton.mpr (only other there)
      exact several few.length_le
    rw [none]
    rfl

theorem ValidGraph.assertConnected (valid : ValidGraph nodes edges)
    (first : ∀ edge ∈ edges, edge.target ≠ root) (known : root ∈ nodes.map (·.id)) :
    assertConnectedFromRoot root (nodes.map (·.id)) edges = .ok () := by
  have blank : "" ∉ nodes.map (·.id) := by
    intro there
    obtain ⟨node, inside, empty⟩ := List.mem_map.mp there
    have named := valid.named node inside
    rw [empty] at named
    revert named
    decide
  have named : ∀ edge ∈ edges, edge.target ≠ "" := fun edge inside empty =>
    blank (empty ▸ (valid.joins edge inside).2)
  have start : "" ∉ [root] := fun own => blank (List.mem_singleton.mp own ▸ known)
  have bound : edges.countP (fun edge => edge.source ∉ ([] : List String)) ≤ edges.length :=
    List.countP_le_length
  obtain ⟨whole, closed⟩ : (∀ a, a ∈ [root] ∨ a ∈ ([] : List String) →
      a ∈ reach (adjacency edges) (edges.length + 2) [root] []) ∧
      ∀ a ∈ reach (adjacency edges) (edges.length + 2) [root] [], ∀ b ∈ adjacency edges a,
        b ∈ reach (adjacency edges) (edges.length + 2) [root] [] := by
    refine reach_complete named start (fun a none => (List.not_mem_nil none).elim) ?_
    rw [List.length_singleton]
    omega
  have inside : ∀ a ∈ reach (adjacency edges) (edges.length + 2) [root] [],
      a ∈ nodes.map (·.id) := by
    refine reach_closed (fun a _ b next => ?_)
      (fun a own => List.mem_singleton.mp own ▸ known) fun a none => (List.not_mem_nil none).elim
    obtain ⟨edge, there, rfl⟩ := List.mem_map.mp next
    exact (valid.joins edge (List.mem_filter.mp there).1).2
  have all : ∀ a ∈ nodes.map (·.id), a ∈ reach (adjacency edges) (edges.length + 2) [root] [] := by
    intro a there
    have path := valid.reaches first known a there
    rw [← edge_eq_joined] at path
    clear there
    induction path with
    | refl => exact whole root (.inl (List.mem_singleton_self _))
    | tail _ step ih => exact closed _ ih _ step
  have perm := (List.perm_ext_iff_of_nodup (reach_nodup List.nodup_nil) valid.distinct).mpr
    fun a => ⟨inside a, all a⟩
  rw [assertConnectedFromRoot]
  rw [if_pos perm.length_eq]
  rfl

/-- The order that the validator returns for a valid graph. -/
theorem ValidGraph.sorted (valid : ValidGraph nodes edges) :
    ∃ order, topologicalSort (nodes.map (·.id)) edges = .ok order ∧
      order.Perm (nodes.map (·.id)) ∧ IsTopological (Joined edges) order := by
  have zero (id : String) : ((indegree edges id : Int) = 0) ↔ ∀ edge ∈ edges, edge.target ≠ id := by
    rw [Nat.cast_eq_zero]
    exact indegree_eq_zero
  have start : Sorting edges (nodes.map (·.id))
      ((nodes.map (·.id)).filter fun id => indegree edges id == 0) (fun id => indegree edges id) [] := by
    refine ⟨?_, ?_, ?_, ?_, ?_, .nil⟩
    · exact valid.distinct.filter _
    · exact fun x inside => (List.mem_filter.mp inside).1
    · intro id
      simp [indegree, List.countP_eq_length_filter]
    · intro id known none
      refine List.mem_filter.mpr ⟨known, ?_⟩
      exact beq_iff_eq.mpr (Nat.cast_eq_zero.mp none)
    · intro id inside
      exact Nat.cast_eq_zero.mpr (beq_iff_eq.mp (List.mem_filter.mp inside).2)
  have enough : (nodes.map (·.id)).length <
      (nodes.map (·.id)).length + edges.length + 1 + ([] : List String).length := by
    rw [List.length_nil]
    omega
  obtain ⟨count, sorting⟩ := sortLoop_sorting valid.joins start enough
  have acyclic := valid.acyclic
  rw [← edge_eq_joined] at acyclic ⊢
  have perm := sorting.perm valid.joins valid.distinct acyclic
  refine ⟨_, ?_, perm, sorting.topological⟩
  rw [topologicalSort]
  rw [if_pos perm.length_eq]
  rfl

theorem assertNoIsolatedNodes_error (threw : assertNoIsolatedNodes ids edges = .error e) :
    e.name = "InvalidGraphError" := by
  rw [assertNoIsolatedNodes] at threw
  split at threw
  · cases threw
  · dsimp only at threw
    split at threw
    · cases threw
    · cases threw
      rfl

/-- What a verdict on a graph may be. -/
def IsVerdict (nodes : List DagNode) (edges : List DagEdge) :
    Except InvalidGraphError DagValidationResult → Prop
  | .ok result => ValidGraph nodes edges ∧ IsOrderOf nodes edges result
  | .error e => ¬ ValidGraph nodes edges ∧ (e.name = "CyclicDependencyError" →
      ∃ cyclePath, e = cyclicDependencyError cyclePath ∧ IsCycle (Joined edges) cyclePath)

/-- A plain error on a graph that is not valid. -/
theorem isVerdict_plain (invalid : ¬ ValidGraph nodes edges) (plain : e.name = "InvalidGraphError") :
    IsVerdict nodes edges (.error e) := by
  refine ⟨invalid, fun cyclic => ?_⟩
  rw [plain] at cyclic
  exact absurd cyclic (by decide)

theorem validateDag_isVerdict (nodes : List DagNode) (edges : List DagEdge) :
    IsVerdict nodes edges (validateDag nodes edges) := by
  simp only [validateDag, bind, Except.bind, pure, Except.pure]
  split
  · rename_i empty
    exact isVerdict_plain (fun valid => valid.nonempty (List.isEmpty_iff.mp empty)) rfl
  rename_i given
  split
  · rename_i error collected
    refine isVerdict_plain (fun valid => ?_) (collectNodes_error collected)
    rw [collectNodes_complete valid.named (by simpa using valid.distinct)] at collected
    cases collected
  rename_i nodeIds collected
  have named := collectNodes_named collected
  obtain ⟨rfl, distinct⟩ := collectNodes_ok List.nodup_nil collected
  rw [List.nil_append] at distinct
  rw [List.nil_append]
  split
  · rename_i error threw
    have invalid : ¬ ValidGraph nodes edges := by
      intro valid
      rw [checkEdges_complete valid.joins (ends_apart valid.acyclic)] at threw
      cases threw
    rcases checkEdges_error threw with plain | ⟨a, same, own⟩
    · exact isVerdict_plain invalid plain
    · refine ⟨invalid, fun _ => ⟨[a, a], same, ?_, rfl, Nat.le_refl 2⟩⟩
      exact List.isChain_cons_cons.mpr ⟨own, .singleton a⟩
  rename_i checked
  have joins := checkEdges_ok checked
  split
  · rename_i error threw
    refine isVerdict_plain (fun valid => ?_) (assertNoIsolatedNodes_error threw)
    rw [valid.connected] at threw
    cases threw
  have closed : ∀ a ∈ nodes.map (·.id), ∀ b ∈ adjacency edges a, b ∈ nodes.map (·.id) := by
    intro a _ b next
    obtain ⟨edge, there, rfl⟩ := List.mem_map.mp next
    exact (joins edge (List.mem_filter.mp there).1).2
  have start : Searching (adjacency edges) (nodes.map (·.id)) ⟨[], [], []⟩ :=
    ⟨.nil, .nil, fun _ none => (List.not_mem_nil none).elim, fun _ => Iff.rfl,
      fun _ none => (List.not_mem_nil none).elim, .nil⟩
  have searched := findCycle_searched ⟨[], [], []⟩ closed (List.Subset.refl _) start (Nat.lt_succ_self _)
  rw [edge_eq_joined] at searched
  split
  · rename_i cycle found
    rcases searched with ⟨path, found', isCycle⟩ | ⟨none, _⟩
    · obtain rfl := Option.some.inj (found.symm.trans found')
      exact ⟨fun valid => isCycle.not_acyclic valid.acyclic, fun _ => ⟨cycle, rfl, isCycle⟩⟩
    · rw [none] at found
      cases found
  rename_i none
  have acyclic : IsAcyclic (Joined edges) := by
    rcases searched with ⟨path, found, _⟩ | ⟨_, visited, finished, _, all⟩
    · rw [found] at none
      cases none
    · intro a cycle
      obtain ⟨b, ⟨edge, there, rfl, _⟩, _⟩ := Relation.TransGen.head'_iff.mp cycle
      exact finished.irrefl (all (joins edge there).1) cycle
  have isRoot (id : String) :
      id ∈ (nodes.map (·.id)).filter (fun id => indegree edges id == 0) ↔
        id ∈ nodes.map (·.id) ∧ ∀ edge ∈ edges, edge.target ≠ id := by
    rw [List.mem_filter, beq_iff_eq, indegree_eq_zero]
  split
  · rename_i roots
    refine isVerdict_plain (fun valid => ?_) rfl
    obtain ⟨root, known, first, _⟩ := valid.rooted
    have there := (isRoot root).mpr ⟨known, first⟩
    rw [roots] at there
    cases there
  · rename_i root roots
    have only (id : String) : id ∈ [root] ↔
        id ∈ nodes.map (·.id) ∧ ∀ edge ∈ edges, edge.target ≠ id := roots ▸ isRoot id
    obtain ⟨known, first⟩ := (only root).mp (List.mem_singleton_self _)
    have unique : ∀ id ∈ nodes.map (·.id), (∀ edge ∈ edges, edge.target ≠ id) → id = root :=
      fun id inside alone => List.mem_singleton.mp ((only id).mpr ⟨inside, alone⟩)
    have valid : ValidGraph nodes edges :=
      ⟨fun empty => given (List.isEmpty_iff.mpr empty), named, distinct, joins, acyclic,
        root, known, first, unique⟩
    obtain ⟨order, sorted, perm, ordered⟩ := valid.sorted
    rw [valid.assertConnected first known]
    dsimp only
    rw [sorted]
    exact ⟨valid, ⟨root, known, rfl, first, unique⟩, perm, ordered⟩
  · rename_i several
    refine isVerdict_plain (fun valid => ?_) rfl
    obtain ⟨root, known, first, unique⟩ := valid.rooted
    refine several root (List.perm_singleton.mp ?_)
    refine (List.perm_ext_iff_of_nodup (distinct.filter _) (List.nodup_singleton root)).mpr fun id => ?_
    rw [isRoot id, List.mem_singleton]
    constructor
    · rintro ⟨inside, alone⟩
      exact unique id inside alone
    · rintro rfl
      exact ⟨known, first⟩

/-- **The validator accepts the valid graphs.** It returns for a graph if and only if the graph is
valid; then it returns its root and a topological order; and the path of a cyclic dependency is a
cycle of the graph. -/
theorem validateDag_correct (nodes : List DagNode) (edges : List DagEdge) :
    ((∃ result, validateDag nodes edges = .ok result) ↔ ValidGraph nodes edges) ∧
    (∀ result, validateDag nodes edges = .ok result → IsOrderOf nodes edges result) ∧
    ∀ e, validateDag nodes edges = .error e → e.name = "CyclicDependencyError" →
      ∃ cyclePath, e = cyclicDependencyError cyclePath ∧ IsCycle (Joined edges) cyclePath := by
  have verdict := validateDag_isVerdict nodes edges
  cases validated : validateDag nodes edges with
  | ok result =>
      rw [validated] at verdict
      refine ⟨⟨fun _ => verdict.1, fun _ => ⟨result, rfl⟩⟩, ?_, ?_⟩
      · rintro _ ⟨⟩
        exact verdict.2
      · rintro _ ⟨⟩
  | error e =>
      rw [validated] at verdict
      refine ⟨⟨?_, fun valid => (verdict.1 valid).elim⟩, ?_, ?_⟩
      · rintro ⟨_, ⟨⟩⟩
      · rintro _ ⟨⟩
      · rintro _ ⟨⟩
        exact verdict.2

end Verdict

end Workflow
