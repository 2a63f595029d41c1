import BirthHub.Data.Json

/-!
# The graph validator of the workflow editor

`validateDag` of `packages/workflows-core/src/parser/dagValidator.ts`: the checks on
nodes and edges in the order in which the source makes them, the depth-first search
for a cycle, the connectivity check and the topological order.

The recursion of `getCyclePath` and the two worklist loops carry a fuel argument; the
callers pass a bound on the number of rounds.
-/

namespace Workflow

open Data

inductive StepType
  | TRIGGER_WEBHOOK
  | TRIGGER_CRON
  | TRIGGER_EVENT
  | HTTP_REQUEST
  | CONDITION
  | CODE
  | TRANSFORMER
  | SEND_NOTIFICATION
  | AGENT_EXECUTE
  | AGENT_HANDOFF
  | CRM_UPSERT
  | WHATSAPP_SEND
  | GOOGLE_EVENT
  | MS_EVENT
  | AI_TEXT_EXTRACT
  | DELAY
deriving DecidableEq, Repr

def StepType.isTrigger : StepType → Bool
  | .TRIGGER_WEBHOOK | .TRIGGER_CRON | .TRIGGER_EVENT => true
  | _ => false

inductive Route
  | ALWAYS
  | IF_TRUE
  | IF_FALSE
  | ON_SUCCESS
  | ON_FAILURE
  | FALLBACK
deriving DecidableEq, Repr

structure DagNode where
  id : String
  isTrigger : Bool
  type : StepType

structure DagEdge where
  route : Route
  source : String
  target : String

structure InvalidGraphError where
  name : String := "InvalidGraphError"
  message : String
  details : Option Json := none

def ids (keys : List String) : Json := .array (keys.map .string)

/-- `CyclicDependencyError`. -/
def cyclicDependencyError (cyclePath : List String) : InvalidGraphError where
  name := "CyclicDependencyError"
  message := "Workflow graph contains a cycle: " ++ String.intercalate " -> " cyclePath
  details := some (.object [("cyclePath", ids cyclePath)])

/-- `!id.trim()`. -/
def isBlank (id : String) : Bool := trim id == ""

/-! ## Cycle search -/

/-- The sets and the stack that the search shares between its calls. -/
structure Search where
  visiting : List String
  visited : List String
  stack : List String

/-- `for (const target of targets)`, stopped by the first cycle. -/
def visitTargets (visit : String → Search → Option (List String) × Search) :
    List String → Search → Option (List String) × Search
  | [], s => (none, s)
  | target :: targets, s =>
      match visit target s with
      | (some cycle, s) => (some cycle, s)
      | (none, s) => visitTargets visit targets s

def getCyclePath (adjacency : String → List String) :
    Nat → String → Search → Option (List String) × Search
  | 0, _, s => (none, s)
  | fuel + 1, nodeId, s =>
      if s.visiting.contains nodeId then
        (some (match s.stack.idxOf? nodeId with
          | some cycleStart => s.stack.drop cycleStart ++ [nodeId]
          | none => [nodeId, nodeId]), s)
      else if s.visited.contains nodeId then (none, s)
      else
        let entered := { s with visiting := nodeId :: s.visiting, stack := s.stack ++ [nodeId] }
        match visitTargets (getCyclePath adjacency fuel) (adjacency nodeId) entered with
        | (some cycle, s) => (some cycle, s)
        | (none, s) =>
            (none, {
              visiting := s.visiting.filter (· ≠ nodeId)
              visited := nodeId :: s.visited
              stack := s.stack.dropLast })

/-- The search over all nodes: each starts with an empty stack and shares the sets. -/
def findCycle (adjacency : String → List String) (fuel : Nat) :
    List String → Search → Option (List String)
  | [], _ => none
  | nodeId :: nodes, s =>
      match getCyclePath adjacency fuel nodeId { s with stack := [] } with
      | (some cycle, _) => some cycle
      | (none, s) => findCycle adjacency fuel nodes s

/-! ## The other checks -/

def assertEdgeEndpoints (nodesById : List String) (edge : DagEdge) :
    Except InvalidGraphError Unit :=
  if !nodesById.contains edge.source then
    throw { message := s!"Transition source '{edge.source}' does not exist." }
  else if !nodesById.contains edge.target then
    throw { message := s!"Transition target '{edge.target}' does not exist." }
  else pure ()

/-- The loop over the nodes: the ids seen so far are `nodesById`. -/
def collectNodes : List DagNode → List String → Except InvalidGraphError (List String)
  | [], nodesById => pure nodesById
  | node :: nodes, nodesById =>
      if isBlank node.id then throw { message := "Node id cannot be empty." }
      else if nodesById.contains node.id then
        throw { message := s!"Duplicate node id '{node.id}' found." }
      else collectNodes nodes (nodesById ++ [node.id])

/-- The loop over the edges. -/
def checkEdges (nodesById : List String) : List DagEdge → Except InvalidGraphError Unit
  | [] => pure ()
  | edge :: edges =>
      match assertEdgeEndpoints nodesById edge with
      | .error e => throw e
      | .ok () =>
          if edge.source = edge.target then
            throw (cyclicDependencyError [edge.source, edge.target])
          else checkEdges nodesById edges

/-- What the edge loop leaves in `adjacency`. -/
def adjacency (edges : List DagEdge) (nodeId : String) : List String :=
  (edges.filter (·.source = nodeId)).map (·.target)

/-- What the edge loop leaves in `indegreeByNode`. -/
def indegree (edges : List DagEdge) (nodeId : String) : Nat :=
  (edges.filter (·.target = nodeId)).length

def assertNoIsolatedNodes (nodes : List String) (edges : List DagEdge) :
    Except InvalidGraphError Unit :=
  if nodes.length ≤ 1 then pure ()
  else
    let isolated := nodes.filter fun id =>
      !edges.any fun edge => edge.source == id || edge.target == id
    if isolated.isEmpty then pure ()
    else throw {
      message := "Workflow graph contains isolated nodes."
      details := some (.object [("isolated", ids isolated)]) }

/-- The worklist of `assertConnectedFromRoot`: the last element of `stack` is the top. -/
def reach (adjacency : String → List String) :
    Nat → List String → List String → List String
  | 0, _, reachable => reachable
  | fuel + 1, stack, reachable =>
      match stack.getLast? with
      | none => reachable
      | some current =>
          if current = "" ∨ reachable.contains current then
            reach adjacency fuel stack.dropLast reachable
          else
            let reachable := reachable ++ [current]
            let pushed := (adjacency current).filter fun next => !reachable.contains next
            reach adjacency fuel (stack.dropLast ++ pushed) reachable

def assertConnectedFromRoot (rootNodeId : String) (nodes : List String)
    (edges : List DagEdge) : Except InvalidGraphError Unit :=
  let reachable := reach (adjacency edges) (edges.length + 2) [rootNodeId] []
  if reachable.length = nodes.length then pure ()
  else throw {
    message := "Workflow graph has unreachable nodes from trigger root."
    details := some (.object [
      ("rootNodeId", .string rootNodeId),
      ("unreachable", ids (nodes.filter fun id => !reachable.contains id))]) }

/-- One edge of the order's inner loop: lower the count of `target` and queue it at
zero. -/
def lowerIndegree : List String → (String → Int) → List String → List String × (String → Int)
  | [], count, queue => (queue, count)
  | target :: targets, count, queue =>
      let nextValue := count target - 1
      lowerIndegree targets (Function.update count target nextValue)
        (if nextValue = 0 then queue ++ [target] else queue)

def sortLoop (adjacency : String → List String) :
    Nat → List String → (String → Int) → List String → List String
  | 0, _, _, order => order
  | _ + 1, [], _, order => order
  | fuel + 1, nodeId :: queue, count, order =>
      let (queue, count) := lowerIndegree (adjacency nodeId) count queue
      sortLoop adjacency fuel queue count (order ++ [nodeId])

def topologicalSort (nodes : List String) (edges : List DagEdge) :
    Except InvalidGraphError (List String) :=
  let queue := nodes.filter fun id => indegree edges id == 0
  let order := sortLoop (adjacency edges) (nodes.length + edges.length + 1) queue
    (fun id => indegree edges id) []
  if order.length = nodes.length then pure order
  else throw { message := "Graph is not a valid DAG for topological sorting." }

structure DagValidationResult where
  rootNodeIds : List String
  topologicalOrder : List String

/-- `validateDag(input)` with its default options. -/
def validateDag (nodes : List DagNode) (edges : List DagEdge) :
    Except InvalidGraphError DagValidationResult := do
  if nodes.isEmpty then
    throw { message := "Workflow graph must contain at least one node." }
  let nodeIds ← collectNodes nodes []
  checkEdges nodeIds edges
  assertNoIsolatedNodes nodeIds edges
  match findCycle (adjacency edges) (nodeIds.length + 1) nodeIds ⟨[], [], []⟩ with
  | some cycle => throw (cyclicDependencyError cycle)
  | none => pure ()
  match nodeIds.filter (fun id => indegree edges id == 0) with
  | [] => throw { message := "Workflow graph has no trigger/root node." }
  | [root] =>
      assertConnectedFromRoot root nodeIds edges
      let order ← topologicalSort nodeIds edges
      pure { rootNodeIds := [root], topologicalOrder := order }
  | rootNodeIds =>
      throw {
        message := "Workflow graph must contain exactly one trigger/root node."
        details := some (.object [("rootNodeIds", ids rootNodeIds)]) }

end Workflow
