/- Flattening inputs that are grouped by sections into one map by field id. -/

import WorkflowGraph.Json.Value

set_option autoImplicit false
set_option relaxedAutoImplicit false

/-!
Inputs may come in sections or flat, and both mean the same map from field ids to values. The map is
that of the leaves, visited depth first in the order of the document: a field id stands where it
came first and has the value that came last.
-/

namespace WorkflowGraph

/-- How a value is treated when inputs are flattened. -/
inductive Shape where
  | scalar
  /-- An object that groups further fields. -/
  | section
  /-- A structured value that is kept whole. -/
  | opaqueObject
deriving DecidableEq

namespace Shape

def name : Shape → String
  | .scalar => "scalar"
  | .section => "section"
  | .opaqueObject => "opaque_object"

def choices : List (String × Shape) :=
  [("scalar", .scalar), ("section", .section), ("opaque_object", .opaqueObject)]

end Shape

/-- Members that mark an object as a value rather than a section. -/
def valueMarkers : List String := ["high_noise", "low_noise", "path", "strength", "enabled"]

def isStructured (members : Object) : Bool :=
  valueMarkers.any fun m => Assoc.contains m members

/-- Whether an object under a key is a section. Declared keys are what they are declared; without a
declaration an object is a section unless it is empty or marked as a value. -/
def opens (shapeOf : String → Option Shape) (key : String) (members : Object) : Bool :=
  match shapeOf key with
  | some .section => true
  | some _ => false
  | none => !members.isEmpty && !isStructured members

mutual

def leaves (shapeOf : String → Option Shape) : List (String × Value) → List (String × Value)
  | [] => []
  | (key, v) :: rest => leavesOf shapeOf key v ++ leaves shapeOf rest

/-- The leaves of one member: those of a section, or the member itself. -/
def leavesOf (shapeOf : String → Option Shape) (key : String) : Value → List (String × Value)
  | .obj members =>
    if opens shapeOf key members then leaves shapeOf members else [(key, .obj members)]
  | v => [(key, v)]

end

def flattenDeclared (shapeOf : String → Option Shape) (inputs : Object) : Object :=
  Assoc.ofList (leaves shapeOf inputs)

def flatten (inputs : Object) : Object := flattenDeclared (fun _ => none) inputs

end WorkflowGraph
