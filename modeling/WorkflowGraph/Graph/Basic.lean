/- Graphs in their two forms, their documents, and looking up nodes. -/

import WorkflowGraph.Error
import WorkflowGraph.Graph.Node
import WorkflowGraph.Json.Parser

set_option autoImplicit false
set_option relaxedAutoImplicit false

/-!
The canvas form lists its nodes and links; the flat form is an object with one member for each node.
Everything that is not interpreted is kept, so a graph that is read and written again has the
members of its document.
-/

namespace WorkflowGraph

/-- The form with a list of nodes, as an editor stores it. -/
structure Canvas where
  nodes : List Node
  links : List Value
  extra : Object

namespace Canvas

def nodesSlot : Record.Slot (List Node) := .named "nodes" (Record.list Node.read)
def linksSlot : Record.Slot (List Value) := .named "links" (Record.list Record.any)

def names : List String := ["nodes", "links"]

def read : Record.Reader Canvas :=
  Record.open_ [nodesSlot.member, linksSlot.member] fun doc => do
    return {
      nodes := ← nodesSlot.require doc
      links := ← linksSlot.orElse [] doc
      extra := doc.filter fun p => p.1 ∉ names }

def toValue (c : Canvas) : Value :=
  .obj ([("nodes", .arr (c.nodes.map Node.toValue)), ("links", .arr c.links)] ++ c.extra)

def node? (c : Canvas) (id : NodeId) : Option Node := c.nodes.find? fun n => n.id = id

end Canvas

/-- The flat form: nodes by key, in order. -/
structure ApiGraph where
  nodes : List (String × ApiNode)

namespace ApiGraph

def read : Record.Reader ApiGraph := fun v => (Record.table ApiNode.read v).map ApiGraph.mk

def toValue (g : ApiGraph) : Value := .obj (g.nodes.map fun p => (p.1, p.2.toValue))

def node? (g : ApiGraph) (id : NodeId) : Option ApiNode := Assoc.get? id.key g.nodes

end ApiGraph

/-- A node graph in either form. -/
inductive Graph where
  | canvas (c : Canvas)
  | api (g : ApiGraph)

namespace Graph

def form : Graph → String
  | canvas _ => "canvas"
  | api _ => "api"

def nodeCount : Graph → Nat
  | canvas c => c.nodes.length
  | api g => g.nodes.length

def canvasNode? (id : NodeId) : Graph → Option Node
  | canvas c => c.node? id
  | api _ => none

def apiNode? (id : NodeId) : Graph → Option ApiNode
  | canvas _ => none
  | api g => g.node? id

def kindName : Value → String
  | .null => "null"
  | .bool _ => "boolean"
  | .num _ => "number"
  | .str _ => "string"
  | .arr _ => "array"
  | .obj _ => "object"

/-- Whether a document is of the canvas form: its member `nodes` is a list. -/
def isCanvasDocument (o : Object) : Bool :=
  match Assoc.get? "nodes" o with
  | some (.arr _) => true
  | _ => false

def read (v : Value) : Except ParseError Graph :=
  match v with
  | .obj o =>
    if isCanvasDocument o then
      match Canvas.read v with
      | .ok c => .ok (canvas c)
      | .error fault => .error (.canvas fault)
    else
      match ApiGraph.read v with
      | .ok g => .ok (api g)
      | .error fault => .error (.api fault)
  | other => .error (.notAnObject (kindName other))

def toValue : Graph → Value
  | canvas c => c.toValue
  | api g => g.toValue

def parse (text : String) : Except ParseError Graph :=
  if Text.isBlankText text then .error .emptyTemplate
  else match Json.parse? text with
    | none => .error .templateJson
    | some v => read v

end Graph

end WorkflowGraph
