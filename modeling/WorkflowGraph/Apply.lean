/- Applying actions to a graph, action by action, with a count of the writes that were left out. -/

import WorkflowGraph.Action
import WorkflowGraph.Graph.Basic

set_option autoImplicit false
set_option relaxedAutoImplicit false

/-!
A write that does not fit the graph (no such node, no such position, widget values of another shape)
is left out and counted, and the others go on. Applying a list of actions is a fold of the
application of one. One thing alone ends it early, without a result: an entry of the flat form that
needs a slot whose number is no 64-bit word.
-/

namespace WorkflowGraph

def doubleKinds : List String :=
  ["mxSlider", "mxSlider2D", "PrimitiveFloat", "FloatConstant", "easy float"]

/-- A value for a widget of a node of some kind: integers become doubles where only those fit. -/
def widgetValue (v : Value) (kind : String) : Value :=
  match v with
  | .num n => if kind ∈ doubleKinds then .ofDouble n.toDouble else v
  | _ => v

namespace LoraEntry

def widget (l : LoraEntry) : Value :=
  .obj [("on", .bool l.enabled), ("lora", .str l.path), ("strength", .ofDouble l.strength),
    ("strengthTwo", .null)]

def input (l : LoraEntry) : Value :=
  .obj [("on", .bool l.enabled), ("lora", .str l.path), ("strength", .ofDouble l.strength)]

end LoraEntry

namespace Node

/-- Write a value at positions of the widget list; positions beyond its end are left out. -/
def writeAt (v : Value) : List Nat → Node → Node × Nat
  | indices, n =>
    match n.widgets with
    | .arr items =>
      let written := indices.foldl (fun acc i => acc.set i v) items
      ({ n with widgets := .arr written }, (indices.filter fun i => items.length ≤ i).length)
    | _ => (n, indices.length)

/-- Write a value by position if the widget values are a list, by name if they are an object. -/
def writeWidget (w : WidgetWrite) (n : Node) : Node × Nat :=
  let v := widgetValue w.value (w.nodeKind.getD n.kind)
  match n.widgets with
  | .arr _ => if w.indices.isEmpty then (n, 1) else n.writeAt v w.indices
  | .obj members =>
    if w.names.isEmpty then (n, 1)
    else ({ n with widgets := .obj (w.names.foldl (fun acc k => Assoc.insert k v acc) members) }, 0)
  | _ => (n, 1)

/-- Let the widget `save_output` follow a switch, if the node has it. -/
def writeSave (enabled : Bool) (n : Node) : Node × Nat :=
  match n.widgets with
  | .obj members =>
    if Assoc.contains "save_output" members then
      ({ n with widgets := .obj (Assoc.insert "save_output" (.bool enabled) members) }, 0)
    else (n, 1)
  | _ => (n, 1)

/-- The number of widget values at the end of a loader's list that stay last. -/
def tailLength : Nat := 2

/-- Insert an entry before the tail of a loader's list, or at the end of a list shorter than the
tail. -/
def insertLora (l : LoraEntry) (n : Node) : Node × Nat :=
  match n.widgets with
  | .arr items =>
    let place := if tailLength ≤ items.length then items.length - tailLength else items.length
    ({ n with widgets := .arr (items.take place ++ l.widget :: items.drop place) }, 0)
  | _ => (n, 1)

/-- Write one axis: at its positions, and under its property if the node has the property. -/
def writeAxis (property : String) (v : Option Value) (indices : List Nat) (kind : String)
    (n : Node) : Node × Nat :=
  match v with
  | none => (n, 0)
  | some v =>
    let v := widgetValue v kind
    let (n, skipped) := n.writeAt v indices
    let properties := n.properties.map fun p =>
      if Assoc.contains property p then Assoc.insert property v p else p
    ({ n with properties := properties }, skipped)

def writeVector (w : VectorWrite) (n : Node) : Node × Nat :=
  let kind := w.nodeKind.getD n.kind
  let (n, a) := n.writeAxis "valueX" w.x w.xIndices kind
  let (n, b) := n.writeAxis "valueY" w.y w.yIndices kind
  (n, a + b)

end Node

namespace Canvas

/-- Change the last node with an id; none if there is no such node. -/
def changeLast? (id : NodeId) (f : Node → Node × Nat) : List Node → Option (List Node × Nat)
  | [] => none
  | n :: rest =>
    match changeLast? id f rest with
    | some (rest, skipped) => some (n :: rest, skipped)
    | none =>
      if n.id = id then
        let (n, skipped) := f n
        some (n :: rest, skipped)
      else none

/-- Change the node that an id stands for; a write to a missing node is left out. Of several nodes
with one id the last counts. -/
def change (id : NodeId) (f : Node → Node × Nat) (c : Canvas) : Canvas × Nat :=
  match changeLast? id f c.nodes with
  | some (nodes, skipped) => ({ c with nodes := nodes }, skipped)
  | none => (c, 1)

def setModes (mode : NodeMode) : List NodeId → Canvas → Canvas × Nat
  | [], c => (c, 0)
  | id :: rest, c =>
    let (c, a) := c.change id fun n => ({ n with mode := mode }, 0)
    let (c, b) := setModes mode rest c
    (c, a + b)

def applyAction (a : Action) (c : Canvas) : Canvas × Nat :=
  match a with
  | .modifyWidget w => c.change w.nodeId fun n => n.writeWidget w
  | .toggleMode t =>
    let (c, a) := setModes t.targetMode t.nodeIds c
    match t.saveNodeId with
    | none => (c, a)
    | some id =>
      let (c, b) := c.change id fun n => n.writeSave t.enabled
      (c, a + b)
  | .addLora l => c.change l.target fun n => n.insertLora l
  | .modifyVector v => c.change v.nodeId fun n => n.writeVector v

end Canvas

namespace ApiGraph

def slotBound : Nat := 18446744073709551616

/-- The number of a slot, if an input's name is that of a slot. -/
def slotOfName? (name : String) : Option Nat :=
  (Text.dropFirst? "lora_".toList name.toList).bind nat64OfText?

def largestSlot (inputs : Object) : Nat := ((Assoc.keys inputs).filterMap slotOfName?).foldl max 0

def nextSlot (inputs : Object) : Nat := largestSlot inputs + 1

def slotName (slot : Nat) : String := "lora_" ++ natText slot

/-- Change the node that an id stands for; a write to a missing node is left out. -/
def change (id : NodeId) (f : ApiNode → ApiNode × Nat) (g : ApiGraph) : ApiGraph × Nat :=
  match Assoc.get? id.key g.nodes with
  | some n => (⟨Assoc.insert id.key (f n).1 g.nodes⟩, (f n).2)
  | none => (g, 1)

def applyAction (a : Action) (g : ApiGraph) : ApiGraph × Nat :=
  match a with
  | .modifyWidget w => g.change w.nodeId fun n =>
    if w.names.isEmpty then (n, 1)
    else
      let v := widgetValue w.value (w.nodeKind.getD n.kind)
      ({ n with inputs := w.names.foldl (fun acc k => Assoc.insert k v acc) n.inputs }, 0)
  | .addLora l => g.change l.target fun n =>
    ({ n with inputs := Assoc.insert (slotName (nextSlot n.inputs)) l.input n.inputs }, 0)
  | .toggleMode _ => (g, 1)
  | .modifyVector _ => (g, 1)

/-- An action adds an entry, and the number of its slot would be no word. -/
def lacksSlot (a : Action) (g : ApiGraph) : Bool :=
  match a with
  | .addLora l => (g.node? l.target).any fun n => slotBound ≤ nextSlot n.inputs
  | _ => false

end ApiGraph

structure Tally where
  actions : Nat
  skipped : Nat
deriving DecidableEq

namespace Graph

def applyAction (a : Action) : Graph → Graph × Nat
  | canvas c =>
    let (c, skipped) := c.applyAction a
    (canvas c, skipped)
  | api g =>
    let (g, skipped) := g.applyAction a
    (api g, skipped)

def lacksSlot (a : Action) : Graph → Bool
  | canvas _ => false
  | api g => g.lacksSlot a

/-- One more action after those already applied, unless it lacks a slot. -/
def applyNext (s : Graph × Tally) (a : Action) : Option (Graph × Tally) :=
  if s.1.lacksSlot a then none
  else
    let (g, skipped) := s.1.applyAction a
    some (g, ⟨s.2.actions + 1, s.2.skipped + skipped⟩)

/-- Apply actions in order. There is no result if one of them lacks a slot. -/
def applyAll (template : Graph) (actions : List Action) : Option (Graph × Tally) :=
  actions.foldlM applyNext (template, ⟨0, 0⟩)

end Graph

end WorkflowGraph
