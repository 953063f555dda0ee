/- Node mappings: which nodes the value of a field is written to, and how. -/

import WorkflowGraph.Action

set_option autoImplicit false
set_option relaxedAutoImplicit false

namespace WorkflowGraph

/-- The new elements of a list added to another one by one, each only once. -/
def appendNew {α : Type} [DecidableEq α] (old new : List α) : List α :=
  new.foldl (fun acc x => if x ∈ acc then acc else acc ++ [x]) old

/-- Widgets that a value is written to. The halves of a model pair can go to nodes of their own. -/
structure WidgetMapping where
  nodeId : Option NodeId
  nodeIds : List NodeId
  indices : List Nat
  field : Option String
  fields : List String
  nodeKind : Option String
  highNodeId : Option NodeId
  lowNodeId : Option NodeId

/-- Nodes that a value switches between two modes. -/
structure ToggleMapping where
  nodeId : Option NodeId
  nodeIds : List NodeId
  enabledMode : NodeMode
  disabledMode : NodeMode
  saveNodeId : Option NodeId

structure LoraMapping where
  highNodeId : NodeId
  lowNodeId : NodeId

/-- An axis of a two-dimensional widget. -/
inductive Axis where
  | x
  | y
deriving DecidableEq

/-- One axis of a two-dimensional widget. -/
structure VectorMapping where
  nodeId : NodeId
  axis : Axis
  indices : List Nat
  nodeKind : Option String

/-- How the value of a field becomes actions. -/
inductive Mapping where
  | widget (w : WidgetMapping)
  | toggle (t : ToggleMapping)
  | lora (l : LoraMapping)
  | vector (v : VectorMapping)
  /-- A kind of action that is not known, left out of the compilation. -/
  | unrecognized

namespace WidgetMapping

def targets (w : WidgetMapping) : List NodeId := appendNew w.nodeId.toList w.nodeIds

def names (w : WidgetMapping) : List String := appendNew w.field.toList w.fields

def hasPair (w : WidgetMapping) : Bool := w.highNodeId.isSome || w.lowNodeId.isSome

def half? (w : WidgetMapping) : NoiseVariant → Option NodeId
  | .high => w.highNodeId
  | .low => w.lowNodeId

def idSlot : Record.Slot (Option NodeId) := .named "node_id" (Record.nullable NodeId.read)
def idsSlot : Record.Slot (List NodeId) := .named "node_ids" (Record.list NodeId.read)
def indicesSlot : Record.Slot (List Nat) := .named "widget_indices" (Record.list Record.natural)
def fieldSlot : Record.Slot (Option String) := .named "field" (Record.nullable Record.text)
def fieldsSlot : Record.Slot (List String) := .named "fields" (Record.list Record.text)
def kindSlot : Record.Slot (Option String) := .named "node_type" (Record.nullable Record.text)
def highSlot : Record.Slot (Option NodeId) := .named "high_node_id" (Record.nullable NodeId.read)
def lowSlot : Record.Slot (Option NodeId) := .named "low_node_id" (Record.nullable NodeId.read)

def read : Record.Reader WidgetMapping :=
  Record.closed [idSlot.member, idsSlot.member, indicesSlot.member, fieldSlot.member,
      fieldsSlot.member, kindSlot.member, highSlot.member, lowSlot.member] fun doc => do
    return {
      nodeId := ← idSlot.optional doc
      nodeIds := ← idsSlot.listOr doc
      indices := ← indicesSlot.listOr doc
      field := ← fieldSlot.optional doc
      fields := ← fieldsSlot.listOr doc
      nodeKind := ← kindSlot.optional doc
      highNodeId := ← highSlot.optional doc
      lowNodeId := ← lowSlot.optional doc }

def members (w : WidgetMapping) : Object := [
  ("node_id", .ofNodeId? w.nodeId), ("node_ids", .ofNodeIds w.nodeIds),
  ("widget_indices", .ofNats w.indices), ("field", .ofText? w.field),
  ("fields", .ofTexts w.fields), ("node_type", .ofText? w.nodeKind),
  ("high_node_id", .ofNodeId? w.highNodeId), ("low_node_id", .ofNodeId? w.lowNodeId)]

end WidgetMapping

namespace ToggleMapping

def targets (t : ToggleMapping) : List NodeId := appendNew t.nodeId.toList t.nodeIds

def idSlot : Record.Slot (Option NodeId) := .named "node_id" (Record.nullable NodeId.read)
def idsSlot : Record.Slot (List NodeId) := .named "node_ids" (Record.list NodeId.read)
def enabledModeSlot : Record.Slot NodeMode := .named "enabled_mode" NodeMode.read
def disabledModeSlot : Record.Slot NodeMode := .named "disabled_mode" NodeMode.read
def saveSlot : Record.Slot (Option NodeId) :=
  ⟨["save_node_id", "save_node"], Record.nullable NodeId.read⟩

def read : Record.Reader ToggleMapping :=
  Record.closed [idSlot.member, idsSlot.member, enabledModeSlot.member, disabledModeSlot.member,
      saveSlot.member] fun doc => do
    return {
      nodeId := ← idSlot.optional doc
      nodeIds := ← idsSlot.listOr doc
      enabledMode := ← enabledModeSlot.orElse NodeMode.enabled doc
      disabledMode := ← disabledModeSlot.orElse NodeMode.bypassed doc
      saveNodeId := ← saveSlot.optional doc }

def members (t : ToggleMapping) : Object := [
  ("node_id", .ofNodeId? t.nodeId), ("node_ids", .ofNodeIds t.nodeIds),
  ("enabled_mode", t.enabledMode.toValue), ("disabled_mode", t.disabledMode.toValue),
  ("save_node_id", .ofNodeId? t.saveNodeId)]

end ToggleMapping

namespace LoraMapping

def highSlot : Record.Slot NodeId := ⟨["high_node_id", "high_noise_node_id"], NodeId.read⟩
def lowSlot : Record.Slot NodeId := ⟨["low_node_id", "low_noise_node_id"], NodeId.read⟩

def read : Record.Reader LoraMapping :=
  Record.closed [highSlot.member, lowSlot.member] fun doc => do
    return { highNodeId := ← highSlot.require doc, lowNodeId := ← lowSlot.require doc }

def members (l : LoraMapping) : Object :=
  [("high_node_id", l.highNodeId.toValue), ("low_node_id", l.lowNodeId.toValue)]

end LoraMapping

namespace Axis

def choices : List (String × Axis) := [("X", .x), ("x", .x), ("Y", .y), ("y", .y)]

def name : Axis → String
  | .x => "x"
  | .y => "y"

end Axis

namespace VectorMapping

def idSlot : Record.Slot NodeId := .named "node_id" NodeId.read
def axisSlot : Record.Slot Axis :=
  .named "vector_key" (Record.enumeration Axis.choices none saysNothing)
def indicesSlot : Record.Slot (List Nat) := .named "widget_indices" (Record.list Record.natural)
def kindSlot : Record.Slot (Option String) := .named "node_type" (Record.nullable Record.text)

def read : Record.Reader VectorMapping :=
  Record.closed [idSlot.member, axisSlot.member, indicesSlot.member, kindSlot.member]
    fun doc => do
      return {
        nodeId := ← idSlot.require doc
        axis := ← axisSlot.require doc
        indices := ← indicesSlot.listOr doc
        nodeKind := ← kindSlot.optional doc }

def members (v : VectorMapping) : Object := [
  ("node_id", v.nodeId.toValue), ("vector_key", .str v.axis.name),
  ("widget_indices", .ofNats v.indices), ("node_type", .ofText? v.nodeKind)]

end VectorMapping

namespace Mapping

def kind : Mapping → String
  | widget _ => "modify_widget"
  | toggle _ => "toggle_node_mode"
  | lora _ => "add_lora_pair"
  | vector _ => "modify_vector_widget"
  | unrecognized => "unrecognized"

/-- What stands beside a tag that is not known is ignored in an object; in a list there is nothing
to ignore. -/
def readUnrecognized : Record.Reader Mapping
  | .arr (_ :: _) => .error .unreadable
  | _ => .ok unrecognized

def read : Record.Reader Mapping :=
  Record.tagged "action_type" [
    ("modify_widget", fun v => (WidgetMapping.read v).map widget),
    ("toggle_node_mode", fun v => (ToggleMapping.read v).map toggle),
    ("add_lora_pair", fun v => (LoraMapping.read v).map lora),
    ("modify_vector_widget", fun v => (VectorMapping.read v).map vector)]
    (some readUnrecognized)

def members : Mapping → Object
  | widget w => w.members
  | toggle t => t.members
  | lora l => l.members
  | vector v => v.members
  | unrecognized => []

def toValue (m : Mapping) : Value := .obj (("action_type", .str m.kind) :: m.members)

end Mapping

abbrev Mappings := List (String × Mapping)

namespace Mappings

def read : Record.Reader Mappings := Record.table Mapping.read

def toValue (m : Mappings) : Value := .obj (m.map fun p => (p.1, p.2.toValue))

end Mappings

end WorkflowGraph
