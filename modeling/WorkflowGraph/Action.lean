/- Actions: single changes to a graph, and their documents. -/

import WorkflowGraph.Graph.Node
import WorkflowGraph.Noise

set_option autoImplicit false
set_option relaxedAutoImplicit false

namespace WorkflowGraph

/-- Overwrite widget values of a node: by position in a list, by name in an object or among the
inputs. The kind of node, if given, stands in for the node's own when numbers are made doubles. -/
structure WidgetWrite where
  nodeId : NodeId
  indices : List Nat
  names : List String
  value : Value
  nodeKind : Option String

/-- Switch nodes between two modes. The save node's widget `save_output` follows the switch. -/
structure ModeToggle where
  nodeIds : List NodeId
  enabled : Bool
  enabledMode : NodeMode
  disabledMode : NodeMode
  saveNodeId : Option NodeId

/-- Add an entry to the loader of one half of a model pair. Without a variant the path decides. -/
structure LoraEntry where
  highNodeId : NodeId
  lowNodeId : NodeId
  path : String
  strength : Double
  enabled : Bool
  variant : Option NoiseVariant

/-- Write the axes of a two-dimensional widget. -/
structure VectorWrite where
  nodeId : NodeId
  x : Option Value
  y : Option Value
  xIndices : List Nat
  yIndices : List Nat
  nodeKind : Option String

inductive Action where
  | modifyWidget (w : WidgetWrite)
  | toggleMode (t : ModeToggle)
  | addLora (l : LoraEntry)
  | modifyVector (v : VectorWrite)

namespace LoraEntry

def target (l : LoraEntry) : NodeId :=
  match l.variant.getD (NoiseVariant.ofPath l.path) with
  | .high => l.highNodeId
  | .low => l.lowNodeId

end LoraEntry

def ModeToggle.targetMode (t : ModeToggle) : NodeMode :=
  if t.enabled then t.enabledMode else t.disabledMode

def NoiseVariant.choices : List (String × NoiseVariant) := [("high", .high), ("low", .low)]

/-- Within an alternative both null and an empty object say nothing. -/
def saysNothing : Value → Bool
  | .null => true
  | .obj [] => true
  | _ => false

namespace Record.Slot

def listOr {α : Type} (s : Slot (List α)) (doc : Object) : Except Fault (List α) := s.orElse [] doc

def optional {α : Type} (s : Slot (Option α)) (doc : Object) : Except Fault (Option α) :=
  s.orElse none doc

end Record.Slot

def Record.present : Record.Reader (Option Value) := Record.nullable Record.any

namespace WidgetWrite

def idSlot : Record.Slot NodeId := .named "node_id" NodeId.read
def indicesSlot : Record.Slot (List Nat) := .named "widget_indices" (Record.list Record.natural)
def namesSlot : Record.Slot (List String) := .named "input_names" (Record.list Record.text)
def valueSlot : Record.Slot Value := .named "value" Record.any
def kindSlot : Record.Slot (Option String) := .named "node_type" (Record.nullable Record.text)

def read : Record.Reader WidgetWrite :=
  Record.closed [idSlot.member, indicesSlot.member, namesSlot.member, valueSlot.member,
      kindSlot.member] fun doc => do
    return {
      nodeId := ← idSlot.require doc
      indices := ← indicesSlot.listOr doc
      names := ← namesSlot.listOr doc
      value := ← valueSlot.require doc
      nodeKind := ← kindSlot.optional doc }

end WidgetWrite

namespace ModeToggle

def idsSlot : Record.Slot (List NodeId) := .named "node_ids" (Record.list NodeId.read)
def enabledSlot : Record.Slot Bool := .named "enabled" Record.flag
def enabledModeSlot : Record.Slot NodeMode := .named "enabled_mode" NodeMode.read
def disabledModeSlot : Record.Slot NodeMode := .named "disabled_mode" NodeMode.read
def saveSlot : Record.Slot (Option NodeId) := .named "save_node_id" (Record.nullable NodeId.read)

def read : Record.Reader ModeToggle :=
  Record.closed [idsSlot.member, enabledSlot.member, enabledModeSlot.member,
      disabledModeSlot.member, saveSlot.member] fun doc => do
    return {
      nodeIds := ← idsSlot.require doc
      enabled := ← enabledSlot.require doc
      enabledMode := ← enabledModeSlot.require doc
      disabledMode := ← disabledModeSlot.require doc
      saveNodeId := ← saveSlot.optional doc }

end ModeToggle

namespace LoraEntry

def highSlot : Record.Slot NodeId := .named "high_node_id" NodeId.read
def lowSlot : Record.Slot NodeId := .named "low_node_id" NodeId.read
def pathSlot : Record.Slot String := .named "lora_path" Record.text
def strengthSlot : Record.Slot Double := .named "strength" Record.double
def enabledSlot : Record.Slot Bool := .named "enabled" Record.flag
def variantSlot : Record.Slot (Option NoiseVariant) :=
  .named "variant" (Record.nullable (Record.enumeration NoiseVariant.choices none saysNothing))

def read : Record.Reader LoraEntry :=
  Record.closed [highSlot.member, lowSlot.member, pathSlot.member, strengthSlot.member,
      enabledSlot.member, variantSlot.member] fun doc => do
    return {
      highNodeId := ← highSlot.require doc
      lowNodeId := ← lowSlot.require doc
      path := ← pathSlot.require doc
      strength := ← strengthSlot.require doc
      enabled := ← enabledSlot.require doc
      variant := ← variantSlot.optional doc }

end LoraEntry

namespace VectorWrite

def idSlot : Record.Slot NodeId := .named "node_id" NodeId.read
def xSlot : Record.Slot (Option Value) := .named "x_value" Record.present
def ySlot : Record.Slot (Option Value) := .named "y_value" Record.present
def xIndicesSlot : Record.Slot (List Nat) := .named "x_indices" (Record.list Record.natural)
def yIndicesSlot : Record.Slot (List Nat) := .named "y_indices" (Record.list Record.natural)
def kindSlot : Record.Slot (Option String) := .named "node_type" (Record.nullable Record.text)

def read : Record.Reader VectorWrite :=
  Record.closed [idSlot.member, xSlot.member, ySlot.member, xIndicesSlot.member,
      yIndicesSlot.member, kindSlot.member] fun doc => do
    return {
      nodeId := ← idSlot.require doc
      x := ← xSlot.optional doc
      y := ← ySlot.optional doc
      xIndices := ← xIndicesSlot.listOr doc
      yIndices := ← yIndicesSlot.listOr doc
      nodeKind := ← kindSlot.optional doc }

end VectorWrite

namespace Value

def ofNats (ns : List Nat) : Value := .arr (ns.map ofNat)

def ofTexts (ss : List String) : Value := .arr (ss.map .str)

def ofText? : Option String → Value
  | some s => .str s
  | none => .null

def ofNodeIds (ids : List NodeId) : Value := .arr (ids.map NodeId.toValue)

def ofNodeId? : Option NodeId → Value
  | some id => id.toValue
  | none => .null

end Value

namespace Action

def kind : Action → String
  | modifyWidget _ => "modify_widget"
  | toggleMode _ => "toggle_node_mode"
  | addLora _ => "add_lora_pair"
  | modifyVector _ => "modify_vector_widget"

def targetMode? : Action → Option NodeMode
  | toggleMode t => some t.targetMode
  | _ => none

def read : Record.Reader Action :=
  Record.tagged "action" [
    ("modify_widget", fun v => (WidgetWrite.read v).map modifyWidget),
    ("toggle_node_mode", fun v => (ModeToggle.read v).map toggleMode),
    ("add_lora_pair", fun v => (LoraEntry.read v).map addLora),
    ("modify_vector_widget", fun v => (VectorWrite.read v).map modifyVector)] none

def members : Action → Object
  | modifyWidget w => [
      ("node_id", w.nodeId.toValue), ("widget_indices", .ofNats w.indices),
      ("input_names", .ofTexts w.names), ("value", w.value), ("node_type", .ofText? w.nodeKind)]
  | toggleMode t => [
      ("node_ids", .ofNodeIds t.nodeIds), ("enabled", .bool t.enabled),
      ("enabled_mode", t.enabledMode.toValue), ("disabled_mode", t.disabledMode.toValue),
      ("save_node_id", .ofNodeId? t.saveNodeId)]
  | addLora l => [
      ("high_node_id", l.highNodeId.toValue), ("low_node_id", l.lowNodeId.toValue),
      ("lora_path", .str l.path), ("strength", .ofDouble l.strength), ("enabled", .bool l.enabled),
      ("variant", .ofText? (l.variant.map NoiseVariant.name))]
  | modifyVector v => [
      ("node_id", v.nodeId.toValue), ("x_value", .ofOption v.x), ("y_value", .ofOption v.y),
      ("x_indices", .ofNats v.xIndices), ("y_indices", .ofNats v.yIndices),
      ("node_type", .ofText? v.nodeKind)]

def toValue (a : Action) : Value := .obj (("action", .str a.kind) :: a.members)

end Action

end WorkflowGraph
