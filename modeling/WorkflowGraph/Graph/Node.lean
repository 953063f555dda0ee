/- Node ids and execution modes, and the nodes of the two forms of graph. -/

import WorkflowGraph.Record
import WorkflowGraph.Text.Blank

set_option autoImplicit false
set_option relaxedAutoImplicit false

namespace WorkflowGraph

/-- The key of a node within a graph: an integer of 64 bits. -/
structure NodeId where
  val : Int
  inRange : InInt64 val
deriving DecidableEq

namespace NodeId

def ofInt? (i : Int) : Option NodeId := if h : InInt64 i then some ⟨i, h⟩ else none

theorem fits (id : NodeId) : FitsNumber id.val := by
  have h := id.inRange
  simp only [InInt64, FitsNumber] at *
  omega

/-- The id as a key of the form whose nodes are members of one object. -/
def key (id : NodeId) : String := intText id.val

def toValue (id : NodeId) : Value := .num (.int id.val id.fits)

/-- An id is read from an integer, or from a text that spells one between blanks. -/
def read : Record.Reader NodeId
  | .num n => match n.int64?.bind ofInt? with
    | some id => .ok id
    | none => .error .unreadable
  | .str s => match (int64OfText? (Text.trimChars s.toList)).bind ofInt? with
    | some id => .ok id
    | none => .error (.invalidNodeId s)
  | _ => .error .unreadable

private theorem ofInt?_val (id : NodeId) : ofInt? id.val = some id := by
  simp [ofInt?, id.inRange]

theorem read_toValue (id : NodeId) : read id.toValue = .ok id := by
  simp [read, toValue, Number.int64?, id.inRange, ofInt?_val]

end NodeId

/-- The execution state of a node: a code below 256. -/
structure NodeMode where
  code : Fin 256
deriving DecidableEq

namespace NodeMode

def enabled : NodeMode := ⟨0⟩

/-- The node is left out and its inputs pass through. -/
def bypassed : NodeMode := ⟨2⟩

def muted : NodeMode := ⟨4⟩

def disabling? (i : Int) : Option NodeMode :=
  if i = 2 then some bypassed else if i = 4 then some muted else none

def toValue (m : NodeMode) : Value := Value.ofNat m.code.val

def read : Record.Reader NodeMode := fun v => do
  let n ← Record.natural v
  if h : n < 256 then return ⟨⟨n, h⟩⟩ else .error .unreadable

theorem read_eq (v : Value) :
    read v = (Record.natural v).bind fun n => if h : n < 256 then .ok ⟨⟨n, h⟩⟩
      else .error .unreadable := rfl

theorem read_toValue (m : NodeMode) : read m.toValue = .ok m := by
  obtain ⟨⟨n, h⟩⟩ := m
  have word : InNat64 (n : Int) := ⟨Int.natCast_nonneg n, by omega⟩
  rw [read_eq, toValue, Record.natural_ofNat word]
  exact dif_pos h

end NodeMode

/-- A node of the canvas form. The widget values are a list as a rule; some kinds of node keep an
object. What the editor stores beside is kept as it is. -/
structure Node where
  id : NodeId
  kind : String
  mode : NodeMode
  widgets : Value
  properties : Option Object
  extra : Object

namespace Node

def widgetCount (n : Node) : Nat :=
  match n.widgets with
  | .arr items => items.length
  | _ => 0

def idSlot : Record.Slot NodeId := .named "id" NodeId.read
def kindSlot : Record.Slot String := .named "type" Record.text
def modeSlot : Record.Slot NodeMode := .named "mode" NodeMode.read
def widgetsSlot : Record.Slot Value := .named "widgets_values" Record.any
def propertiesSlot : Record.Slot (Option Object) :=
  .named "properties" (Record.nullable Record.object)

def names : List String := ["id", "type", "mode", "widgets_values", "properties"]

def read : Record.Reader Node :=
  Record.open_
    [idSlot.member, kindSlot.member, modeSlot.member, widgetsSlot.member, propertiesSlot.member]
    fun doc => do
      return {
        id := ← idSlot.require doc
        kind := ← kindSlot.require doc
        mode := ← modeSlot.orElse NodeMode.enabled doc
        widgets := ← widgetsSlot.orElse .null doc
        properties := ← propertiesSlot.orElse none doc
        extra := doc.filter fun p => p.1 ∉ names }

/-- The mode is always written; null widget values and absent properties are not. -/
def toValue (n : Node) : Value :=
  .obj ([("id", n.id.toValue), ("type", .str n.kind), ("mode", n.mode.toValue)] ++
    (if n.widgets.isNull then [] else [("widgets_values", n.widgets)]) ++
    (match n.properties with | some p => [("properties", .obj p)] | none => []) ++
    n.extra)

end Node

/-- A node of the form whose nodes are members of one object. -/
structure ApiNode where
  kind : String
  inputs : Object
  extra : Object

namespace ApiNode

def kindSlot : Record.Slot String := .named "class_type" Record.text
def inputsSlot : Record.Slot Object := .named "inputs" Record.object

def names : List String := ["class_type", "inputs"]

def read : Record.Reader ApiNode :=
  Record.open_ [kindSlot.member, inputsSlot.member] fun doc => do
    return {
      kind := ← kindSlot.require doc
      inputs := ← inputsSlot.orElse [] doc
      extra := doc.filter fun p => p.1 ∉ names }

def toValue (n : ApiNode) : Value :=
  .obj ([("class_type", .str n.kind), ("inputs", .obj n.inputs)] ++ n.extra)

end ApiNode

end WorkflowGraph
