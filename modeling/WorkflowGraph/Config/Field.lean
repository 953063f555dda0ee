/- Input fields of a config: types, conditions, direct bindings and documents. -/

import WorkflowGraph.Config.Mapping
import WorkflowGraph.Inputs.Coerce
import WorkflowGraph.Inputs.Flatten

set_option autoImplicit false
set_option relaxedAutoImplicit false

namespace WorkflowGraph

inductive FieldType where
  | text
  | textarea
  | slider
  | checkbox
  | seed
  | image
  | select
  | singleModel
  | modelPair
  | loraList
  /-- A type that is not known; its values are not looked at. -/
  | unknown
deriving DecidableEq

namespace FieldType

def choices : List (String × FieldType) := [
  ("text", .text), ("textarea", .textarea), ("slider", .slider), ("checkbox", .checkbox),
  ("seed", .seed), ("image", .image), ("select", .select), ("single_model", .singleModel),
  ("high_low_pair_model", .modelPair), ("high_low_pair_lora_list", .loraList)]

def name : FieldType → String
  | text => "text"
  | textarea => "textarea"
  | slider => "slider"
  | checkbox => "checkbox"
  | seed => "seed"
  | image => "image"
  | select => "select"
  | singleModel => "single_model"
  | modelPair => "high_low_pair_model"
  | loraList => "high_low_pair_lora_list"
  | unknown => "unknown"

/-- The shape of values when none is declared: models are kept whole. -/
def defaultShape : FieldType → Shape
  | singleModel => .opaqueObject
  | modelPair => .opaqueObject
  | loraList => .opaqueObject
  | _ => .scalar

def read : Record.Reader FieldType :=
  Record.enumeration choices (some .unknown) Value.isNull

end FieldType

/-- The condition that another field has a value. -/
structure Dependency where
  field : String
  value : Value

namespace Dependency

def fieldSlot : Record.Slot String := .named "field" Record.text
def valueSlot : Record.Slot Value := .named "value" Record.any

def read : Record.Reader Dependency :=
  Record.closed [fieldSlot.member, valueSlot.member] fun doc => do
    return { field := ← fieldSlot.require doc, value := ← valueSlot.require doc }

def toValue (d : Dependency) : Value := .obj [("field", .str d.field), ("value", d.value)]

end Dependency

/-- Nodes and widgets that a field names itself. -/
structure Binding where
  nodeId : Option NodeId
  nodeIds : List NodeId
  field : Option String
  fields : List String
  indices : List Nat

namespace Binding

/-- The mapping that a binding stands for, if it names both a node and a widget. -/
def mapping? (b : Binding) : Option Mapping :=
  let hasNode := b.nodeId.isSome || !b.nodeIds.isEmpty
  let hasWidget := !b.indices.isEmpty || b.field.isSome || !b.fields.isEmpty
  if hasNode && hasWidget then
    some (.widget ⟨b.nodeId, b.nodeIds, b.indices, b.field, b.fields, none, none, none⟩)
  else none

def idSlot : Record.Slot (Option NodeId) := .named "node_id" (Record.nullable NodeId.read)
def idsSlot : Record.Slot (List NodeId) := .named "node_ids" (Record.list NodeId.read)
def fieldSlot : Record.Slot (Option String) := .named "field" (Record.nullable Record.text)
def fieldsSlot : Record.Slot (List String) := .named "fields" (Record.list Record.text)
def indicesSlot : Record.Slot (List Nat) := .named "widget_indices" (Record.list Record.natural)

def readMembers (doc : Object) : Except Fault Binding := do
  Record.check [idSlot.member, idsSlot.member, fieldSlot.member, fieldsSlot.member,
    indicesSlot.member] [] doc
  return {
    nodeId := ← idSlot.optional doc
    nodeIds := ← idsSlot.listOr doc
    field := ← fieldSlot.optional doc
    fields := ← fieldsSlot.listOr doc
    indices := ← indicesSlot.listOr doc }

end Binding

structure Field where
  id : String
  /-- The group that the field is shown in. -/
  section_ : String
  type : FieldType
  label? : Option String
  description : String
  required : Bool
  default? : Option Value
  min? : Option Double
  max? : Option Double
  step? : Option Double
  /-- The most characters of a text. -/
  maxLength? : Option Nat
  /-- The most entries of a list, before the general limit. -/
  maxItems? : Option Nat
  options : List Value
  dependsOn? : Option Dependency
  shape? : Option Shape
  binding : Binding

namespace Field

def shape (f : Field) : Shape := f.shape?.getD f.type.defaultShape

/-- The label for messages; the id stands in for it. -/
def label (f : Field) : String := f.label?.getD f.id

/-- The text of one option: a text, a number, or the member `value` of an object. -/
def optionText? : Value → Option String
  | .str s => some s
  | .num n => some (Value.num n).compact
  | .obj members => (Assoc.get? "value" members).map fun
    | .str s => s
    | v => v.compact
  | _ => none

def allowed (f : Field) : List String := f.options.filterMap optionText?

def idSlot : Record.Slot String := .named "id" Record.text
def sectionSlot : Record.Slot String := .named "section" Record.text
def typeSlot : Record.Slot FieldType := .named "type" FieldType.read
def labelSlot : Record.Slot (Option String) := .named "label" (Record.nullable Record.text)
def descriptionSlot : Record.Slot String := .named "description" Record.text
def requiredSlot : Record.Slot Bool := .named "required" Record.flag
def defaultSlot : Record.Slot (Option Value) := .named "default" Record.present
def minSlot : Record.Slot (Option Double) := .named "min" (Record.nullable Record.double)
def maxSlot : Record.Slot (Option Double) := .named "max" (Record.nullable Record.double)
def stepSlot : Record.Slot (Option Double) := .named "step" (Record.nullable Record.double)
def maxLengthSlot : Record.Slot (Option Nat) :=
  .named "max_length" (Record.nullable Record.natural)
def maxItemsSlot : Record.Slot (Option Nat) := .named "max_items" (Record.nullable Record.natural)
def optionsSlot : Record.Slot (List Value) := .named "options" (Record.list Record.any)
def dependsOnSlot : Record.Slot (Option Dependency) :=
  .named "depends_on" (Record.nullable Dependency.read)
def shapeSlot : Record.Slot (Option Shape) :=
  .named "shape" (Record.nullable (Record.enumeration Shape.choices none Value.isNull))

/-- The members of the field's own; those of the binding are read after them. -/
def members : List Record.Member := [
  idSlot.member, sectionSlot.member, typeSlot.member, labelSlot.member, descriptionSlot.member,
  requiredSlot.member, defaultSlot.member, minSlot.member, maxSlot.member, stepSlot.member,
  maxLengthSlot.member, maxItemsSlot.member, optionsSlot.member, dependsOnSlot.member,
  shapeSlot.member]

def read : Record.Reader Field :=
  Record.open_ members fun doc => do
    return {
      id := ← idSlot.require doc
      section_ := ← sectionSlot.orElse "" doc
      type := ← typeSlot.require doc
      label? := ← labelSlot.optional doc
      description := ← descriptionSlot.orElse "" doc
      required := ← requiredSlot.orElse false doc
      default? := ← defaultSlot.optional doc
      min? := ← minSlot.optional doc
      max? := ← maxSlot.optional doc
      step? := ← stepSlot.optional doc
      maxLength? := ← maxLengthSlot.optional doc
      maxItems? := ← maxItemsSlot.optional doc
      options := ← optionsSlot.listOr doc
      dependsOn? := ← dependsOnSlot.optional doc
      shape? := ← shapeSlot.optional doc
      binding := ← Binding.readMembers doc }

def given {α : Type} (name : String) (write : α → Value) : Option α → Object
  | some x => [(name, write x)]
  | none => []

def givenList {α : Type} (name : String) (write : List α → Value) (xs : List α) : Object :=
  if xs.isEmpty then [] else [(name, write xs)]

def toValue (f : Field) : Value :=
  .obj ([("id", .str f.id), ("section", .str f.section_), ("type", .str f.type.name)] ++
    given "label" .str f.label? ++
    (if f.description = "" then [] else [("description", .str f.description)]) ++
    [("required", .bool f.required)] ++
    given "default" (fun v => v) f.default? ++
    given "min" .ofDouble f.min? ++
    given "max" .ofDouble f.max? ++
    given "step" .ofDouble f.step? ++
    given "max_length" .ofNat f.maxLength? ++
    given "max_items" .ofNat f.maxItems? ++
    givenList "options" .arr f.options ++
    given "depends_on" Dependency.toValue f.dependsOn? ++
    given "shape" (fun s => .str s.name) f.shape? ++
    given "node_id" NodeId.toValue f.binding.nodeId ++
    givenList "node_ids" .ofNodeIds f.binding.nodeIds ++
    given "field" .str f.binding.field ++
    givenList "fields" .ofTexts f.binding.fields ++
    givenList "widget_indices" .ofNats f.binding.indices)

def same (f g : Field) : Bool := f.toValue.same g.toValue

end Field

structure Output where
  id : String
  type : String
  label? : Option String
  nodeId : Option NodeId
  extra : Object

namespace Output

def idSlot : Record.Slot String := .named "id" Record.text
def typeSlot : Record.Slot String := .named "type" Record.text
def labelSlot : Record.Slot (Option String) := .named "label" (Record.nullable Record.text)
def nodeIdSlot : Record.Slot (Option NodeId) := .named "node_id" (Record.nullable NodeId.read)

def names : List String := ["id", "type", "label", "node_id"]

def read : Record.Reader Output :=
  Record.open_ [idSlot.member, typeSlot.member, labelSlot.member, nodeIdSlot.member]
    fun doc => do
      return {
        id := ← idSlot.require doc
        type := ← typeSlot.orElse "" doc
        label? := ← labelSlot.optional doc
        nodeId := ← nodeIdSlot.optional doc
        extra := doc.filter fun p => p.1 ∉ names }

def toValue (o : Output) : Value :=
  .obj ([("id", .str o.id), ("type", .str o.type)] ++ Field.given "label" .str o.label? ++
    Field.given "node_id" NodeId.toValue o.nodeId ++ o.extra)

end Output

end WorkflowGraph
