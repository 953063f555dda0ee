/- Workflow configs: fields and mappings together, and their documents. -/

import WorkflowGraph.Config.Field

set_option autoImplicit false
set_option relaxedAutoImplicit false

namespace WorkflowGraph

/-- A workflow config: the inputs it declares and the nodes that they are written to. -/
structure Config where
  /-- The identifier; empty when the document has none. -/
  id : String
  name : String
  version : String
  description : String
  category : String
  /-- The graph template, relative to the directory of templates. -/
  workflowFile : String
  inputs : List Field
  outputs : List Output
  /-- Hints for a user interface, kept as they are. -/
  layout : Value
  mappings : Mappings

namespace Config

def defaultVersion : String := "1.0"

/-- A version: a text, or the text of a number; null is the default. -/
def readVersion : Record.Reader String
  | .str s => .ok s
  | .num n => .ok (Value.num n).compact
  | .null => .ok defaultVersion
  | v => .error (.invalidVersion v)

def idSlot : Record.Slot String := .named "id" Record.text
def nameSlot : Record.Slot String := .named "name" Record.text
def versionSlot : Record.Slot String := .named "version" readVersion
def descriptionSlot : Record.Slot String := .named "description" Record.text
def categorySlot : Record.Slot String := .named "category" Record.text
def workflowFileSlot : Record.Slot String := .named "workflow_file" Record.text
def inputsSlot : Record.Slot (List Field) := .named "inputs" (Record.list Field.read)
def outputsSlot : Record.Slot (List Output) := .named "outputs" (Record.list Output.read)
def layoutSlot : Record.Slot Value := .named "layout" Record.any
def mappingsSlot : Record.Slot Mappings := .named "node_mapping" Mappings.read

def members : List Record.Member := [
  idSlot.member, nameSlot.member, versionSlot.member, descriptionSlot.member, categorySlot.member,
  workflowFileSlot.member, inputsSlot.member, outputsSlot.member, layoutSlot.member,
  mappingsSlot.member]

def read : Record.Reader Config :=
  Record.closed members fun doc => do
    return {
      id := ← idSlot.orElse "" doc
      name := ← nameSlot.require doc
      version := ← versionSlot.orElse defaultVersion doc
      description := ← descriptionSlot.orElse "" doc
      category := ← categorySlot.orElse "" doc
      workflowFile := ← workflowFileSlot.require doc
      inputs := ← inputsSlot.listOr doc
      outputs := ← outputsSlot.listOr doc
      layout := ← layoutSlot.orElse .null doc
      mappings := ← mappingsSlot.listOr doc }

def toValue (c : Config) : Value :=
  .obj ([("id", .str c.id), ("name", .str c.name), ("version", .str c.version),
    ("description", .str c.description), ("category", .str c.category),
    ("workflow_file", .str c.workflowFile), ("inputs", .arr (c.inputs.map Field.toValue)),
    ("outputs", .arr (c.outputs.map Output.toValue))] ++
    (if c.layout.isNull then [] else [("layout", c.layout)]) ++
    [("node_mapping", c.mappings.toValue)])

def field? (c : Config) (id : String) : Option Field := c.inputs.find? fun f => f.id = id

def shapeOf (c : Config) (id : String) : Option Shape := (c.field? id).map Field.shape

def flatten (c : Config) (inputs : Object) : Object := flattenDeclared c.shapeOf inputs

/-- The value that a condition looks at: the supplied one, or else the declared default. -/
def gateValue? (c : Config) (flat : Object) (id : String) : Option Value :=
  ((Assoc.get? id flat).filter fun v => !v.isNull).or ((c.field? id).bind Field.default?)

/-- Whether a field's condition holds for values by field id. A field without one always applies. -/
def dependencyMet (c : Config) (f : Field) (flat : Object) : Bool :=
  match f.dependsOn? with
  | none => true
  | some d =>
    match c.gateValue? flat d.field with
    | some v => v.looseEq d.value
    | none => false

/-- The groups of the fields, in the order in which they come first. -/
def sections (c : Config) : List String := appendNew [] (c.inputs.map Field.section_)

end Config

end WorkflowGraph
