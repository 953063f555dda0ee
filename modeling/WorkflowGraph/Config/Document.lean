/- Reading a config from the text of a JSON or YAML document. -/

import WorkflowGraph.Config.WellFormed
import WorkflowGraph.Json.Parser
import WorkflowGraph.Yaml.Document

set_option autoImplicit false
set_option relaxedAutoImplicit false

/-!
The document is held against the schema first, so that everything wrong with its structure is
reported with its place. Then it is read as a record. Fields that name nodes themselves get a
mapping unless one is given, and the mappings are put into the order of the fields.
-/

namespace WorkflowGraph

inductive Notation where
  | json
  | yaml
deriving DecidableEq

namespace Notation

def name : Notation → String
  | json => "json"
  | yaml => "yaml"

def extensions : List String := ["json", "yaml", "yml"]

def document (form : Notation) (text : String) : Except ParseError Value :=
  match form with
  | json => (Json.parse? text).elim (.error .json) .ok
  | yaml => (Yaml.parse? text).elim (.error .yaml) .ok

end Notation

namespace Fault

/-- The name between the marks that words of a missing member carry, wherever they stand. -/
def missingName? (f : Fault) : Option String := do
  let rest ← Text.after? "missing field `".toList f.message.toList
  let (name, _) ← Text.cut? '`' rest
  return String.ofList name

end Fault

def Schema.accept (document : Value) : Except ParseError Unit :=
  match Schema.configViolations document with
  | [] => .ok ()
  | found => .error (.schema found)

namespace Config

/-- Mappings with those that fields imply by their bindings; given ones stay. -/
def bindFields (fields : List Field) (m : Mappings) : Mappings :=
  fields.foldl (fun acc f =>
    if Assoc.contains f.id acc then acc
    else match f.binding.mapping? with
      | some mapping => Assoc.insert f.id mapping acc
      | none => acc) m

/-- The place of a field id among the fields, the last one of several; ids of no field come after
all. -/
def place (ids : List String) (id : String) : Nat :=
  match ids.reverse.findIdx? (· = id) with
  | some i => ids.length - 1 - i
  | none => ids.length

/-- Mappings in the order of the fields; those of no field keep their order at the end. -/
def orderMappings (ids : List String) (m : Mappings) : Mappings :=
  m.mergeSort fun a b => place ids a.1 ≤ place ids b.1

def bind (c : Config) : Config :=
  { c with mappings := orderMappings (c.inputs.map Field.id) (bindFields c.inputs c.mappings) }

def ofDocument (document : Value) : Except ParseError Config := do
  Schema.accept document
  match Config.read document with
  | .ok c => return c.bind
  | .error fault =>
    match fault.missingName? with
    | some name => .error (.missingField name)
    | none => .error (.config fault)

def parse (text : String) (form : Notation) : Except ParseError Config :=
  if Text.isBlankText text then .error .emptyConfig
  else do ofDocument (← form.document text)

end Config

end WorkflowGraph
