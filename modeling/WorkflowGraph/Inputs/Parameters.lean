/- Descriptions of the declared inputs, and inputs given as `key=value` parameters. -/

import WorkflowGraph.Config.Basic
import WorkflowGraph.Json.Parser

set_option autoImplicit false
set_option relaxedAutoImplicit false

namespace WorkflowGraph

/-- What a caller needs to know of one input. -/
structure ParameterInfo where
  name : String
  label : String
  section_ : String
  type : FieldType
  required : Bool
  default? : Option Value
  description : String
  dependsOn? : Option String

namespace ParameterInfo

def toValue (p : ParameterInfo) : Value :=
  .obj [("name", .str p.name), ("label", .str p.label), ("section", .str p.section_),
    ("field_type", .str p.type.name), ("required", .bool p.required),
    ("default", .ofOption p.default?), ("description", .str p.description),
    ("depends_on", .ofText? p.dependsOn?)]

end ParameterInfo

def Field.parameterInfo (f : Field) : ParameterInfo :=
  ⟨f.id, f.label, f.section_, f.type, f.required, f.default?, f.description,
    f.dependsOn?.map Dependency.field⟩

def Config.parameters (c : Config) : List ParameterInfo := c.inputs.map Field.parameterInfo

/-- The value of a parameter: a JSON document if it is one, the text itself otherwise. -/
def parameterValue (text : String) : Value := (Json.parse? text).getD (.str text)

def parseParameters (ps : List (String × String)) : Object :=
  Assoc.ofList (ps.map fun p => (p.1, parameterValue p.2))

def mergeParameters (base params : Object) : Object := Assoc.insertAll base params

end WorkflowGraph
