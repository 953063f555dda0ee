/- What can go wrong between a request and a graph, as causes with one wording each. -/

import WorkflowGraph.Config.Schema
import WorkflowGraph.Inputs.Report
import WorkflowGraph.Number.Shortest

set_option autoImplicit false
set_option relaxedAutoImplicit false

namespace WorkflowGraph

/-- Why a document could not be read. -/
inductive ParseError where
  | emptyConfig
  | emptyTemplate
  | json
  | yaml
  | templateJson
  | schema (found : List Schema.Violation)
  | missingField (name : String)
  | config (fault : Fault)
  | canvas (fault : Fault)
  | api (fault : Fault)
  | notAnObject (kind : String)
  | other (text : String)

namespace ParseError

def message : ParseError → String
  | emptyConfig => "Empty workflow config"
  | emptyTemplate => "Empty graph template"
  | json => "Invalid JSON: the text is not a JSON document"
  | yaml => "Invalid YAML: the text is not a single YAML document"
  | templateJson => "Invalid JSON in graph template: the text is not a JSON document"
  | schema found =>
    "Config does not match schema: " ++
      Text.join "; " (found.map fun v => "at '" ++ v.pointer ++ "': " ++ v.message)
  | missingField name => "Missing required field: " ++ name
  | config fault => "Invalid workflow config: " ++ fault.message
  | canvas fault => "Invalid canvas graph: " ++ fault.message
  | api fault => "Invalid API graph: " ++ fault.message
  | notAnObject kind => "Graph template must be a JSON object, got " ++ kind
  | other text => text

end ParseError

/-- What makes a config unusable although its document could be read. -/
inductive ConfigFlaw where
  | noName
  | noTemplate (name : String)
  | emptyInputId
  | duplicateInput (id : String)
  | selfDependency (id : String)
  | unknownDependency (id dependency : String)
  | reversedBounds (id : String) (min max : Double)
  | nonPositiveStep (id : String)
  | duplicateOutput (id : String)
  | mappingWithoutNode (key : String)
  | toggleWithoutNode (key : String)
  | vectorWithoutIndices (key : String)
  | other (text : String)

namespace ConfigFlaw

def bound (d : Double) : String := String.ofList (FloatLayout.plain.write d)

def message : ConfigFlaw → String
  | noName => "Workflow name is required"
  | noTemplate name => "Workflow '" ++ name ++ "' has no workflow_file"
  | emptyInputId => "Input ID cannot be empty"
  | duplicateInput id => "Duplicate input ID: " ++ id
  | selfDependency id => "Input '" ++ id ++ "' depends on itself"
  | unknownDependency id dependency =>
    "Input '" ++ id ++ "' depends on non-existent input '" ++ dependency ++ "'"
  | reversedBounds id min max =>
    "Input '" ++ id ++ "' has min " ++ bound min ++ " greater than max " ++ bound max
  | nonPositiveStep id => "Input '" ++ id ++ "' has a non-positive step"
  | duplicateOutput id => "Duplicate output ID: " ++ id
  | mappingWithoutNode key => "Mapping '" ++ key ++ "' does not name a target node"
  | toggleWithoutNode key => "Mapping '" ++ key ++ "' does not name any node to toggle"
  | vectorWithoutIndices key => "Mapping '" ++ key ++ "' has no widget_indices"
  | other text => text

end ConfigFlaw

inductive Error where
  | configNotFound (id : String) (tried : List String)
  | templateNotFound (path : String)
  | parse (cause : ParseError)
  | invalidConfig (flaw : ConfigFlaw)
  | validationFailed (report : Report)
  | settings (text : String)
  | internal (text : String)
  | yaml
  | json
  | io (text : String)

namespace Error

def message : Error → String
  | configNotFound id tried =>
    "Workflow config not found: " ++ id ++ " (tried: " ++ Text.join ", " tried ++ ")"
  | templateNotFound path => "Workflow template not found: " ++ path
  | parse cause => "Parse error: " ++ cause.message
  | invalidConfig flaw => "Invalid workflow config: " ++ flaw.message
  | validationFailed report =>
    "Input validation failed with " ++ natText report.errors.length ++ " error(s)"
  | settings text => "Settings error: " ++ text
  | internal text => "Internal error: " ++ text
  | yaml => "YAML error: the text is not a YAML document"
  | json => "JSON error: the text is not a JSON document"
  | io text => "IO error: " ++ text

def code : Error → String
  | configNotFound _ _ => "CONFIG_NOT_FOUND"
  | templateNotFound _ => "TEMPLATE_NOT_FOUND"
  | parse _ => "PARSE_ERROR"
  | invalidConfig _ => "INVALID_CONFIG"
  | validationFailed _ => "VALIDATION_FAILED"
  | settings _ => "SETTINGS_ERROR"
  | internal _ => "INTERNAL_ERROR"
  | yaml => "YAML_ERROR"
  | json => "JSON_ERROR"
  | io _ => "IO_ERROR"

def status : Error → Nat
  | configNotFound _ _ => 404
  | templateNotFound _ => 404
  | validationFailed _ => 422
  | _ => 500

def isNotFound : Error → Bool
  | configNotFound _ _ => true
  | templateNotFound _ => true
  | _ => false

def externalMessage : Error → String
  | configNotFound id _ => "Workflow config not found: " ++ id
  | templateNotFound _ => "Workflow template not found"
  | parse cause => (parse cause).message
  | invalidConfig flaw => (invalidConfig flaw).message
  | validationFailed report => (validationFailed report).message
  | settings _ => "A settings error occurred"
  | internal _ => "An internal error occurred"
  | yaml => "Invalid YAML format"
  | json => "Invalid JSON format"
  | io _ => "An I/O error occurred"

/-- The body of an answer to strangers. A failed validation carries its report. -/
def toValue (e : Error) : Value :=
  .obj ([("success", .bool false),
    ("error", .obj [("code", .str e.code), ("message", .str e.externalMessage)])] ++
    match e with
    | validationFailed report => [("validation", report.toValue)]
    | _ => [])

def toResponse (e : Error) : Value :=
  .obj [("code", .str e.code), ("message", .str e.externalMessage), ("status", .ofNat e.status)]

end Error

def Report.accept (r : Report) : Except Error Report :=
  if r.isValid then .ok r else .error (.validationFailed r)

end WorkflowGraph
