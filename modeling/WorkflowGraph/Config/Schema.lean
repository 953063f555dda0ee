/- The rules that a config document has to satisfy before it is read, and all violations of them. -/

import WorkflowGraph.Json.Printer
import WorkflowGraph.Text.Search

set_option autoImplicit false
set_option relaxedAutoImplicit false

/-!
A schema is a list of rules about one value. Each rule concerns one kind of value and says nothing
about the others. Violations come in the order of the rules, and below a rule in the order of the
names it lists, of the items, or of the members of the document.
-/

namespace WorkflowGraph.Schema

/-- The kinds of value that rules tell apart. Integral doubles count as integers. -/
inductive Kind where
  | array
  | boolean
  | integer
  | null
  | number
  | object
  | string
deriving DecidableEq

namespace Kind

def name : Kind → String
  | array => "array"
  | boolean => "boolean"
  | integer => "integer"
  | null => "null"
  | number => "number"
  | object => "object"
  | string => "string"

def holds : Kind → Value → Bool
  | array, .arr _ => true
  | boolean, .bool _ => true
  | integer, .num (.int _ _) => true
  | integer, .num (.double d) => d.isIntegral
  | null, .null => true
  | number, .num _ => true
  | object, .obj _ => true
  | string, .str _ => true
  | _, _ => false

end Kind

inductive Rule where
  | kinds (ks : List Kind)
  | required (names : List String)
  | minLength (n : Nat)
  /-- Not below zero. -/
  | nonNegative
  | oneOf (choices : List String)
  | properties (rules : List (String × List Rule))
  | items (rules : List Rule)
  /-- The rules of every member whatever its name. -/
  | members (rules : List Rule)

/-- What is wrong with a value. -/
inductive Cause where
  | missing (name : String)
  | wrongKind (v : Value) (ks : List Kind)
  | tooShort (v : Value) (n : Nat)
  | negative (v : Value)
  | notOneOf (v : Value) (choices : List String)

namespace Cause

def quote (s : String) : String := "\"" ++ s ++ "\""

def message : Cause → String
  | missing name => (Value.str name).compact ++ " is a required property"
  | wrongKind v [k] => v.compact ++ " is not of type " ++ quote k.name
  | wrongKind v ks =>
    v.compact ++ " is not of types " ++ Text.join ", " (ks.map fun k => quote k.name)
  | tooShort v n =>
    v.compact ++ " is shorter than " ++ natText n ++ (if n = 1 then " character" else " characters")
  | negative v => v.compact ++ " is less than the minimum of 0"
  | notOneOf v choices => v.compact ++ " is not one of " ++ (Value.arr (choices.map .str)).compact

end Cause

/-- What is wrong, and where: the names and positions that lead there from the root. -/
structure Violation where
  path : List String
  cause : Cause

namespace Violation

def escapeStep (step : String) : String :=
  String.ofList (step.toList.flatMap fun c =>
    if c = '~' then ['~', '0'] else if c = '/' then ['~', '1'] else [c])

def pointer (v : Violation) : String :=
  v.path.foldl (fun acc step => acc ++ "/" ++ escapeStep step) ""

def message (v : Violation) : String := v.cause.message

end Violation

mutual

def ruleViolations (path : List String) (v : Value) : Rule → List Violation
  | .kinds ks => if ks.any fun k => k.holds v then [] else [⟨path, .wrongKind v ks⟩]
  | .required names =>
    match v with
    | .obj o => (names.filter fun n => !Assoc.contains n o).map fun n => ⟨path, .missing n⟩
    | _ => []
  | .minLength n =>
    match v with
    | .str s => if s.length < n then [⟨path, .tooShort v n⟩] else []
    | _ => []
  | .nonNegative =>
    match v with
    | .num n => if n.toDouble.less (Double.zero false) then [⟨path, .negative v⟩] else []
    | _ => []
  | .oneOf choices =>
    match v with
    | .str s => if s ∈ choices then [] else [⟨path, .notOneOf v choices⟩]
    | _ => [⟨path, .notOneOf v choices⟩]
  | .properties rules =>
    match v with
    | .obj o => propertyViolations path o rules
    | _ => []
  | .items rules =>
    match v with
    | .arr vs => (vs.zipIdx).flatMap fun p => violations (path ++ [natText p.2]) p.1 rules
    | _ => []
  | .members rules =>
    match v with
    | .obj o => o.flatMap fun p => violations (path ++ [p.1]) p.2 rules
    | _ => []

def propertyViolations (path : List String) (o : Object) :
    List (String × List Rule) → List Violation
  | [] => []
  | (name, rules) :: rest =>
    (match Assoc.get? name o with
      | some v => violations (path ++ [name]) v rules
      | none => []) ++ propertyViolations path o rest

def violations (path : List String) (v : Value) : List Rule → List Violation
  | [] => []
  | r :: rest => ruleViolations path v r ++ violations path v rest

end

def textRules : List Rule := [.kinds [.string]]

def nameRules : List Rule := [.kinds [.string], .minLength 1]

def countRules : List Rule := [.kinds [.integer], .nonNegative]

def nodeIdRules : List Rule := [.kinds [.integer, .string]]

def nodeIdsRules : List Rule := [.kinds [.array], .items nodeIdRules]

def indicesRules : List Rule := [.kinds [.array], .items countRules]

def fieldRules : List Rule := [
  .kinds [.object],
  .required ["id", "type"],
  .properties [
    ("id", nameRules),
    ("type", nameRules),
    ("section", textRules),
    ("label", textRules),
    ("required", [.kinds [.boolean]]),
    ("min", [.kinds [.number]]),
    ("max", [.kinds [.number]]),
    ("step", [.kinds [.number]]),
    ("max_length", countRules),
    ("max_items", countRules),
    ("options", [.kinds [.array]]),
    ("shape", [.oneOf ["scalar", "section", "opaque_object"]]),
    ("node_id", nodeIdRules),
    ("node_ids", nodeIdsRules),
    ("widget_indices", indicesRules),
    ("depends_on", [
      .kinds [.object],
      .required ["field", "value"],
      .properties [("field", nameRules)]])]]

def mappingRules : List Rule := [
  .kinds [.object],
  .required ["action_type"],
  .properties [
    ("action_type", nameRules),
    ("node_id", nodeIdRules),
    ("node_ids", nodeIdsRules),
    ("widget_indices", indicesRules),
    ("enabled_mode", countRules),
    ("disabled_mode", countRules),
    ("high_node_id", nodeIdRules),
    ("low_node_id", nodeIdRules)]]

def outputRules : List Rule := [
  .kinds [.object], .required ["id"], .properties [("id", nameRules)]]

def configRules : List Rule := [
  .kinds [.object],
  .required ["name", "workflow_file", "inputs"],
  .properties [
    ("id", textRules),
    ("name", nameRules),
    ("version", [.kinds [.number, .string]]),
    ("description", textRules),
    ("category", textRules),
    ("workflow_file", nameRules),
    ("inputs", [.kinds [.array], .items fieldRules]),
    ("outputs", [.kinds [.array], .items outputRules]),
    ("layout", [.kinds [.array, .null, .object]]),
    ("node_mapping", [.kinds [.object], .members mappingRules])]]

def configViolations (document : Value) : List Violation := violations [] document configRules

end WorkflowGraph.Schema
