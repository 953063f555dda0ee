/- The one set of rules by which loosely typed input values are read as what they stand for. -/

import WorkflowGraph.Json.Value
import WorkflowGraph.Number.Shortest
import WorkflowGraph.Text.Blank

set_option autoImplicit false
set_option relaxedAutoImplicit false

/-!
Values come from forms and scripts: numbers may be texts, and truth may be spelled `"yes"` or `1`.
Checking, resolving and compiling all read values through the functions of this module.
-/

namespace WorkflowGraph

def trueWords : List String := ["1", "true", "True", "yes", "Yes"]

def falseWords : List String := ["0", "false", "False", "no", "No"]

namespace Value

/-- The truth value that a checkbox value spells, if it is one of the accepted spellings. -/
def checkbox? : Value → Option Bool
  | .bool b => some b
  | .num n =>
    if n.toDouble.equal (Double.ofInt 1) then some true
    else if n.toDouble.equal (Double.zero false) then some false
    else none
  | .str s =>
    if s ∈ trueWords then some true
    else if s ∈ falseWords then some false
    else none
  | _ => none

/-- The truth of any value: a checkbox spelling if it is one, else not being zero or empty. -/
def truthy (v : Value) : Bool :=
  match v.checkbox? with
  | some b => b
  | none =>
    match v with
    | .null => false
    | .bool b => b
    | .num n => !n.toDouble.equal (Double.zero false)
    | .str s => s != ""
    | .arr items => !items.isEmpty
    | .obj members => !members.isEmpty

/-- The finite number that a number or a numeric text denotes. -/
def float? : Value → Option Double
  | .num n => some n.toDouble
  | .str s => (Decimal.readReal64? (Text.trimChars s.toList)).bind Real64.finite?
  | _ => none

/-- The integer that a value denotes: a number toward zero, a text that spells an integer. -/
def int? : Value → Option Int
  | .num n =>
    match n.int64? with
    | some i => some i
    | none =>
      if n.toDouble.magnitudeBelow 9223372036854775808 then some n.toDouble.truncate else none
  | .str s => int64OfText? (Text.trimChars s.toList)
  | _ => none

/-- Values that count as absent: null, blank texts, empty lists and objects. -/
def isAbsent : Value → Bool
  | .null => true
  | .str s => Text.isBlankText s
  | .arr items => items.isEmpty
  | .obj members => members.isEmpty
  | _ => false

/-- Equality for which an integer and a double that denote the same number are equal. -/
def looseEq : Value → Value → Bool
  | .num a, .num b => a.toDouble.equal b.toDouble
  | a, b => a.same b

/-- The model path in a bare text or in the member `path` of an object; a blank path is none. -/
def modelPath? (v : Value) : Option String :=
  let found := match v with
    | .str s => some s
    | .obj members => (Assoc.get? "path" members).bind string?
    | _ => none
  found.bind fun s =>
    let path := Text.trim s
    if path = "" then none else some path

end Value

def isProvided : Option Value → Bool
  | some v => !v.isAbsent
  | none => false

namespace Double

/-- A bound as messages show it: an integer below `10 ^ 15` without a fraction, anything else in
full. -/
def boundText (d : Double) : String :=
  if d.isIntegral && d.magnitudeBelow 1000000000000000 then intText d.truncate
  else String.ofList (FloatLayout.plain.write d)

end Double

/-- A number that need not be finite, as messages show it. -/
def Real64.boundText : Real64 → String
  | .finite d => d.boundText
  | .infinite false => "inf"
  | .infinite true => "-inf"
  | .notANumber => "NaN"

end WorkflowGraph
