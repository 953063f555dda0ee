/- What the scalars of a YAML text denote: null, truth values, numbers or texts. -/

import WorkflowGraph.Json.Value
import WorkflowGraph.Yaml.Scalar

set_option autoImplicit false
set_option relaxedAutoImplicit false

namespace WorkflowGraph.Yaml

def isNullWord (cs : List Char) : Bool :=
  ["null", "Null", "NULL", "~"].any fun w => w.toList = cs

def truth? (cs : List Char) : Option Bool :=
  if ["true", "True", "TRUE"].any fun w => w.toList = cs then some true
  else if ["false", "False", "FALSE"].any fun w => w.toList = cs then some false
  else none

/-- A text without a plus sign before it, unless another sign follows the plus sign. -/
def withoutPlus? : List Char → Option (List Char)
  | '+' :: '+' :: _ => none
  | '+' :: '-' :: _ => none
  | '+' :: rest => some rest
  | cs => some cs

/-- Digits with a zero before them, which spell no number. -/
def isZeroPadded (cs : List Char) : Bool :=
  let digits := match cs with
    | '-' :: rest => rest
    | '+' :: rest => rest
    | rest => rest
  match digits with
  | '0' :: rest => !rest.isEmpty && rest.all Digits.isDigit
  | _ => false

/-- The natural number that digits spell: in base ten, or in another base after a mark. -/
def naturalOfText? (cs : List Char) : Option Nat :=
  match cs with
  | '0' :: 'x' :: rest => Digits.toNatBase? 16 rest
  | '0' :: 'o' :: rest => Digits.toNatBase? 8 rest
  | '0' :: 'b' :: rest => Digits.toNatBase? 2 rest
  | cs => if isZeroPadded cs then none else Digits.toNat? cs

/-- The integers that are told apart from other texts: those of 128 bits. -/
def IsWide (i : Int) : Prop := -(Nat.pow 2 127 : Int) ≤ i ∧ i < (Nat.pow 2 128 : Int)

instance (i : Int) : Decidable (IsWide i) := inferInstanceAs (Decidable (_ ∧ _))

def integerOfText? (cs : List Char) : Option Int :=
  let i : Option Int := match cs with
    | '-' :: rest => (naturalOfText? rest).map fun n => -(n : Int)
    | cs => (withoutPlus? cs).bind fun rest => (naturalOfText? rest).map fun n => (n : Int)
  i.filter fun i => IsWide i

/-- The real number that a text spells: a finite one, or one of the words for infinity and no
number. -/
def realOfText? (cs : List Char) : Option Real64 := do
  let unsigned ← withoutPlus? cs
  if [".inf", ".Inf", ".INF"].any fun w => w.toList = unsigned then return .infinite false
  else if ["-.inf", "-.Inf", "-.INF"].any fun w => w.toList = cs then return .infinite true
  else if [".nan", ".NaN", ".NAN"].any fun w => w.toList = cs then return .notANumber
  else (← Decimal.readReal64? unsigned).finite?.map .finite

/-- A real number as a value. What is not finite has no other value than null. -/
def ofReal : Real64 → Value
  | .finite d => .ofDouble d
  | _ => .null

def ofChars (cs : List Char) : Value := .str (String.ofList cs)

/-- What a plain scalar denotes. An integer has to fit into a number. -/
def plainValue? (cs : List Char) : Option Value :=
  if cs.isEmpty || isNullWord cs then some .null
  else match truth? cs, integerOfText? cs with
    | some b, _ => some (.bool b)
    | none, some i => (Number.ofInt? i).map .num
    | none, none =>
      match if isZeroPadded cs then none else realOfText? cs with
      | some r => some (ofReal r)
      | none => some (ofChars cs)

def isLocalTag (tag : Option (List Char)) : Bool := (tag.bind List.head?) = some '!'

def coreTag (name : String) : List Char := ("tag:yaml.org,2002:" ++ name).toList

/-- What a scalar denotes. Some tags say what a text has to spell, others make it a text; local tags
have no meaning. -/
def Scalar.value? (tag : Option (List Char)) (s : Scalar) : Option Value :=
  match tag with
  | none => if s.plain then plainValue? s.text else some (ofChars s.text)
  | some t =>
    if isLocalTag tag then none
    else if t = coreTag "bool" then (truth? s.text).map .bool
    else if t = coreTag "int" then (integerOfText? s.text).bind fun i => (Number.ofInt? i).map .num
    else if t = coreTag "float" then (realOfText? s.text).map ofReal
    else if t = coreTag "null" then if isNullWord s.text then some .null else none
    else some (ofChars s.text)

end WorkflowGraph.Yaml
