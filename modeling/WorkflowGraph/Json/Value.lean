/- JSON values: numbers that are integers or doubles, and objects that keep the order of members. -/

import WorkflowGraph.Assoc
import WorkflowGraph.Number.Decimal

set_option autoImplicit false
set_option relaxedAutoImplicit false

namespace WorkflowGraph

/-- The integers that a JSON number holds exactly: those of 64 bits, with a sign or without. -/
def FitsNumber (i : Int) : Prop := -9223372036854775808 ≤ i ∧ i < 18446744073709551616

instance (i : Int) : Decidable (FitsNumber i) := inferInstanceAs (Decidable (_ ∧ _))

/-- A JSON number. An integer and a double are different even when they denote the same number. -/
inductive Number where
  | int (i : Int) (fits : FitsNumber i)
  | double (d : Double)
deriving DecidableEq

namespace Number

def toDouble : Number → Double
  | .int i _ => Double.ofInt i
  | .double d => d

/-- The integer, if the number is one of 64 bits with a sign. -/
def int64? : Number → Option Int
  | .int i _ => if InInt64 i then some i else none
  | .double _ => none

/-- The integer, if the number is one of 64 bits without a sign. -/
def nat64? : Number → Option Nat
  | .int i _ => if InNat64 i then some i.toNat else none
  | .double _ => none

theorem nat64?_int {n : Nat} {fits : FitsNumber n} (h : InNat64 n) :
    nat64? (.int n fits) = some n := by
  simp only [nat64?, if_pos h, Int.toNat_natCast]

/-- Structural equality: kinds have to agree, doubles are compared as numbers. -/
def same : Number → Number → Bool
  | .int i _, .int j _ => i == j
  | .double a, .double b => a.equal b
  | _, _ => false

def ofInt? (i : Int) : Option Number := if h : FitsNumber i then some (.int i h) else none

end Number

inductive Value where
  | null
  | bool (b : Bool)
  | num (n : Number)
  | str (s : String)
  | arr (items : List Value)
  | obj (members : List (String × Value))
deriving Inhabited

abbrev Object := List (String × Value)

namespace Value

/-- An integer as a value; outside the range of integers, the nearest double. -/
def ofInt (i : Int) : Value :=
  if h : FitsNumber i then .num (.int i h) else .num (.double (Double.ofInt i))

theorem ofInt_of_fits {i : Int} (h : FitsNumber i) : ofInt i = .num (.int i h) := by
  simp only [ofInt, h, dite_true]

def ofNat (n : Nat) : Value := ofInt n

def ofDouble (d : Double) : Value := .num (.double d)

def ofOption : Option Value → Value
  | some v => v
  | none => .null

def isNull : Value → Bool
  | .null => true
  | _ => false

def isString : Value → Bool
  | .str _ => true
  | _ => false

def isNumber : Value → Bool
  | .num _ => true
  | _ => false

def string? : Value → Option String
  | .str s => some s
  | _ => none

def object? : Value → Option Object
  | .obj o => some o
  | _ => none

def array? : Value → Option (List Value)
  | .arr a => some a
  | _ => none

/-- The value of a member, if the value is an object that has it. -/
def member? (name : String) : Value → Option Value
  | .obj o => Assoc.get? name o
  | _ => none

mutual

/-- Structural equality. Objects are equal whatever the order of their members. -/
def same : Value → Value → Bool
  | .null, .null => true
  | .bool a, .bool b => a == b
  | .num a, .num b => a.same b
  | .str a, .str b => a == b
  | .arr a, .arr b => sameItems a b
  | .obj a, .obj b => a.length == b.length && sameMembers a b
  | _, _ => false

def sameItems : List Value → List Value → Bool
  | [], [] => true
  | a :: as, b :: bs => same a b && sameItems as bs
  | _, _ => false

def sameMembers : List (String × Value) → List (String × Value) → Bool
  | [], _ => true
  | (k, a) :: rest, b =>
    (match Assoc.get? k b with
      | some v => same a v
      | none => false) && sameMembers rest b

end

mutual

def Distinct : Value → Prop
  | .arr items => DistinctItems items
  | .obj members => (Assoc.keys members).Nodup ∧ DistinctMembers members
  | _ => True

def DistinctItems : List Value → Prop
  | [] => True
  | v :: rest => Distinct v ∧ DistinctItems rest

def DistinctMembers : List (String × Value) → Prop
  | [] => True
  | (_, v) :: rest => Distinct v ∧ DistinctMembers rest

end

end Value

end WorkflowGraph
