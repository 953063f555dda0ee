/- Decimal numerals: the double nearest to one, and reading them from text. -/

import WorkflowGraph.Number.Double
import WorkflowGraph.Number.Digits

set_option autoImplicit false
set_option relaxedAutoImplicit false

namespace WorkflowGraph

/-- The number `±coefficient · 10 ^ exponent`. -/
structure Decimal where
  negative : Bool
  coefficient : Nat
  exponent : Int
deriving DecidableEq

namespace Decimal

/-- The double nearest to a decimal, none beyond the finite range. Magnitudes far outside the range
are decided by the number of digits alone, before any power is computed. -/
def nearest (d : Decimal) : Option Double :=
  let places : Int := (Digits.ofNat d.coefficient).length + d.exponent
  if d.coefficient = 0 then some (Double.zero d.negative)
  else if 310 < places then none
  else if places < -330 then some (Double.zero d.negative)
  else Double.nearest d.negative (d.coefficient * Nat.pow 10 d.exponent.toNat)
    (Nat.pow 10 (-d.exponent).toNat)

/-- The reading of a decimal: beyond the finite range it is infinite. -/
def real64 (d : Decimal) : Real64 :=
  match d.nearest with
  | some x => .finite x
  | none => .infinite d.negative

def takeSign : List Char → Bool × List Char
  | '-' :: cs => (true, cs)
  | '+' :: cs => (false, cs)
  | cs => (false, cs)

/-- The exponent part of a numeral: nothing, or `e` with an optional sign and at least one digit. -/
def exponent? : List Char → Option Int
  | [] => some 0
  | c :: cs => if c = 'e' ∨ c = 'E' then Digits.toInt? cs else none

/-- The parts of a numeral without its sign: digits before and behind an optional point, at least one
digit altogether, and an optional exponent. -/
def parts? (cs : List Char) : Option (List Char × List Char × Int) :=
  let whole := cs.takeWhile Digits.isDigit
  let rest := cs.dropWhile Digits.isDigit
  let (fraction, rest) := match rest with
    | '.' :: more => (more.takeWhile Digits.isDigit, more.dropWhile Digits.isDigit)
    | other => ([], other)
  if whole.isEmpty && fraction.isEmpty then none
  else (exponent? rest).map fun e => (whole, fraction, e)

def ofUnsigned? (negative : Bool) (cs : List Char) : Option Decimal :=
  (parts? cs).map fun (whole, fraction, e) =>
    ⟨negative, Digits.value (whole ++ fraction), e - fraction.length⟩

/-- The number that a text spells: an optional sign, then a numeral or one of the words `inf`,
`infinity` and `nan` in any case. -/
def readReal64? (cs : List Char) : Option Real64 :=
  let (negative, body) := takeSign cs
  match ofUnsigned? negative body with
  | some d => some d.real64
  | none =>
    let word := body.map Char.toLower
    if word = "inf".toList ∨ word = "infinity".toList then some (.infinite negative)
    else if word = "nan".toList then some .notANumber
    else none

example : (readReal64? "1.".toList).isSome = true ∧ readReal64? ".".toList = none ∧
    readReal64? "1e".toList = none := by decide +kernel

end Decimal

end WorkflowGraph
