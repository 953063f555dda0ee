/- Numerals of JSON texts, and the doubles that they are read as. -/

import WorkflowGraph.Json.Value

set_option autoImplicit false
set_option relaxedAutoImplicit false

/-!
A numeral that is no integer is read in two steps. Its digits go into a 64-bit word as long as they
fit, and the word is rounded to a double; then this is multiplied with a power of ten, or divided by
one, and rounded again. So the double may be a neighbour of the one nearest to the numeral.
-/

namespace WorkflowGraph

namespace Double

def tenPower (n : Nat) : Double := (nearest false (Nat.pow 10 n) 1).getD (zero false)

/-- The largest power of ten that is used at once. -/
def maxPower : Nat := 308

def shrink : Nat → Double → Option Double
  | 0, d => some d
  | n + 1, d =>
    if d.significand = 0 then some d else (d.dividedBy (tenPower maxPower)).bind (shrink n)

/-- Multiply with a power of ten, rounding after each step; none beyond the finite range. -/
def scaleByTen (d : Double) (e : Int) : Option Double :=
  if 0 ≤ e then
    if e ≤ maxPower then d.times (tenPower e.toNat)
    else if d.significand = 0 then some d
    else none
  else
    -- as many times the largest power as leave something for the last division
    let times := (e.natAbs - 1) / maxPower
    (d.shrink times).bind fun d => d.dividedBy (tenPower (e.natAbs - maxPower * times))

end Double

namespace Json

/-- The words that digits are gathered in are below this bound. -/
def wordBound : Nat := 18446744073709551616

/-- Append digits to a word as long as it holds them; the word and how many digits it took. -/
def takeDigits : Nat → List Char → Nat × Nat
  | word, [] => (word, 0)
  | word, c :: cs =>
    let next := 10 * word + Digits.digitValue c
    if next < wordBound then
      let (word, taken) := takeDigits next cs
      (word, taken + 1)
    else (word, 0)

/-- The double of a numeral. Digits before the point that the word does not take count as powers of
ten, and further digits behind the point do not count. -/
def doubleOfParts? (negative : Bool) (whole fraction : List Char) (power : Int) : Option Double :=
  let (word, before) := takeDigits 0 whole
  let (word, behind) := takeDigits word fraction
  let e := power + (whole.length - before : Nat) - behind
  (Double.nearest negative word 1).bind fun d => d.scaleByTen e

def takeMinus : List Char → Bool × List Char
  | '-' :: more => (true, more)
  | more => (false, more)

def wholeOk : List Char → Bool
  | [] => false
  | ['0'] => true
  | '0' :: _ => false
  | _ => true

def pointOk : List Char → Bool
  | '.' :: d :: _ => Digits.isDigit d
  | '.' :: [] => false
  | _ => true

def wholeInt (negative : Bool) (whole : List Char) : Int :=
  if negative then -(Digits.value whole : Int) else Digits.value whole

/-- The number of a numeral. A numeral is an optional minus sign, digits without a leading zero, an
optional fraction and an optional exponent; digits alone are an integer if it fits, and minus zero
is a double. Beyond the finite range there is no number. -/
def numberOfText? (cs : List Char) : Option Number :=
  let (negative, body) := takeMinus cs
  let whole := body.takeWhile Digits.isDigit
  let rest := body.dropWhile Digits.isDigit
  if !(wholeOk whole && pointOk rest) then none
  else
    match rest.isEmpty && !(negative && wholeInt negative whole == 0),
      Number.ofInt? (wholeInt negative whole) with
    | true, some n => some n
    | _, _ => do
      let (whole, fraction, power) ← Decimal.parts? body
      (doubleOfParts? negative whole fraction power).map .double

/-- The nearest double ends in 4653. -/
example : numberOfText? "1.6948674738744653".toList =
    numberOfText? "1.6948674738744651".toList := by decide +kernel

end Json

end WorkflowGraph
