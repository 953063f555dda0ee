/- Finite binary64 numbers as sign, significand and exponent, with exact comparison and rounding. -/

set_option autoImplicit false
set_option relaxedAutoImplicit false

/-!
A finite double is `±significand · 2 ^ exponent`. The canonical form leaves one such triple for each
double, so equality of triples tells the two zeros apart and otherwise is equality of numbers. All
comparison goes through `units`, the number counted in multiples of the least positive double, which
is an integer.
-/

namespace WorkflowGraph

/-- The triples that binary64 can hold: 53 bits, all of them used above the least exponent. -/
def CanonicalDouble (significand : Nat) (exponent : Int) : Prop :=
  significand < 9007199254740992 ∧ -1074 ≤ exponent ∧ exponent ≤ 971 ∧
    (4503599627370496 ≤ significand ∨ exponent = -1074)

instance (significand : Nat) (exponent : Int) : Decidable (CanonicalDouble significand exponent) :=
  inferInstanceAs (Decidable (_ ∧ _ ∧ _ ∧ _))

structure Double where
  negative : Bool
  significand : Nat
  exponent : Int
  canonical : CanonicalDouble significand exponent
deriving DecidableEq

namespace Double

def zero (negative : Bool) : Double := ⟨negative, 0, -1074, by decide⟩

instance : Inhabited Double := ⟨zero false⟩

def units (d : Double) : Int :=
  let magnitude : Int := (d.significand * Nat.pow 2 (d.exponent + 1074).toNat : Nat)
  if d.negative then -magnitude else magnitude

def one : Int := Nat.pow 2 1074

def equal (a b : Double) : Bool := a.units == b.units

def less (a b : Double) : Bool := a.units < b.units

def truncate (d : Double) : Int := d.units.tdiv one

def isIntegral (d : Double) : Bool := d.units % one == 0

def magnitudeBelow (d : Double) (bound : Nat) : Bool := d.units.natAbs < bound * Nat.pow 2 1074

/-- The quotient rounded to the nearest natural number, an exact half to the even one. -/
def divideHalfEven (num den : Nat) : Nat :=
  let q := num / den
  let r := num % den
  if 2 * r < den ∨ (2 * r = den ∧ q % 2 = 0) then q else q + 1

/-- The exponent of the last place of the double nearest to a positive quotient. -/
def lastPlace (num den : Nat) : Int :=
  let e : Int := (num.log2 : Int) - den.log2 - 52
  let e := if num * Nat.pow 2 (-e).toNat < den * Nat.pow 2 52 * Nat.pow 2 e.toNat then e - 1 else e
  max e (-1074)

/-- The double nearest to a quotient, ties to the even significand; none beyond the finite range. -/
def nearest (negative : Bool) (num den : Nat) : Option Double :=
  if num = 0 then some (zero negative)
  else
    let e := lastPlace num den
    let q := divideHalfEven (num * Nat.pow 2 (-e).toNat) (den * Nat.pow 2 e.toNat)
    let (q, e) := if q = Nat.pow 2 53 then (Nat.pow 2 52, e + 1) else (q, e)
    if h : CanonicalDouble q e then some ⟨negative, q, e, h⟩ else none

def ratio (d : Double) : Nat × Nat :=
  (d.significand * Nat.pow 2 d.exponent.toNat, Nat.pow 2 (-d.exponent).toNat)

def times (a b : Double) : Option Double :=
  nearest (a.negative != b.negative) (a.ratio.1 * b.ratio.1) (a.ratio.2 * b.ratio.2)

/-- The quotient by a number that is not zero, rounded; none beyond the finite range. -/
def dividedBy (a b : Double) : Option Double :=
  nearest (a.negative != b.negative) (a.ratio.1 * b.ratio.2) (a.ratio.2 * b.ratio.1)

def ofInt (i : Int) : Double := (nearest (i < 0) i.natAbs 1).getD (zero false)

theorem equal_comm (a b : Double) : equal a b = equal b a := by
  simp only [equal, Bool.beq_comm]

theorem equal_trans {a b c : Double} (hab : equal a b = true) (hbc : equal b c = true) :
    equal a c = true := by
  simp only [equal, beq_iff_eq] at *
  exact hab.trans hbc

example : (nearest false 1 10).map (fun d => (d.significand, d.exponent)) =
    some (7205759403792794, -56) := by decide +kernel

example : nearest false (2 ^ 1024) 1 = none := by decide +kernel

end Double

/-- What a decimal text can denote: a finite double, an infinity or no number. -/
inductive Real64 where
  | finite (d : Double)
  | infinite (negative : Bool)
  | notANumber
deriving DecidableEq

def Real64.finite? : Real64 → Option Double
  | .finite d => some d
  | _ => none

end WorkflowGraph
