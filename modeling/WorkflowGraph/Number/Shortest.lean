/- The fewest decimal digits that read back as a given double, and layouts that write them. -/

import WorkflowGraph.Number.Decimal

set_option autoImplicit false
set_option relaxedAutoImplicit false

/-!
On the grid of decimals with a fixed number of digits a double has two neighbours. The first grid,
in order of growing number of digits, on which a neighbour reads back as the double gives the
digits; if both neighbours do, the nearer one is taken. Seventeen digits always suffice; the exact
expansion stands behind them, so that the answer reads back by construction.
-/

namespace WorkflowGraph

/-- Which of two equally near candidates is written. -/
inductive Tie where
  | toEven
  | up
deriving DecidableEq

namespace Double

def leadingPlace (num den : Nat) : Int :=
  if den ≤ num then ((Digits.ofNat (num / den)).length : Int) - 1
  else
    let j := (Digits.ofNat (den / num)).length - 1
    if den ≤ num * Nat.pow 10 j then -(j : Int) else -((j : Int) + 1)

/-- Whether a decimal of positive sign reads back as the magnitude of a double. -/
def readsBack (d : Double) (c : Nat) (e : Int) : Bool :=
  match (⟨false, c, e⟩ : Decimal).nearest with
  | some x => x.significand == d.significand && x.exponent == d.exponent
  | none => false

/-- The candidate on the grid of multiples of `10 ^ e` that reads back, if there is one. -/
def onGrid? (tie : Tie) (d : Double) (e : Int) : Option Nat :=
  let (num, den) := d.ratio
  let n := num * Nat.pow 10 (-e).toNat
  let m := den * Nat.pow 10 e.toNat
  let low := n / m
  let rest := n % m
  match readsBack d low e, readsBack d (low + 1) e with
  | true, false => some low
  | false, true => some (low + 1)
  | false, false => none
  | true, true =>
    if 2 * rest < m then some low
    else if m < 2 * rest then some (low + 1)
    else match tie with
      | .up => some (low + 1)
      | .toEven => if low % 2 = 0 then some low else some (low + 1)

def expansion (d : Double) : Nat × Int :=
  if 0 ≤ d.exponent then (d.significand * Nat.pow 2 d.exponent.toNat, 0)
  else (d.significand * Nat.pow 5 (-d.exponent).toNat, d.exponent)

def searchGrids (tie : Tie) (d : Double) : Nat → Int → Nat × Int
  | 0, _ => d.expansion
  | steps + 1, e =>
    match onGrid? tie d e with
    | some c => (c, e)
    | none => searchGrids tie d steps (e - 1)

/-- Coefficient and exponent of ten of the shortest decimal that reads back as the magnitude. -/
def shortest (tie : Tie) (d : Double) : Nat × Int :=
  if d.significand = 0 then (0, 0)
  else
    let (num, den) := d.ratio
    searchGrids tie d 17 (leadingPlace num den)

end Double

/-- How the digits of a double are laid out. -/
structure FloatLayout where
  /-- Which exponents of the first digit are written without an exponent mark. -/
  positional : Int → Bool
  /-- Whether an integral number keeps `.0`. -/
  keepFraction : Bool
  tie : Tie

namespace FloatLayout

def dropZeros : List Char → Int → List Char × Int
  | '0' :: more, e => dropZeros more (e + 1)
  | ds, e => (ds, e)

/-- The digits of a double without trailing zeros and the exponent of ten of the last of them. -/
def digits (layout : FloatLayout) (d : Double) : List Char × Int :=
  let (c, e) := d.shortest layout.tie
  if c = 0 then (['0'], 0)
  else
    let (ds, e) := dropZeros (Digits.ofNat c).reverse e
    (ds.reverse, e)

/-- Digits whose last one has exponent `e`, written without an exponent mark. -/
def positionalText (layout : FloatLayout) (ds : List Char) (e : Int) : List Char :=
  if 0 ≤ e then
    ds ++ List.replicate e.toNat '0' ++ (if layout.keepFraction then ['.', '0'] else [])
  else
    let places := (-e).toNat
    if places < ds.length then
      ds.take (ds.length - places) ++ '.' :: ds.drop (ds.length - places)
    else '0' :: '.' :: (List.replicate (places - ds.length) '0' ++ ds)

/-- Digits with the point after the first one and an exponent mark with its sign. -/
def scientificText (ds : List Char) (first : Int) : List Char :=
  let mantissa := match ds with
    | [] => []
    | [d] => [d]
    | d :: more => d :: '.' :: more
  mantissa ++ 'e' :: (if first < 0 then '-' else '+') :: Digits.ofNat first.natAbs

def write (layout : FloatLayout) (d : Double) : List Char :=
  let (ds, e) := layout.digits d
  let first := e + ds.length - 1
  let body :=
    if layout.positional first then layout.positionalText ds e else scientificText ds first
  if d.negative then '-' :: body else body

/-- JSON documents write the powers of ten from `10 ^ (-5)` to `10 ^ 15` in place and always show
that a number is a double. -/
def json : FloatLayout := ⟨fun first => -5 ≤ first && first < 16, true, .toEven⟩

/-- Messages write every number in place, an integral one without a fraction. -/
def plain : FloatLayout := ⟨fun _ => true, false, .up⟩

end FloatLayout

end WorkflowGraph
