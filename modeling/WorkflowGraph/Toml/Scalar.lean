/- Values of TOML without quotes: truth values, integers, floats, dates and times. -/

import WorkflowGraph.Json.Value
import WorkflowGraph.Text.Search

set_option autoImplicit false
set_option relaxedAutoImplicit false

/-!
Such a value is a whole word: no character that a word may hold can follow one. A date and a time of
day may be two words with one space between them.
-/

namespace WorkflowGraph.Toml

def isWordChar (c : Char) : Bool :=
  c.isAlphanum || c = '+' || c = '-' || c = '.' || c = ':' || c = '_'

def digits? (isDigit : Char → Bool) (cs : List Char) : Option (List Char) :=
  let groups := Text.splitOn '_' cs
  if groups.all fun g => !g.isEmpty && g.all isDigit then some groups.flatten else none

/-- Decimal digits that do not begin with a zero, unless this is all. -/
def plainDigits? (cs : List Char) : Option (List Char) :=
  (digits? Digits.isDigit cs).filter fun ds => ds.length = 1 ∨ ds.head? ≠ some '0'

def isDigitOf (base : Nat) (c : Char) : Bool := (Digits.hexValue? c).any (· < base)

def based? (base : Nat) (cs : List Char) : Option Int :=
  ((digits? (isDigitOf base) cs).bind (Digits.toNatBase? base)).map fun n => (n : Int)

/-- The number of an integer, whatever its size. A sign goes with decimal digits only. -/
def unboundedInteger? : List Char → Option Int
  | '0' :: 'x' :: cs => based? 16 cs
  | '0' :: 'o' :: cs => based? 8 cs
  | '0' :: 'b' :: cs => based? 2 cs
  | cs =>
    let (negative, ds) := Decimal.takeSign cs
    (plainDigits? ds).map fun ds =>
      if negative then -(Digits.value ds : Int) else (Digits.value ds : Int)

/-- An integer, which has to be one of 64 bits with a sign. -/
def integer? (cs : List Char) : Option Int :=
  (unboundedInteger? cs).filter fun i => decide (InInt64 i)

/-- The exponent of a float: nothing, or `e` with digits that may begin with a zero. -/
def exponent? : List Char → Option Int
  | [] => some 0
  | c :: cs =>
    if c = 'e' ∨ c = 'E' then
      let (negative, ds) := Decimal.takeSign cs
      (digits? Digits.isDigit ds).map fun ds =>
        if negative then -(Digits.value ds : Int) else (Digits.value ds : Int)
    else none

/-- A float in digits: it has a fraction or an exponent or both. -/
def decimal? (cs : List Char) : Option Decimal := do
  let (negative, cs) := Decimal.takeSign cs
  let isPart (c : Char) : Bool := Digits.isDigit c || c = '_'
  let whole ← plainDigits? (cs.takeWhile isPart)
  match cs.dropWhile isPart with
  | [] => none
  | '.' :: cs => do
    let fraction ← digits? Digits.isDigit (cs.takeWhile isPart)
    let e ← exponent? (cs.dropWhile isPart)
    return ⟨negative, Digits.value (whole ++ fraction), e - fraction.length⟩
  | cs => return ⟨negative, Digits.value whole, ← exponent? cs⟩

/-- A float. Digits may stand for negative infinity, but not for the positive one. -/
def float? (cs : List Char) : Option Real64 :=
  let (negative, word) := Decimal.takeSign cs
  if word = "inf".toList then some (.infinite negative)
  else if word = "nan".toList then some .notANumber
  else (decimal? cs).bind fun d =>
    match d.real64 with
    | .infinite false => none
    | r => some r

/-- A number of a fixed count of digits between bounds, and what follows. -/
def field? (count low high : Nat) (cs : List Char) : Option (Nat × List Char) := do
  let ds := cs.take count
  if ds.length < count then none
  else
    let n ← Digits.toNat? ds
    if low ≤ n ∧ n ≤ high then some (n, cs.drop count) else none

def drop? (c : Char) (cs : List Char) : Option (List Char) := Text.dropFirst? [c] cs

def daysIn (year month : Nat) : Nat :=
  if month = 2 then
    if year % 4 = 0 ∧ (year % 100 ≠ 0 ∨ year % 400 = 0) then 29 else 28
  else if month ∈ [4, 6, 9, 11] then 30 else 31

def dropDate? (cs : List Char) : Option (List Char) := do
  let (year, cs) ← field? 4 0 9999 cs
  let (month, cs) ← field? 2 1 12 (← drop? '-' cs)
  let (_, cs) ← field? 2 1 (daysIn year month) (← drop? '-' cs)
  return cs

/-- What follows a time of day. Seconds are required, fractions of them are not. -/
def dropTime? (cs : List Char) : Option (List Char) := do
  let (_, cs) ← field? 2 0 23 cs
  let (_, cs) ← field? 2 0 59 (← drop? ':' cs)
  let (_, cs) ← field? 2 0 60 (← drop? ':' cs)
  match cs with
  | '.' :: c :: more =>
    if Digits.isDigit c then return more.dropWhile Digits.isDigit else return cs
  | _ => return cs

/-- Whether this is nothing, or the distance from universal time. -/
def isOffset : List Char → Bool
  | [] => true
  | ['Z'] => true
  | ['z'] => true
  | c :: cs =>
    (c = '+' || c = '-') && (do
      let (_, cs) ← field? 2 0 23 cs
      let (_, cs) ← field? 2 0 59 (← drop? ':' cs)
      return cs.isEmpty : Option Bool).getD false

/-- Whether a word is a date, a time of day or both. Only with a date can there be an offset. -/
def isMoment (cs : List Char) : Bool :=
  match dropDate? cs with
  | some [] => true
  | some (c :: cs) =>
    (c = 'T' || c = 't' || c = ' ') && (dropTime? cs).any isOffset
  | none => dropTime? cs = some []

/-- The value of a word. A float that is not finite is null, and a date or time is an object that
holds the word, so that neither passes for anything else. -/
def scalar? (word : List Char) : Option Value :=
  if word = "true".toList then some (.bool true)
  else if word = "false".toList then some (.bool false)
  else match integer? word, float? word with
    | some i, _ => some (.ofInt i)
    | none, some (.finite d) => some (.ofDouble d)
    | none, some _ => some .null
    | none, none =>
      if isMoment word then some (.obj [("date-time", .str (String.ofList word))]) else none

def takeWord (cs : List Char) : List Char × List Char :=
  let word := cs.takeWhile isWordChar
  let rest := cs.dropWhile isWordChar
  match dropDate? word, rest with
  | some [], ' ' :: c :: more =>
    if Digits.isDigit c then
      (word ++ ' ' :: (c :: more).takeWhile isWordChar, (c :: more).dropWhile isWordChar)
    else (word, rest)
  | _, _ => (word, rest)

example : integer? "1_000".toList = some 1000 ∧ integer? "0x1F".toList = some 31 ∧
    integer? "007".toList = none ∧ integer? "1__0".toList = none := by decide +kernel

example : isMoment "1979-05-27 07:32:00Z".toList = true ∧
    isMoment "1979-02-29".toList = false ∧ isMoment "07:32".toList = false := by decide +kernel

end WorkflowGraph.Toml
