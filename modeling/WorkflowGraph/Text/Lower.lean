/- Lower-casing of Unicode text. -/

import WorkflowGraph.Text.LowerTable

set_option autoImplicit false
set_option relaxedAutoImplicit false

/-!
Every character is lowered on its own, by its full mapping, with one exception: the capital sigma at
the end of a word becomes the final sigma. A word ends there when a cased letter stands before it
and none after it, case-ignorable characters between them aside.
-/

namespace WorkflowGraph.Text

namespace CaseRun

def holds (r : CaseRun) (n : Nat) : Bool :=
  r.first ≤ n && n ≤ r.last && (n - r.first) % r.step == 0

def lower (r : CaseRun) (n : Nat) : Nat := ((n : Int) + r.offset).toNat

end CaseRun

def inRanges (ranges : List (Nat × Nat)) (n : Nat) : Bool :=
  ranges.any fun r => r.1 ≤ n && n ≤ r.2

def lowerChar (c : Char) : List Char :=
  let n := c.toNat
  if n < 128 then [c.toLower]
  else if n = 0x130 then ['i', Char.ofNat 0x307]
  else match caseRuns.find? (·.holds n) with
    | some r => [Char.ofNat (r.lower n)]
    | none => [c]

/-- Whether the first character that is not case-ignorable is a cased letter. -/
def casedFirst (cs : List Char) : Bool :=
  match cs.dropWhile fun c => inRanges caseIgnorableRanges c.toNat with
  | [] => false
  | c :: _ => inRanges casedRanges c.toNat

def capitalSigma : Char := Char.ofNat 0x3A3

/-- Lower case of the characters that follow `before`, which is kept in reverse. -/
def lowerFrom (before : List Char) : List Char → List Char
  | [] => []
  | c :: cs =>
    (if c = capitalSigma then
      [Char.ofNat (if casedFirst before && !casedFirst cs then 0x3C2 else 0x3C3)]
    else lowerChar c) ++ lowerFrom (c :: before) cs

def lower (s : String) : String := String.ofList (lowerFrom [] s.toList)

example : lower "ΟΔΟΣ" = "οδος" ∧ lower "ΣΑ" = "σα" := by decide +kernel

end WorkflowGraph.Text
