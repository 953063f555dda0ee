/- Reading the scalars of a YAML text: quoted, plain, and blocks of lines. -/

import WorkflowGraph.Number.Digits
import WorkflowGraph.Yaml.Cursor

set_option autoImplicit false
set_option relaxedAutoImplicit false

namespace WorkflowGraph.Yaml

/-- The text of a scalar, and whether it is plain: only plain scalars denote more than a text. -/
structure Scalar where
  plain : Bool
  text : List Char
deriving DecidableEq

namespace Quoted

def simpleEscape? (c : Char) : Option Char :=
  match c with
  | '0' => some '\x00'
  | 'a' => some '\x07'
  | 'b' => some '\x08'
  | 't' => some '\t'
  | '\t' => some '\t'
  | 'n' => some '\n'
  | 'v' => some '\x0b'
  | 'f' => some '\x0c'
  | 'r' => some '\r'
  | 'e' => some '\x1b'
  | ' ' => some ' '
  | '"' => some '"'
  | '/' => some '/'
  | '\\' => some '\\'
  | 'N' => some '\u0085'
  | '_' => some '\u00a0'
  | 'L' => some '\u2028'
  | 'P' => some '\u2029'
  | _ => none

def codeLength? (c : Char) : Option Nat :=
  match c with
  | 'x' => some 2
  | 'u' => some 4
  | 'U' => some 8
  | _ => none

/-- The character of an escape by code: not a surrogate, and not beyond the last character. -/
def charOfCode? (digits : List Char) : Option Char := do
  let code ← Digits.toNatBase? 16 digits
  if h : code.isValidChar then some (Char.ofNatAux code h) else none

/-- The character of the escape after a backslash, and the number of characters that the escape
takes with its backslash. -/
def escape? (cs : List Char) : Option (Char × Nat) :=
  match cs with
  | [] => none
  | letter :: rest =>
    match simpleEscape? letter, codeLength? letter with
    | some c, _ => some (c, 2)
    | none, some n =>
      if (rest.take n).length < n then none
      else (charOfCode? (rest.take n)).map fun c => (c, n + 2)
    | none, none => none

/-- A stretch without spacing inside quotes, in reverse, after what was read before. It ends before
a quote or spacing; an escaped line break ends it too, and opens a gap of its own. -/
def stretch (single : Bool) : Nat → List Char → Cursor → Option (List Char × Gap × Cursor)
  | 0, _, _ => none
  | fuel + 1, acc, c =>
    match c.rest with
    | [] => some (acc, .none, c)
    | x :: rest =>
      if isSpacing x then some (acc, .none, c)
      else if single then
        if x = '\'' then
          if rest.head? = some '\'' then stretch single fuel ('\'' :: acc) (c.skip 2)
          else some (acc, .none, c)
        else stretch single fuel (x :: acc) (c.skip 1)
      else if x = '"' then some (acc, .none, c)
      else if x = '\\' then
        if rest.head?.any isBreak then some (acc, .joined, (c.skip 1).takeBreak.2)
        else match escape? rest with
          | some (y, n) => stretch single fuel (y :: acc) (c.skip n)
          | none => none
      else stretch single fuel (x :: acc) (c.skip 1)

/-- The text after an opening quote, in reverse, up to the closing one. -/
def body (single : Bool) : Nat → List Char → Cursor → Option (List Char × Cursor)
  | 0, _, _ => none
  | fuel + 1, acc, c =>
    if c.seesDocumentMarker || c.rest.isEmpty then none
    else do
      let (acc, gap, c) ← stretch single c.fuel acc c
      if c.sees (if single then '\'' else '"') then some (acc, c.skip 1)
      else do
        let (gap, c) ← gap.extend 0 c.fuel c
        body single fuel (gap.text.reverse ++ acc) c

def read (c : Cursor) : Option (Scalar × Cursor) := do
  let (acc, rest) ← body (c.sees '\'') c.fuel [] (c.skip 1)
  return (⟨false, acc.reverse⟩, rest)

end Quoted

namespace Plain

def isFlowIndicator (c : Char) : Bool := c = ',' || c = '[' || c = ']' || c = '\x7b' || c = '\x7d'

/-- The length of the stretch without spacing ahead. It ends before a colon at the end of a word,
and in a flow collection before an indicator; a colon directly before an indicator is an error
there. -/
def stretchLength (inFlow : Bool) : List Char → Option Nat
  | [] => some 0
  | x :: rest =>
    if isSpacing x then some 0
    else if inFlow && x = ':' && rest.head?.any (fun y => isFlowIndicator y || y = '?') then none
    else if (x = ':' && rest.head?.all isSpacing) || (inFlow && isFlowIndicator x) then some 0
    else (stretchLength inFlow rest).map (· + 1)

/-- The text of a plain scalar in reverse, with the gap before what may come next. The last gap is
not part of the scalar; whether it has a line break is reported. -/
def body (inFlow : Bool) (indent : Nat) :
    Nat → List Char → Gap → Cursor → Option (List Char × Bool × Cursor)
  | 0, _, _, _ => none
  | fuel + 1, acc, gap, c =>
    if c.seesDocumentMarker || c.sees '#' then some (acc, gap.broken, c)
    else do
      let n ← stretchLength inFlow c.rest
      let (acc, gap) :=
        if n = 0 then (acc, gap)
        else ((c.rest.take n).reverse ++ (gap.text.reverse ++ acc), Gap.none)
      let c := c.skip n
      if !c.seesAt 0 isSpacing then some (acc, gap.broken, c)
      else do
        let (gap, c) ← gap.extend indent c.fuel c
        if !inFlow && c.column < indent then some (acc, gap.broken, c)
        else body inFlow indent fuel acc gap c

/-- The plain scalar ahead, and whether a line break follows it. Outside flow collections its lines
are indented to a column at least. -/
def read (inFlow : Bool) (indent : Nat) (c : Cursor) : Option (Scalar × Bool × Cursor) := do
  let (acc, broken, rest) ← body inFlow indent c.fuel [] .none c
  return (⟨true, acc.reverse⟩, broken, rest)

end Plain

namespace Block

/-- What becomes of the line breaks at the end. -/
inductive Chomp where
  | strip
  | clip
  | keep
deriving DecidableEq

def chomp? (c : Char) : Option Chomp :=
  if c = '-' then some .strip else if c = '+' then some .keep else none

def increment? (c : Char) : Option Nat :=
  if Digits.isDigit c && c ≠ '0' then some (Digits.digitValue c) else none

/-- The marks after the indicator of a block, in either order. -/
def header (c : Cursor) : Option (Chomp × Option Nat × Cursor) :=
  let digitAt (c : Cursor) : Option (Option Nat × Cursor) :=
    match c.rest.head? with
    | some d => if Digits.isDigit d then (increment? d).map fun n => (some n, c.skip 1)
      else some (none, c)
    | none => some (none, c)
  match c.rest.head?.bind chomp? with
  | some chomp => do
    let (n, c) ← digitAt (c.skip 1)
    return (chomp, n, c)
  | none => do
    let (n, c) ← digitAt c
    match n, c.rest.head?.bind chomp? with
    | some n, some chomp => return (chomp, some n, c.skip 1)
    | n, _ => return (.clip, n, c)

/-- The empty lines ahead and the indentation of the line after them: the breaks, the widest
indentation seen, and where the text goes on. While the indentation is not known (zero) all spaces
count as indentation. -/
def emptyLines (indent : Nat) : Nat → List Char → Nat → Cursor → Option (List Char × Nat × Cursor)
  | 0, _, _, _ => none
  | fuel + 1, breaks, widest, c =>
    let spaces := (c.rest.takeWhile (· = ' ')).length
    let c := c.skip (if indent = 0 then spaces else min spaces (indent - c.column))
    let widest := max widest c.column
    if (indent = 0 || c.column < indent) && c.sees '\t' then none
    else if c.seesAt 0 isBreak then
      let (br, c) := c.takeBreak
      emptyLines indent fuel (breaks ++ br) widest c
    else some (breaks, widest, c)

/-- What has been read of a block: the text in reverse, the break after the last line, the empty
lines after it, and whether that line began with a blank. -/
structure Lines where
  acc : List Char
  last : List Char
  empty : List Char
  indented : Bool

/-- One more line. Folding turns a single break between lines that begin without a blank into a
space, and drops the break before empty lines. -/
def Lines.add (folded : Bool) (s : Lines) (line br : List Char) : Lines :=
  let indented := line.head?.any isBlank
  let sep :=
    if folded && s.last.head? = some '\n' && !s.indented && !indented then
      (if s.empty.isEmpty then [' '] else s.empty)
    else s.last ++ s.empty
  ⟨line.reverse ++ (sep.reverse ++ s.acc), br, [], indented⟩

def lines (folded : Bool) (indent : Nat) : Nat → Lines → Cursor → Option (Lines × Cursor)
  | 0, _, _ => none
  | fuel + 1, s, c =>
    if c.column ≠ indent || c.rest.isEmpty then some (s, c)
    else do
      let (line, c) := c.takeWhile fun x => !isBreak x
      let (br, c) := c.takeBreak
      let (breaks, _, c) ← emptyLines indent c.fuel [] 0 c
      lines folded indent fuel { s.add folded line br with empty := breaks } c

/-- The block whose indicator is next, inside a block whose column is given (below zero at the top
of a document). Without a digit the widest empty line or the first line decides the indentation. -/
def read (parent : Int) (c : Cursor) : Option (Scalar × Cursor) := do
  let folded := c.sees '>'
  let (chomp, increment, c) ← header (c.skip 1)
  let c ← c.finishLine
  let least := (parent + 1).toNat
  let given := match increment with
    | some n => if 0 ≤ parent then parent.toNat + n else n
    | none => 0
  let (breaks, widest, c) ← emptyLines given c.fuel [] 0 c
  let indent := if given = 0 then max (max widest least) 1 else given
  let (s, c) ← lines folded indent c.fuel ⟨[], [], breaks, false⟩ c
  let tail := match chomp with
    | .strip => []
    | .clip => s.last
    | .keep => s.last ++ s.empty
  return (⟨false, s.acc.reverse ++ tail⟩, c)

end Block

end WorkflowGraph.Yaml
