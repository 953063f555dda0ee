/- The tokens of a YAML text, found by one pass over its characters. -/

import WorkflowGraph.Yaml.Scalar
import WorkflowGraph.Yaml.Tag

set_option autoImplicit false
set_option relaxedAutoImplicit false

/-!
Indentation becomes brackets: a block that starts deeper than the one around it opens, and a line
that is not as deep closes. Whether a key stands somewhere is known only at the colon after it. So
the pass leaves a spot wherever a key could begin, and notes at the colon that one begins there.
-/

namespace WorkflowGraph.Yaml

/-- A token. A sequence entry and the two parts of a pair have tokens of their own. -/
inductive Token where
  | directive (d : Directive)
  | documentStart
  | documentEnd
  | openBlockSeq
  | openBlockMap
  | closeBlock
  | openFlowSeq
  | closeFlowSeq
  | openFlowMap
  | closeFlowMap
  | blockEntry
  | flowEntry
  | key
  | value
  | alias (name : List Char)
  | anchor (name : List Char)
  | tag (t : Tag.Written)
  | scalar (s : Scalar)

/-- A token, or a spot at which a key may turn out to begin. -/
inductive Item where
  | token (t : Token)
  | spot (n : Nat)

/-- A spot that may still become a key: where it is, and whether the indentation demands a key. -/
structure Candidate where
  spot : Nat
  required : Bool
  index : Nat
  line : Nat
  column : Nat

structure Pass where
  cursor : Cursor
  /-- What was found, the last one first. -/
  out : List Item
  /-- The number of spots left so far. -/
  spots : Nat
  /-- The spots at which keys begin, and whether a block of pairs begins there too. -/
  keys : List (Nat × Bool)
  /-- The column of the innermost block, below zero outside all blocks. -/
  indent : Int
  /-- The columns of the blocks around it. -/
  outer : List Int
  /-- Whether a key may begin at this place. -/
  keyAllowed : Bool
  /-- The candidates outside flow collections and inside each open one, the innermost first. -/
  candidates : List (Option Candidate)

namespace Pass

def start (cs : List Char) : Pass := ⟨.start cs, [], 0, [], -1, [], true, [none]⟩

def inFlow (s : Pass) : Bool := 1 < s.candidates.length

def emit (s : Pass) (t : Token) : Pass := { s with out := .token t :: s.out }

def allowKey (s : Pass) (b : Bool) : Pass := { s with keyAllowed := b }

def emitSkip (s : Pass) (t : Token) (n : Nat) : Pass :=
  { s.emit t with cursor := s.cursor.skip n }

def column (s : Pass) : Int := s.cursor.column

/-- Go past blanks, comments and line breaks. Tabs count as blanks only where no key could begin. -/
def skipSpacing : Nat → Pass → Pass
  | 0, s => s
  | fuel + 1, s =>
    let c := s.cursor
    let c := if c.column = 0 ∧ c.sees '\uFEFF' then c.skip 1 else c
    let c := c.skipWhile fun x => x = ' ' || ((s.inFlow || !s.keyAllowed) && x = '\t')
    let c := c.skipComment
    if c.seesAt 0 isBreak then
      skipSpacing fuel { s with
        cursor := c.takeBreak.2
        keyAllowed := s.keyAllowed || !s.inFlow }
    else { s with cursor := c }

/-- A key lies on one line and has at most 1024 characters; a candidate beyond that is dropped,
which is an error if the indentation demands a key. -/
def refresh (s : Pass) : Option Pass := do
  let candidates ← s.candidates.mapM fun k =>
    match k with
    | none => some none
    | some k =>
      if k.line < s.cursor.line || k.index + 1024 < s.cursor.index then
        if k.required then none else some none
      else some (some k)
  return { s with candidates := candidates }

/-- Drop the innermost candidate, which is an error if the indentation demands a key. -/
def dropCandidate (s : Pass) : Option Pass :=
  match s.candidates with
  | some k :: rest => if k.required then none else some { s with candidates := none :: rest }
  | _ => some s

def leaveSpot (s : Pass) : Option Pass :=
  if !s.keyAllowed then some s
  else do
    let s ← s.dropCandidate
    let c := s.cursor
    let k : Candidate := ⟨s.spots, !s.inFlow && s.indent = s.column, c.index, c.line, c.column⟩
    return { s with
      out := .spot s.spots :: s.out
      spots := s.spots + 1
      candidates := some k :: s.candidates.drop 1 }

def closeBlocks (column : Int) : List Int → Pass → Pass
  | outer, s =>
    match outer with
    | [] => s
    | next :: outer =>
      if column < s.indent then
        closeBlocks column outer { s.emit .closeBlock with indent := next, outer := outer }
      else s

def unroll (column : Int) (s : Pass) : Pass :=
  if s.inFlow then s else closeBlocks column s.outer s

/-- Whether a block at a column would be deeper than the one around it. -/
def isDeeper (s : Pass) (column : Int) : Bool := !s.inFlow && s.indent < column

def deepen (s : Pass) (column : Int) : Pass :=
  { s with indent := column, outer := s.indent :: s.outer }

/-- Open a block at the cursor, if it is deeper than the one around it. -/
def openBlock (s : Pass) (t : Token) : Pass :=
  if s.isDeeper s.column then (s.deepen s.column).emit t else s

/-- The start or the end of a document, or a directive, closes everything. -/
def beginMarker (s : Pass) : Option Pass := do
  let s ← (s.unroll (-1)).dropCandidate
  return s.allowKey false

def readDirective (s : Pass) : Option Pass := do
  let s ← s.beginMarker
  let (d, c) ← Directive.read s.cursor
  return { s.emit (.directive d) with cursor := c }

def readMarker (s : Pass) (t : Token) : Option Pass := do
  return (← s.beginMarker).emitSkip t 3

def openFlow (s : Pass) (t : Token) : Option Pass := do
  let s ← s.leaveSpot
  return ({ s with candidates := none :: s.candidates }.allowKey true).emitSkip t 1

def closeFlow (s : Pass) (t : Token) : Option Pass := do
  let s ← s.dropCandidate
  let candidates := if s.inFlow then s.candidates.drop 1 else s.candidates
  return ({ s with candidates := candidates }.allowKey false).emitSkip t 1

def readFlowEntry (s : Pass) : Option Pass := do
  return ((← s.dropCandidate).allowKey true).emitSkip .flowEntry 1

def readBlockEntry (s : Pass) : Option Pass :=
  if !s.inFlow && !s.keyAllowed then none
  else do
    let s ← (s.openBlock .openBlockSeq).dropCandidate
    return (s.allowKey true).emitSkip .blockEntry 1

def readKey (s : Pass) : Option Pass :=
  if !s.inFlow && !s.keyAllowed then none
  else do
    let s ← (s.openBlock .openBlockMap).dropCandidate
    return (s.allowKey (!s.inFlow)).emitSkip .key 1

/-- A colon: the innermost candidate was a key, or else a pair has its key elsewhere. -/
def readValue (s : Pass) : Option Pass :=
  match s.candidates with
  | some k :: rest =>
    let s := { s with candidates := none :: rest }
    let opens := s.isDeeper k.column
    let s := { s with keys := (k.spot, opens) :: s.keys }
    let s := if opens then s.deepen k.column else s
    some ((s.allowKey false).emitSkip .value 1)
  | _ =>
    if !s.inFlow && !s.keyAllowed then none
    else some (((s.openBlock .openBlockMap).allowKey (!s.inFlow)).emitSkip .value 1)

def readAnchorAs (s : Pass) (t : List Char → Token) : Option Pass := do
  let s ← s.leaveSpot
  let (name, c) ← readAnchor s.cursor
  return { (s.allowKey false).emit (t name) with cursor := c }

def readTag (s : Pass) : Option Pass := do
  let s ← s.leaveSpot
  let (t, c) ← Tag.read s.inFlow s.cursor
  return { (s.allowKey false).emit (.tag t) with cursor := c }

def readBlockScalar (s : Pass) : Option Pass := do
  let s ← s.dropCandidate
  let (x, c) ← Block.read s.indent s.cursor
  return { (s.allowKey true).emit (.scalar x) with cursor := c }

def readQuoted (s : Pass) : Option Pass := do
  let s ← s.leaveSpot
  let (x, c) ← Quoted.read s.cursor
  return { (s.allowKey false).emit (.scalar x) with cursor := c }

def readPlain (s : Pass) : Option Pass := do
  let s ← s.leaveSpot
  let (x, broken, c) ← Plain.read s.inFlow (s.indent + 1).toNat s.cursor
  return { (s.allowKey broken).emit (.scalar x) with cursor := c }

def isIndicator (c : Char) : Bool := "-?:,[]\x7b\x7d#&*!|>'\"%@\x60".toList.contains c

def beginsPlain (s : Pass) (x : Char) : Bool :=
  !(isSpacing x || isIndicator x) ||
    (x = '-' && !s.cursor.seesAt 1 isBlank) ||
    (!s.inFlow && (x = '?' || x = ':') && !s.cursor.endsAt 1)

def readToken (s : Pass) (x : Char) : Option Pass :=
  let c := s.cursor
  if c.column = 0 ∧ x = '%' then s.readDirective
  else if c.seesMarker '-' then s.readMarker .documentStart
  else if c.seesMarker '.' then s.readMarker .documentEnd
  else if x = '[' then s.openFlow .openFlowSeq
  else if x = '\x7b' then s.openFlow .openFlowMap
  else if x = ']' then s.closeFlow .closeFlowSeq
  else if x = '\x7d' then s.closeFlow .closeFlowMap
  else if x = ',' then s.readFlowEntry
  else if x = '-' ∧ c.endsAt 1 then s.readBlockEntry
  else if x = '?' ∧ (s.inFlow ∨ c.endsAt 1) then s.readKey
  else if x = ':' ∧ (s.inFlow ∨ c.endsAt 1) then s.readValue
  else if x = '*' then s.readAnchorAs .alias
  else if x = '&' then s.readAnchorAs .anchor
  else if x = '!' then s.readTag
  else if (x = '|' ∨ x = '>') ∧ !s.inFlow then s.readBlockScalar
  else if x = '\'' ∨ x = '"' then s.readQuoted
  else if s.beginsPlain x then s.readPlain
  else none

/-- The end of the text closes all blocks. It stands on a line of its own. -/
def finish (s : Pass) : Option Pass := (s.unroll (-1)).dropCandidate

def run : Nat → Pass → Option Pass
  | 0, _ => none
  | fuel + 1, s => do
    let s := skipSpacing s.cursor.fuel s
    let s ← s.refresh
    let s := s.unroll s.column
    match s.cursor.rest with
    | [] => s.finish
    | x :: _ => run fuel (← s.readToken x)

/-- The tokens in order, with those of keys at their spots. -/
def tokens (s : Pass) : List Token :=
  s.out.reverse.flatMap fun
    | .token t => [t]
    | .spot n =>
      match s.keys.find? fun p => p.1 = n with
      | some (_, true) => [.openBlockMap, .key]
      | some (_, false) => [.key]
      | none => []

end Pass

/-- The tokens of a text. A mark of the byte order before the text does not belong to it. -/
def tokens? (cs : List Char) : Option (List Token) :=
  let cs := match cs with
    | '\uFEFF' :: rest => rest
    | cs => cs
  if cs.all isAllowed then (Pass.run (cs.length + 1) (Pass.start cs)).map Pass.tokens else none

end WorkflowGraph.Yaml
