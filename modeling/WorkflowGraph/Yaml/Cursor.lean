/- A position in a YAML text: the characters ahead, and where in the text they are. -/

set_option autoImplicit false
set_option relaxedAutoImplicit false

/-!
Lines are told apart by line feeds, carriage returns, the pair of both, and three characters beyond
ASCII. All but the separators U+2028 and U+2029 are read as a line feed.
-/

namespace WorkflowGraph.Yaml

def isBlank (c : Char) : Bool := c = ' ' || c = '\t'

def isBreak (c : Char) : Bool :=
  c = '\n' || c = '\r' || c = '\u0085' || c = '\u2028' || c = '\u2029'

def isSpacing (c : Char) : Bool := isBlank c || isBreak c

def isAllowed (c : Char) : Bool :=
  let n := c.toNat
  n = 9 || n = 10 || n = 13 || (32 ≤ n && n ≤ 126) || n = 0x85 ||
    (0xA0 ≤ n && n ≤ 0xD7FF) || (0xE000 ≤ n && n ≤ 0xFFFD) || 0x10000 ≤ n

def isNameChar (c : Char) : Bool := c.isAlphanum || c = '_' || c = '-'

/-- The characters ahead, with the index, line and column of the first of them. -/
structure Cursor where
  rest : List Char
  index : Nat
  line : Nat
  column : Nat

namespace Cursor

def start (cs : List Char) : Cursor := ⟨cs, 0, 0, 0⟩

/-- A bound on the steps of a loop that consumes characters. -/
def fuel (c : Cursor) : Nat := c.rest.length + 1

def sees (c : Cursor) (x : Char) : Bool := c.rest.head? = some x

def seesAt (c : Cursor) (n : Nat) (p : Char → Bool) : Bool := c.rest[n]?.any p

/-- Whether a blank, a line break or the end comes a number of characters ahead. -/
def endsAt (c : Cursor) (n : Nat) : Bool := c.rest[n]?.all isSpacing

def endsLine (c : Cursor) : Bool := c.rest.head?.all isBreak

def skip (c : Cursor) (n : Nat) : Cursor :=
  ⟨c.rest.drop n, c.index + n, c.line, c.column + n⟩

/-- The characters up to the first that fails a condition, all of one line. -/
def takeWhile (c : Cursor) (p : Char → Bool) : List Char × Cursor :=
  let taken := c.rest.takeWhile p
  (taken, c.skip taken.length)

def skipWhile (c : Cursor) (p : Char → Bool) : Cursor := (c.takeWhile p).2

/-- Go past a line break, and what it is read as; nothing where there is none. -/
def takeBreak (c : Cursor) : List Char × Cursor :=
  match c.rest with
  | '\r' :: '\n' :: rest => (['\n'], ⟨rest, c.index + 2, c.line + 1, 0⟩)
  | x :: rest =>
    if x = '\n' ∨ x = '\r' ∨ x = '\u0085' then (['\n'], ⟨rest, c.index + 1, c.line + 1, 0⟩)
    else if isBreak x then ([x], ⟨rest, c.index + 1, c.line + 1, 0⟩)
    else ([], c)
  | [] => ([], c)

def skipComment (c : Cursor) : Cursor :=
  if c.sees '#' then c.skipWhile fun x => !isBreak x else c

/-- The end of a line that may have blanks and a comment before it. -/
def finishLine (c : Cursor) : Option Cursor :=
  let c := (c.skipWhile isBlank).skipComment
  if c.endsLine then some c.takeBreak.2 else none

/-- Whether a marker of three characters stands alone at the beginning of the line. -/
def seesMarker (c : Cursor) (x : Char) : Bool :=
  c.column = 0 && c.rest.take 3 == [x, x, x] && c.endsAt 3

/-- Whether the line begins with the mark of the start or the end of a document. -/
def seesDocumentMarker (c : Cursor) : Bool := c.seesMarker '-' || c.seesMarker '.'

end Cursor

/-- What stands between two stretches of text within a scalar: blanks of one line, or a first line
break and those after it. -/
structure Gap where
  blanks : List Char
  broken : Bool
  first : List Char
  more : List Char

namespace Gap

def none : Gap := ⟨[], false, [], []⟩

/-- A gap that begins with a line break that does not count. -/
def joined : Gap := ⟨[], true, [], []⟩

/-- What a gap is read as: a single line feed folds into a space, further breaks stay. -/
def text (g : Gap) : List Char :=
  if !g.broken then g.blanks
  else if g.first = ['\n'] then (if g.more.isEmpty then [' '] else g.more)
  else g.first ++ g.more

/-- Extend a gap by the blanks and breaks ahead. After a break, no tab may be left of a column. -/
def extend (column : Nat) : Nat → Gap → Cursor → Option (Gap × Cursor)
  | 0, g, c => some (g, c)
  | fuel + 1, g, c =>
    match c.rest with
    | [] => some (g, c)
    | x :: _ =>
      if isBlank x then
        if !g.broken then extend column fuel { g with blanks := g.blanks ++ [x] } (c.skip 1)
        else if x = '\t' ∧ c.column < column then .none
        else extend column fuel g (c.skip 1)
      else if isBreak x then
        let (br, c) := c.takeBreak
        if g.broken then extend column fuel { g with more := g.more ++ br } c
        else extend column fuel ⟨[], true, br, []⟩ c
      else some (g, c)

end Gap

end WorkflowGraph.Yaml
