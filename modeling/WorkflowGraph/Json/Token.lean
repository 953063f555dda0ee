/- The tokens of a JSON text, found by one pass over its characters. -/

import WorkflowGraph.Json.Numeral

set_option autoImplicit false
set_option relaxedAutoImplicit false

namespace WorkflowGraph.Json

inductive Token where
  | openArr
  | closeArr
  | openObj
  | closeObj
  | comma
  | colon
  | scalar (v : Value)

def scalarOfWord? (cs : List Char) : Option Value :=
  if cs = "null".toList then some .null
  else if cs = "true".toList then some (.bool true)
  else if cs = "false".toList then some (.bool false)
  else none

/-- Where in a token the pass stands. Characters read so far are kept in reverse; a high surrogate
waits for the low one that has to follow it. -/
inductive Mode where
  | between
  | word (read : List Char)
  | numeral (read : List Char)
  | text (read : List Char) (high : Option Nat)
  | escape (read : List Char) (high : Option Nat)
  | unicode (read : List Char) (high : Option Nat) (missing : Nat) (code : Nat)

def isSpace (c : Char) : Bool := c == ' ' || c == '\t' || c == '\n' || c == '\r'

def isNumeral (c : Char) : Bool :=
  Digits.isDigit c || c == '-' || c == '+' || c == '.' || c == 'e' || c == 'E'

def between (c : Char) : Option (Mode × List Token) :=
  if isSpace c then some (.between, [])
  else if c = '"' then some (.text [] none, [])
  else if c = '[' then some (.between, [.openArr])
  else if c = ']' then some (.between, [.closeArr])
  else if c = '\x7b' then some (.between, [.openObj])
  else if c = '\x7d' then some (.between, [.closeObj])
  else if c = ',' then some (.between, [.comma])
  else if c = ':' then some (.between, [.colon])
  else if Digits.isDigit c || c == '-' then some (.numeral [c], [])
  else if c.isLower then some (.word [c], [])
  else none

def simpleEscape? (c : Char) : Option Char :=
  if c = '"' then some '"'
  else if c = '\\' then some '\\'
  else if c = '/' then some '/'
  else if c = 'b' then some '\x08'
  else if c = 'f' then some '\x0c'
  else if c = 'n' then some '\n'
  else if c = 'r' then some '\r'
  else if c = 't' then some '\t'
  else none

/-- The mode after a complete `\u` escape. A high surrogate waits; a low one needs a waiting high
one; nothing else may come while one waits. -/
def afterUnicode (read : List Char) (high : Option Nat) (code : Nat) : Option Mode :=
  match high with
  | some h =>
    if 0xDC00 ≤ code ∧ code < 0xE000 then
      some (.text (Char.ofNat (0x10000 + (h - 0xD800) * 0x400 + (code - 0xDC00)) :: read) none)
    else none
  | none =>
    if 0xD800 ≤ code ∧ code < 0xDC00 then some (.text read (some code))
    else if 0xDC00 ≤ code ∧ code < 0xE000 then none
    else some (.text (Char.ofNat code :: read) none)

/-- One character: the next mode and the tokens that are complete. -/
def lexStep (m : Mode) (c : Char) : Option (Mode × List Token) :=
  match m with
  | .between => between c
  | .word read =>
    if c.isLower then some (.word (c :: read), [])
    else do
      let v ← scalarOfWord? read.reverse
      let (m, ts) ← between c
      some (m, .scalar v :: ts)
  | .numeral read =>
    if isNumeral c then some (.numeral (c :: read), [])
    else do
      let n ← numberOfText? read.reverse
      let (m, ts) ← between c
      some (m, .scalar (.num n) :: ts)
  | .text read high =>
    if c = '\\' then some (.escape read high, [])
    else if high.isSome then none
    else if c = '"' then some (.between, [.scalar (.str (String.ofList read.reverse))])
    else if c.toNat < 0x20 then none
    else some (.text (c :: read) none, [])
  | .escape read high =>
    if c = 'u' then some (.unicode read high 4 0, [])
    else if high.isSome then none
    else (simpleEscape? c).map fun x => (.text (x :: read) none, [])
  | .unicode read high missing code =>
    match Digits.hexValue? c with
    | none => none
    | some d =>
      let code := 16 * code + d
      if missing ≤ 1 then (afterUnicode read high code).map fun m => (m, [])
      else some (.unicode read high (missing - 1) code, [])

/-- The pass over the characters, with the tokens found so far in reverse. -/
def lexRun : Mode → List Token → List Char → Option (Mode × List Token)
  | m, out, [] => some (m, out)
  | m, out, c :: cs =>
    match lexStep m c with
    | none => none
    | some (m, ts) => lexRun m (ts.reverse ++ out) cs

/-- The tokens of a text. The end of the text ends a word or a numeral. -/
def tokens? (cs : List Char) : Option (List Token) :=
  match lexRun .between [] cs with
  | some (.between, out) => some out.reverse
  | some (.word read, out) =>
    (scalarOfWord? read.reverse).map fun v => (Token.scalar v :: out).reverse
  | some (.numeral read, out) =>
    (numberOfText? read.reverse).map fun n => (Token.scalar (.num n) :: out).reverse
  | _ => none

end WorkflowGraph.Json
