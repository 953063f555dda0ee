/- Quoted texts of TOML, of one line and of several, with escapes and as they stand. -/

import WorkflowGraph.Number.Digits

set_option autoImplicit false
set_option relaxedAutoImplicit false

/-!
Every function here begins at the characters after an opening quote and ends after the closing one.
The number of steps is bounded by the number of characters.
-/

namespace WorkflowGraph.Toml

def isBlank (c : Char) : Bool := c = ' ' || c = '\t'

/-- Characters that may stand in a line: all but the control characters of ASCII other than tabs. -/
def isAllowed (c : Char) : Bool :=
  c = '\t' || (32 ≤ c.toNat && c.toNat ≤ 126) || 128 ≤ c.toNat

/-- What follows a line feed, or a carriage return with a line feed. -/
def dropBreak? : List Char → Option (List Char)
  | '\n' :: cs => some cs
  | '\r' :: '\n' :: cs => some cs
  | _ => none

def dropSpacing : List Char → List Char
  | '\n' :: cs => dropSpacing cs
  | '\r' :: '\n' :: cs => dropSpacing cs
  | c :: cs => if isBlank c then dropSpacing cs else c :: cs
  | [] => []

/-- The character of a number in hexadecimal, unless it is one of a surrogate or too large. -/
def codePoint? (digits : List Char) : Option Char :=
  (Digits.toNatBase? 16 digits).bind fun n =>
    if h : n.isValidChar then some (Char.ofNatAux n h) else none

def escape? : List Char → Option (Char × List Char)
  | 'b' :: cs => some ('\x08', cs)
  | 'f' :: cs => some ('\x0c', cs)
  | 'n' :: cs => some ('\n', cs)
  | 'r' :: cs => some ('\r', cs)
  | 't' :: cs => some ('\t', cs)
  | '"' :: cs => some ('"', cs)
  | '\\' :: cs => some ('\\', cs)
  | 'u' :: cs => if cs.length < 4 then none else (codePoint? (cs.take 4)).map (·, cs.drop 4)
  | 'U' :: cs => if cs.length < 8 then none else (codePoint? (cs.take 8)).map (·, cs.drop 8)
  | _ => none

/-- A text of one line up to its quote. Only texts in double quotes have escapes. -/
def lineUpTo (quote : Char) : Nat → List Char → Option (List Char × List Char)
  | 0, _ => none
  | fuel + 1, cs =>
    match cs with
    | [] => none
    | c :: cs =>
      if c = quote then some ([], cs)
      else if c = '\\' ∧ quote = '"' then do
        let (x, cs) ← escape? cs
        let (text, cs) ← lineUpTo quote fuel cs
        return (x :: text, cs)
      else if isAllowed c then do
        let (text, cs) ← lineUpTo quote fuel cs
        return (c :: text, cs)
      else none

/-- A text of several lines up to three quotes. Up to two more quotes right before these belong to
the text. A line break is read as a line feed, and a backslash at the end of a line of a text in
double quotes joins it with the next text. -/
def linesUpTo (quote : Char) : Nat → List Char → Option (List Char × List Char)
  | 0, _ => none
  | fuel + 1, cs =>
    match cs with
    | [] => none
    | c :: rest =>
      if c = quote then
        let count := (cs.takeWhile (· = quote)).length
        let after := cs.dropWhile (· = quote)
        if 5 < count then none
        else if 3 ≤ count then some (List.replicate (count - 3) quote, after)
        else do
          let (text, cs) ← linesUpTo quote fuel after
          return (List.replicate count quote ++ text, cs)
      else if c = '\\' ∧ quote = '"' then
        match dropBreak? (rest.dropWhile isBlank) with
        | some cs => linesUpTo quote fuel (dropSpacing cs)
        | none => do
          let (x, cs) ← escape? rest
          let (text, cs) ← linesUpTo quote fuel cs
          return (x :: text, cs)
      else match dropBreak? cs with
        | some cs => do
          let (text, cs) ← linesUpTo quote fuel cs
          return ('\n' :: text, cs)
        | none =>
          if isAllowed c then do
            let (text, cs) ← linesUpTo quote fuel rest
            return (c :: text, cs)
          else none

def line? (quote : Char) (cs : List Char) : Option (String × List Char) :=
  (lineUpTo quote (cs.length + 1) cs).map fun (text, cs) => (String.ofList text, cs)

/-- A text of several lines after its opening quotes. A line break right there does not count. -/
def lines? (quote : Char) (cs : List Char) : Option (String × List Char) :=
  (linesUpTo quote (cs.length + 1) ((dropBreak? cs).getD cs)).map fun (text, cs) =>
    (String.ofList text, cs)

example : line? '"' "a\\u00e9\" b".toList = some ("aé", " b".toList) := by decide +kernel

example : lines? '"' "\na\\\n  b\"\"\"\"".toList = some ("ab\"", []) := by decide +kernel

end WorkflowGraph.Toml
