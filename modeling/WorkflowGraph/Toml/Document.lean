/- The value of a TOML text. -/

import WorkflowGraph.Toml.Quote
import WorkflowGraph.Toml.Scalar
import WorkflowGraph.Toml.Table

set_option autoImplicit false
set_option relaxedAutoImplicit false

/-!
A text is a list of statements, each on lines of its own: a header, or a key with a value. The
reading of statements and their meaning are separate, since a text with a statement that cannot be
carried out has no value, no matter what else is in it.
-/

namespace WorkflowGraph.Toml

def maxDepth : Nat := 79

def maxParts : Nat := 79

def isKeyChar (c : Char) : Bool := c.isAlphanum || c = '_' || c = '-'

/-- What follows blanks, line breaks and comments; the flag tells whether a comment has begun. -/
def dropLayout? : Bool → List Char → Option (List Char)
  | _, [] => some []
  | _, '\n' :: cs => dropLayout? false cs
  | _, '\r' :: '\n' :: cs => dropLayout? false cs
  | true, c :: cs => if isAllowed c then dropLayout? true cs else none
  | false, c :: cs =>
    if isBlank c then dropLayout? false cs
    else if c = '#' then dropLayout? true cs
    else some (c :: cs)

/-- The rest of a line that holds nothing more than blanks and a comment. -/
def endLine? (cs : List Char) : Option (List Char) :=
  let cs := cs.dropWhile isBlank
  if cs.isEmpty || cs.head? = some '#' || (dropBreak? cs).isSome then some cs else none

def part? : List Char → Option (String × List Char)
  | '"' :: cs => line? '"' cs
  | '\'' :: cs => line? '\'' cs
  | cs =>
    let name := cs.takeWhile isKeyChar
    if name.isEmpty then none else some (String.ofList name, cs.dropWhile isKeyChar)

/-- A key of at most a number of parts with dots between them: its parents, its last part, and what
follows it and the blanks after it. -/
def key? : Nat → List Char → Option ((List String × String) × List Char)
  | 0, _ => none
  | n + 1, cs => do
    let (part, cs) ← part? (cs.dropWhile isBlank)
    match cs.dropWhile isBlank with
    | '.' :: cs => do
      let ((parents, last), cs) ← key? n cs
      return ((part :: parents, last), cs)
    | cs => return (([], part), cs)

/-- A key with its parents, and a value. -/
structure Pair where
  parents : List String
  key : String
  value : Value

def pair? (value? : List Char → Option (Value × List Char)) (cs : List Char) :
    Option (Pair × List Char) := do
  let ((parents, key), cs) ← key? maxParts cs
  let cs ← drop? '=' cs
  let (v, cs) ← value? (cs.dropWhile isBlank)
  return (⟨parents, key, v⟩, cs)

/-- The items of an array up to its end. Line breaks and comments may stand around them, and a comma
may follow the last one. -/
def items? (value? : List Char → Option (Value × List Char)) :
    Nat → List Char → Option (List Value × List Char)
  | 0, _ => none
  | fuel + 1, cs => do
    match ← dropLayout? false cs with
    | ']' :: cs => return ([], cs)
    | cs => do
      let (v, cs) ← value? cs
      match ← dropLayout? false cs with
      | ',' :: cs => do
        let (vs, cs) ← items? value? fuel cs
        return (v :: vs, cs)
      | ']' :: cs => return ([v], cs)
      | _ => none

/-- The members of an inline table up to its end, at least one and all on one line. -/
def inline? (value? : List Char → Option (Value × List Char)) :
    Nat → List Char → Option (List Pair × List Char)
  | 0, _ => none
  | fuel + 1, cs => do
    let (p, cs) ← pair? value? cs
    match cs.dropWhile isBlank with
    | ',' :: cs => do
      let (ps, cs) ← inline? value? fuel cs
      return (p :: ps, cs)
    | '}' :: cs => return ([p], cs)
    | _ => none

def Members.addAll (pairs : List Pair) (members : Members) : Option Members :=
  pairs.foldlM (fun ms p => ms.addDotted p.parents p.key p.value) members

/-- A value in which arrays and inline tables lie inside each other to at most a depth. -/
def value? : Nat → List Char → Option (Value × List Char)
  | _, '"' :: '"' :: '"' :: cs => (lines? '"' cs).map fun (s, cs) => (.str s, cs)
  | _, '\'' :: '\'' :: '\'' :: cs => (lines? '\'' cs).map fun (s, cs) => (.str s, cs)
  | _, '"' :: cs => (line? '"' cs).map fun (s, cs) => (.str s, cs)
  | _, '\'' :: cs => (line? '\'' cs).map fun (s, cs) => (.str s, cs)
  | 0, '[' :: _ => none
  | 0, '{' :: _ => none
  | depth + 1, '[' :: cs => do
    let (vs, cs) ← items? (value? depth) (cs.length + 1) cs
    return (.arr vs, cs)
  | depth + 1, '{' :: cs =>
    match cs.dropWhile isBlank with
    | '}' :: cs => some (.obj [], cs)
    | cs => do
      let (ps, cs) ← inline? (value? depth) (cs.length + 1) cs
      let members ← Members.addAll ps []
      return (.obj (memberValues members), cs)
  | _, cs =>
    let (word, cs) := takeWord cs
    (scalar? word).map fun v => (v, cs)

inductive Statement where
  | table (parents : List String) (key : String)
  | element (parents : List String) (key : String)
  | pair (p : Pair)

def statement? : List Char → Option (Statement × List Char)
  | '[' :: '[' :: cs => do
    let ((parents, key), cs) ← key? maxParts cs
    let cs ← Text.dropFirst? [']', ']'] cs
    return (.element parents key, cs)
  | '[' :: cs => do
    let ((parents, key), cs) ← key? maxParts cs
    let cs ← drop? ']' cs
    return (.table parents key, cs)
  | cs => do
    let (p, cs) ← pair? (value? maxDepth) cs
    return (.pair p, cs)

def statements? : Nat → List Char → Option (List Statement)
  | 0, _ => none
  | fuel + 1, cs => do
    match ← dropLayout? false cs with
    | [] => return []
    | cs => do
      let (s, cs) ← statement? cs
      let rest ← statements? fuel (← endLine? cs)
      return s :: rest

/-- A document so far: the root table, and the path to the table that keys are added to. -/
structure Draft where
  root : Members
  current : List String

def Draft.apply (d : Draft) : Statement → Option Draft
  | .table parents key => do
    return ⟨← d.root.beginTable parents key, parents ++ [key]⟩
  | .element parents key => do
    return ⟨← d.root.beginElement parents key, parents ++ [key]⟩
  | .pair p => do
    let root ← Members.within false (fun _ members => members.addDotted p.parents p.key p.value)
      d.current .header d.root
    return ⟨root, d.current⟩

/-- The table that a TOML text stands for, if the text is sound. A byte order mark before it does
not count. -/
def parse? (text : String) : Option Object := do
  let cs := match text.toList with
    | '\uFEFF' :: cs => cs
    | cs => cs
  let statements ← statements? (cs.length + 1) cs
  let draft ← statements.foldlM Draft.apply ⟨[], []⟩
  return memberValues draft.root

end WorkflowGraph.Toml
