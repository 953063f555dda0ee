/- Reading anchors, tags and directives of a YAML text. -/

import WorkflowGraph.Number.Digits
import WorkflowGraph.Yaml.Cursor

set_option autoImplicit false
set_option relaxedAutoImplicit false

namespace WorkflowGraph.Yaml

def readAnchor (c : Cursor) : Option (List Char × Cursor) :=
  let (name, c) := (c.skip 1).takeWhile isNameChar
  let ends := c.endsAt 0 || c.seesAt 0 fun x => "?:,]\x7d%@\x60".toList.contains x
  if name.isEmpty || !ends then none else some (name, c)

namespace Tag

def isTagChar (c : Char) : Bool := isNameChar c || ";/?:@&=+$.!~*'()".toList.contains c

/-- Characters that a tag may hold only between angle brackets or in a directive. -/
def isWideTagChar (c : Char) : Bool := c = ',' || c = '[' || c = ']'

/-- The octets of a run of escapes of the form `%XX`. -/
def octets : Nat → List Char → List Nat × List Char
  | fuel + 1, '%' :: a :: b :: rest =>
    match Digits.toNatBase? 16 [a, b] with
    | some n =>
      let (more, rest) := octets fuel rest
      (n :: more, rest)
    | none => ([], '%' :: a :: b :: rest)
  | _, rest => ([], rest)

def octetCount? (first : Nat) : Option Nat :=
  if first < 0x80 then some 1
  else if 0xC0 ≤ first ∧ first < 0xE0 then some 2
  else if 0xE0 ≤ first ∧ first < 0xF0 then some 3
  else if 0xF0 ≤ first ∧ first < 0xF8 then some 4
  else none

/-- The character of an escape, which takes one `%XX` for each octet. -/
def escape? (cs : List Char) : Option (Char × Nat) := do
  let (first, _) ← match octets 1 cs with
    | ([n], rest) => some (n, rest)
    | _ => none
  let count ← octetCount? first
  let all := (octets count cs).1
  if all.length < count then none
  else
    let tail := all.drop 1
    if tail.any fun n => n < 0x80 || 0xC0 ≤ n then none
    else
      let lead := if count = 1 then first else first % Nat.pow 2 (7 - count)
      some (Char.ofNat (tail.foldl (fun acc n => acc * 64 + n % 64) lead), 3 * count)

def uri (wide : Bool) : Nat → List Char → Cursor → Option (List Char × Cursor)
  | 0, _, _ => none
  | fuel + 1, acc, c =>
    match c.rest with
    | [] => some (acc, c)
    | x :: _ =>
      if x = '%' then
        match escape? c.rest with
        | some (y, n) => uri wide fuel (y :: acc) (c.skip n)
        | none => none
      else if isTagChar x || (wide && isWideTagChar x) then uri wide fuel (x :: acc) (c.skip 1)
      else some (acc, c)

def handle (c : Cursor) : List Char × Cursor :=
  let (name, c) := (c.skip 1).takeWhile isNameChar
  if c.sees '!' then ('!' :: (name ++ ['!']), c.skip 1) else ('!' :: name, c)

/-- A tag as it is written: the handle, empty if the rest is the whole tag, and the rest. -/
structure Written where
  handle : List Char
  suffix : List Char

def read (inFlow : Bool) (c : Cursor) : Option (Written × Cursor) := do
  let (tag, c) ←
    if c.seesAt 1 (· = '<') then do
      let (acc, c) ← uri true c.fuel [] (c.skip 2)
      if acc.isEmpty || !c.sees '>' then none else some (⟨[], acc.reverse⟩, c.skip 1)
    else
      let (h, c) := handle c
      if 1 < h.length ∧ h.getLast? = some '!' then do
        let (acc, c) ← uri false c.fuel [] c
        if acc.isEmpty then none else some (⟨h, acc.reverse⟩, c)
      else do
        let (acc, c) ← uri false c.fuel (h.drop 1).reverse c
        some (if acc.isEmpty then ⟨[], ['!']⟩ else ⟨['!'], acc.reverse⟩, c)
  if c.endsAt 0 || (inFlow && c.sees ',') then some (tag, c) else none

/-- What the handles stand for: a shorthand and the beginning of the tag that it is short for. -/
abbrev Handles := List (List Char × List Char)

def coreHandles : Handles :=
  [("!".toList, "!".toList), ("!!".toList, "tag:yaml.org,2002:".toList)]

/-- The tag in full. An unknown handle is an error. -/
def Written.resolve (handles : Handles) (t : Written) : Option (List Char) :=
  if t.handle.isEmpty then some t.suffix
  else (handles.find? fun p => p.1 = t.handle).map fun p => p.2 ++ t.suffix

end Tag

inductive Directive where
  | version (major minor : Nat)
  | tag (handle start : List Char)
deriving DecidableEq

namespace Directive

def versionNumber (c : Cursor) : Option (Nat × Cursor) :=
  let (digits, c) := c.takeWhile Digits.isDigit
  if 9 < digits.length then none else (Digits.toNat? digits).map fun n => (n, c)

def readVersion (c : Cursor) : Option (Directive × Cursor) := do
  let (major, c) ← versionNumber (c.skipWhile isBlank)
  if !c.sees '.' then none
  else do
    let (minor, c) ← versionNumber (c.skip 1)
    return (.version major minor, c)

def readTag (c : Cursor) : Option (Directive × Cursor) := do
  let c := c.skipWhile isBlank
  if !c.sees '!' then none
  else
    let (h, c) := Tag.handle c
    if h.getLast? ≠ some '!' || !c.seesAt 0 isBlank then none
    else do
      let (acc, c) ← Tag.uri true c.fuel [] (c.skipWhile isBlank)
      if acc.isEmpty || !c.endsAt 0 then none else return (.tag h acc.reverse, c)

/-- The directive whose percent sign is next, and the rest of its line. -/
def read (c : Cursor) : Option (Directive × Cursor) := do
  let (name, c) := (c.skip 1).takeWhile isNameChar
  if !c.endsAt 0 then none
  else do
    let (d, c) ←
      if name = "YAML".toList then readVersion c
      else if name = "TAG".toList then readTag c
      else none
    return (d, ← c.finishLine)

end Directive

end WorkflowGraph.Yaml
