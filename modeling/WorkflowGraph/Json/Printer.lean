/- Writing a JSON value: in one line without spaces, and over several lines with indentation. -/

import WorkflowGraph.Json.Value
import WorkflowGraph.Number.Shortest

set_option autoImplicit false
set_option relaxedAutoImplicit false

namespace WorkflowGraph.Json

/-- One character inside a string. Quotes, backslashes and the characters below the space are
escaped, everything else stands for itself. -/
def writeChar (c : Char) : List Char :=
  if c = '"' then ['\\', '"']
  else if c = '\\' then ['\\', '\\']
  else if c = '\x08' then ['\\', 'b']
  else if c = '\x0c' then ['\\', 'f']
  else if c = '\n' then ['\\', 'n']
  else if c = '\r' then ['\\', 'r']
  else if c = '\t' then ['\\', 't']
  else if c.toNat < 0x20 then
    ['\\', 'u', '0', '0', Digits.hexChar (c.toNat / 16), Digits.hexChar (c.toNat % 16)]
  else [c]

def writeString (s : String) : List Char := '"' :: (s.toList.flatMap writeChar ++ ['"'])

/-- A number: an integer in decimal, a double with the fewest digits that read back. -/
def writeNumber : Number → List Char
  | .int i _ => Digits.ofInt i
  | .double d => FloatLayout.json.write d

def writeScalar : Value → List Char
  | .null => ['n', 'u', 'l', 'l']
  | .bool true => ['t', 'r', 'u', 'e']
  | .bool false => ['f', 'a', 'l', 's', 'e']
  | .num n => writeNumber n
  | .str s => writeString s
  | _ => []

mutual

def write : Value → List Char
  | .arr items => '[' :: (writeItems items ++ [']'])
  | .obj members => '\x7b' :: (writeMembers members ++ ['\x7d'])
  | v => writeScalar v

def writeItems : List Value → List Char
  | [] => []
  | [v] => write v
  | v :: rest => write v ++ ',' :: writeItems rest

def writeMembers : List (String × Value) → List Char
  | [] => []
  | [(k, v)] => writeString k ++ ':' :: write v
  | (k, v) :: rest => writeString k ++ ':' :: (write v ++ ',' :: writeMembers rest)

end

def newLine (level : Nat) : List Char := '\n' :: List.replicate (2 * level) ' '

mutual

/-- A value over several lines: each item and member on its own, empty containers closed at once. -/
def writeLines (level : Nat) : Value → List Char
  | .arr [] => ['[', ']']
  | .arr (v :: rest) =>
    '[' :: (newLine (level + 1) ++ (writeLines (level + 1) v ++
      (itemLines (level + 1) rest ++ (newLine level ++ [']']))))
  | .obj [] => ['\x7b', '\x7d']
  | .obj ((k, v) :: rest) =>
    '\x7b' :: (newLine (level + 1) ++ (writeString k ++ ':' :: ' ' :: (writeLines (level + 1) v ++
      (memberLines (level + 1) rest ++ (newLine level ++ ['\x7d'])))))
  | v => writeScalar v

def itemLines (level : Nat) : List Value → List Char
  | [] => []
  | v :: rest => ',' :: (newLine level ++ (writeLines level v ++ itemLines level rest))

def memberLines (level : Nat) : List (String × Value) → List Char
  | [] => []
  | (k, v) :: rest =>
    ',' :: (newLine level ++ (writeString k ++ ':' :: ' ' :: (writeLines level v ++
      memberLines level rest)))

end

end WorkflowGraph.Json

namespace WorkflowGraph.Value

def compact (v : Value) : String := String.ofList (Json.write v)

def pretty (v : Value) : String := String.ofList (Json.writeLines 0 v)

end WorkflowGraph.Value
