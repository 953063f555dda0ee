/- File paths as lists of parts, and the pieces of a file name. -/

import WorkflowGraph.Text.Search

set_option autoImplicit false
set_option relaxedAutoImplicit false

/-!
Two texts name the same path when they have the same parts: repeated separators, a separator at the
end and parts that are a single dot do not count, except for a dot at the very beginning. A part
`..` is kept, because what it leads to is not a matter of the text.
-/

namespace WorkflowGraph

structure Path where
  absolute : Bool
  parts : List String
deriving DecidableEq

namespace Path

/-- The parts of a text without those that do not count. -/
def countedParts (pieces : List String) : List String :=
  pieces.filter fun p => p ≠ "" ∧ p ≠ "."

def ofText (s : String) : Path :=
  match (Text.splitOn '/' s.toList).map String.ofList with
  | "" :: rest => ⟨s ≠ "", countedParts rest⟩
  | "." :: rest => ⟨false, "." :: countedParts rest⟩
  | pieces => ⟨false, countedParts pieces⟩

/-- The path that a text names where it is used for access: a separator or a dot at the end asks for
a directory, which a dot as the last part keeps. -/
def exactly (s : String) : Path :=
  let p := ofText s
  match (Text.splitOn '/' s.toList).getLast? with
  | some [] => if p.parts.isEmpty then p else ⟨p.absolute, p.parts ++ ["."]⟩
  | some ['.'] => if p.parts.getLast? = some "." then p else ⟨p.absolute, p.parts ++ ["."]⟩
  | _ => p

def toText (p : Path) : String := (if p.absolute then "/" else "") ++ Text.join "/" p.parts

/-- Whether the path has no parts and does not start at the root. -/
def isEmpty (p : Path) : Bool := !p.absolute && p.parts.isEmpty

def child (dir : Path) (name : String) : Path := ⟨dir.absolute, dir.parts ++ [name]⟩

/-- A path seen from a directory; one that starts at the root stays itself. -/
def join (dir p : Path) : Path :=
  if p.absolute || dir.isEmpty then p
  else ⟨dir.absolute, dir.parts ++ countedParts p.parts⟩

def parent? (p : Path) : Option Path :=
  if p.parts.isEmpty then none else some ⟨p.absolute, p.parts.dropLast⟩

def fileName? (p : Path) : Option String := p.parts.getLast?.filter fun n => n ≠ "." ∧ n ≠ ".."

/-- A file name cut at its last dot, with nothing after it if it has no dot but a leading one. -/
def cutName (name : String) : String × Option String :=
  match Text.cut? '.' name.toList.reverse with
  | none => (name, none)
  | some (_, []) => (name, none)
  | some (ending, stem) => (String.ofList stem.reverse, some (String.ofList ending.reverse))

def extension? (p : Path) : Option String := p.fileName?.bind fun n => (cutName n).2

theorem parent?_child (dir : Path) (name : String) : (dir.child name).parent? = some dir := by
  simp [child, parent?]

theorem fileName?_child {dir : Path} {name : String} (h : name ≠ "." ∧ name ≠ "..") :
    (dir.child name).fileName? = some name := by
  simp [child, fileName?, h]

example : cutName "a.b.json" = ("a.b", some "json") := by decide +kernel

example : cutName ".json" = (".json", none) := by decide +kernel

example : ofText "/a//./b/" = ⟨true, ["a", "b"]⟩ := by decide +kernel

end Path

end WorkflowGraph
