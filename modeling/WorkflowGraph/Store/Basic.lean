/- Stores of documents: which files there are, what they hold, and how access to them can fail. -/

import WorkflowGraph.Path
import WorkflowGraph.Assoc

set_option autoImplicit false
set_option relaxedAutoImplicit false

namespace WorkflowGraph

/-- Why a file or directory could not be accessed. -/
inductive IoFault where
  | missing
  | isDirectory
  | notDirectory
  | other (text : String)
deriving DecidableEq

namespace IoFault

def message : IoFault → String
  | missing => "No such file or directory (os error 2)"
  | isDirectory => "Is a directory (os error 21)"
  | notDirectory => "Not a directory (os error 20)"
  | other text => text

end IoFault

/-- Read access to documents. The answers depend on the path alone: a store is what storage holds at
one time. -/
structure Store where
  /-- Whether a path is a file. -/
  holds : Path → Bool
  /-- The text of a file. -/
  read : Path → Except IoFault String
  /-- The files directly inside a directory, in the order of their names. -/
  list : Path → Except IoFault (List Path)

namespace Store

def byName (p q : Path) : Bool := p.fileName?.getD "" ≤ q.fileName?.getD ""

/-- A store with files held in memory, some of which cannot be read. Every directory but those that
cannot be listed exists. -/
def ofFiles (files : List (Path × String)) (unreadable unlisted : List Path) : Store where
  holds p := Assoc.contains p files
  read p :=
    if p ∈ unreadable then .error (.other "the file cannot be read")
    else match Assoc.get? p files with
      | some text => .ok text
      | none => .error .missing
  list dir :=
    if dir ∈ unlisted then .error .missing
    else .ok (((Assoc.keys files).filter fun p => p.parent? = some dir).mergeSort byName)

end Store

end WorkflowGraph
