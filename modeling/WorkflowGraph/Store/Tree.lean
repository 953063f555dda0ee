/- A tree of files held in memory, as seen from a working directory. -/

import WorkflowGraph.Store.Basic

set_option autoImplicit false
set_option relaxedAutoImplicit false

/-!
A directory exists if a file lies somewhere below it. Paths are followed part by part from the root
or from the working directory, and every part but the last has to lead to a directory, even where
`..` leads out of it again.
-/

namespace WorkflowGraph

/-- Files by the parts of their paths from the root, and the working directory. -/
structure FileTree where
  files : List (List String × String)
  working : List String

namespace FileTree

inductive Content where
  | file (text : String)
  | directory
  | nothing
deriving DecidableEq

/-- What lies at a place given by its parts from the root. The root and the working directory with
all above it exist in any case. -/
def at_ (t : FileTree) (place : List String) : Content :=
  match Assoc.get? place t.files with
  | some text => .file text
  | none =>
    if place.isPrefixOf t.working ∨ (Assoc.keys t.files).any place.isPrefixOf then .directory
    else .nothing

def follow (t : FileTree) : List String → List String → Except IoFault (List String)
  | place, [] => .ok place
  | place, part :: rest =>
    match t.at_ place with
    | .file _ => .error .notDirectory
    | .nothing => .error .missing
    | .directory =>
      if part = "." then follow t place rest
      else if part = ".." then follow t place.dropLast rest
      else follow t (place ++ [part]) rest

/-- The place that a path leads to. The empty path leads nowhere. -/
def place (t : FileTree) (p : Path) : Except IoFault (List String) :=
  if p.isEmpty then .error .missing
  else t.follow (if p.absolute then [] else t.working) p.parts

def read (t : FileTree) (p : Path) : Except IoFault String := do
  match t.at_ (← t.place p) with
  | .file text => .ok text
  | .directory => .error .isDirectory
  | .nothing => .error .missing

def names (t : FileTree) (place : List String) : List String :=
  ((Assoc.keys t.files).filterMap fun file =>
    if place.isPrefixOf file then file[place.length]? else none).eraseDups

def list (t : FileTree) (p : Path) : Except IoFault (List Path) := do
  let place ← t.place p
  match t.at_ place with
  | .file _ => .error .notDirectory
  | .nothing => .error .missing
  | .directory =>
    let files := (t.names place).filter fun n => Assoc.contains (place ++ [n]) t.files
    .ok ((files.map p.child).mergeSort Store.byName)

def store (t : FileTree) : Store where
  holds p := (t.read p).toBool
  read := t.read
  list := t.list

/-- The place of a file that may be written. Its directory has to exist. -/
def placeToWrite (t : FileTree) (p : Path) : Except IoFault (List String) := do
  match p.parts.getLast? with
  | none => .error (if p.absolute then .isDirectory else .missing)
  | some last =>
    let above : Path := ⟨p.absolute, p.parts.dropLast⟩
    if last = "." ∨ last = ".." then
      match t.at_ (← if above.isEmpty then .ok t.working else t.place above) with
      | .file _ => .error .notDirectory
      | .directory => .error .isDirectory
      | .nothing => .error (if last = "." then .isDirectory else .missing)
    else
      let place ← t.place p
      match t.at_ place with
      | .directory => .error .isDirectory
      | _ => .ok place

def write (t : FileTree) (p : Path) (text : String) : Except IoFault FileTree := do
  let place ← t.placeToWrite p
  return { t with files := Assoc.insert place text t.files }

end FileTree

end WorkflowGraph
