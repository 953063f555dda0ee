/- A store of what was found on looking at paths and directories once. -/

import WorkflowGraph.Store.Basic

set_option autoImplicit false
set_option relaxedAutoImplicit false

namespace WorkflowGraph

/-- What was found at a path. -/
structure Sighting where
  isFile : Bool
  text : Except IoFault String

/-- What was found so far. What nobody looked at counts as missing. -/
structure Snapshot where
  files : List (Path × Sighting)
  listings : List (Path × Except IoFault (List Path))

namespace Snapshot

def empty : Snapshot := ⟨[], []⟩

def addFile (s : Snapshot) (p : Path) (found : Sighting) : Snapshot :=
  { s with files := Assoc.insert p found s.files }

def addListing (s : Snapshot) (p : Path) (found : Except IoFault (List Path)) : Snapshot :=
  { s with listings := Assoc.insert p found s.listings }

def store (s : Snapshot) : Store where
  holds p := ((Assoc.get? p s.files).map Sighting.isFile).getD false
  read p := ((Assoc.get? p s.files).map Sighting.text).getD (.error .missing)
  list p :=
    ((Assoc.get? p s.listings).getD (.error .missing)).map fun ps => ps.mergeSort Store.byName

end Snapshot

end WorkflowGraph
