/- Finding the document of a workflow id, and the template that a config names. -/

import WorkflowGraph.Config.Document
import WorkflowGraph.Graph.Basic
import WorkflowGraph.Store.Basic
import WorkflowGraph.Text.Lower

set_option autoImplicit false
set_option relaxedAutoImplicit false

/-!
The config of an id lies in one directory under a file name made from the id or from a variant of
it. The variants are tried in order, each with every ending, and the first file that exists counts.
What a store answers is a matter of the store alone; caches come later.
-/

namespace WorkflowGraph

/-- The end of the file names of configs, before the ending of the notation. -/
def configSuffix : String := "_config"

/-- The variants of an id, each once: as given, with `-` as `_`, with `_` as `-`, with spaces as
`_`, and then the lower-case text of each. -/
def candidateNames (id : String) : List String :=
  let base := [id, Text.replaceChar '-' '_' id, Text.replaceChar '_' '-' id,
    Text.replaceChar ' ' '_' id]
  appendNew [] ((base ++ base.map Text.lower).filter fun n => n ≠ "")

def leavesDirectory (id : String) : Bool :=
  id.toList.any (fun c => c = '/' ∨ c = '\\') || Text.occurs "..".toList id.toList

def configFileName (name extension : String) : String :=
  name ++ configSuffix ++ "." ++ extension

/-- The file names that are tried for an id; none for one that could lead out of the directory. -/
def candidateFiles (id : String) : List String :=
  if leavesDirectory id then []
  else (candidateNames id).flatMap fun n => Notation.extensions.map (configFileName n)

def candidatePaths (dir : Path) (id : String) : List Path := (candidateFiles id).map dir.child

def lowerAscii (s : String) : String := String.ofList (s.toList.map Char.toLower)

/-- The workflow id in a file name, if the name is that of a config. -/
def fileId? (name : String) : Option String :=
  match Path.cutName name with
  | (stem, some extension) =>
    if lowerAscii extension ∈ Notation.extensions then
      ((Text.dropLast? configSuffix.toList stem.toList).map String.ofList).filter fun id => id ≠ ""
    else none
  | _ => none

def Path.configId? (p : Path) : Option String := p.fileName?.bind fileId?

def Notation.ofPath (p : Path) : Notation :=
  if p.extension?.map lowerAscii = some "json" then .json else .yaml

def Error.ofIo (fault : IoFault) : Error := .io fault.message

namespace Store

def text (s : Store) (p : Path) : Except Error String :=
  match s.read p with
  | .ok text => .ok text
  | .error fault => .error (.ofIo fault)

/-- The config of a text found at a path. Without an id of its own it gets the one in the file name,
or else the one that was asked for. -/
def configOfText (p : Path) (id : String) (text : String) : Except Error Config :=
  match Config.parse text (Notation.ofPath p) with
  | .error e => .error (.parse e)
  | .ok c =>
    let c := if c.id = "" then { c with id := p.configId?.getD id } else c
    match c.validate with
    | .error flaw => .error (.invalidConfig flaw)
    | .ok () => .ok c

def configFile? (s : Store) (dir : Path) (id : String) : Option Path :=
  (candidatePaths dir id).find? s.holds

def config (s : Store) (dir : Path) (id : String) : Except Error Config :=
  match s.configFile? dir id with
  | none => .error (.configNotFound id (candidateFiles id))
  | some p => (s.text p).bind (configOfText p id)

/-- The paths that are tried for a template: a path from the root alone, any other in the directory
of templates and then in that of configs. -/
def templatePaths (configsDir templatesDir : Path) (file : Path) : List Path :=
  if file.absolute then [file]
  else templatesDir.join file :: if configsDir = templatesDir then [] else [configsDir.join file]

def templateFile? (s : Store) (configsDir templatesDir : Path) (file : String) : Option Path :=
  (templatePaths configsDir templatesDir (Path.ofText file)).find? s.holds

def template (s : Store) (configsDir templatesDir : Path) (file : String) : Except Error Graph :=
  match s.templateFile? configsDir templatesDir file with
  | none => .error (.templateNotFound file)
  | some p => do
    match Graph.parse (← s.text p) with
    | .ok g => .ok g
    | .error e => .error (.parse e)

def configFile (s : Store) (p : Path) : Except Error Config := do
  match Config.parse (← s.text p) (Notation.ofPath p) with
  | .ok c => .ok c
  | .error e => .error (.parse e)

def fileIds (paths : List Path) : List String := appendNew [] (paths.filterMap Path.configId?)

end Store

end WorkflowGraph
