/- Loading configs and templates through caches. -/

import WorkflowGraph.Store.Cache
import WorkflowGraph.Store.Candidates

set_option autoImplicit false
set_option relaxedAutoImplicit false

/-!
A loader answers from its caches where it can and from the store where it must. Every operation is a
function of the loader and of the store at that time, so changes of the store between operations are
a matter of passing another one. Failures are never cached.
-/

namespace WorkflowGraph

/-- How often the store was asked for a file and for a listing. -/
structure Traffic where
  reads : Nat
  listings : Nat
deriving DecidableEq

/-- The directories, the caches, and a count of the accesses to the store. -/
structure Loader where
  configsDir : Path
  templatesDir : Path
  /-- Configs by directory and id as asked for. -/
  configs : Cache (Path × String) Config
  /-- Templates by the path that configs give. -/
  templates : Cache Path Graph
  /-- Lists of all configs, by directory. -/
  discovered : Cache Path (List Config)
  traffic : Traffic

structure Lifetimes where
  configs : Nat
  templates : Nat
  discovery : Nat

namespace Loader

abbrev Outcome (α : Type) := Except Error α × Loader

def fresh (configsDir templatesDir : Path) (ttl : Lifetimes) : Loader where
  configsDir := configsDir
  templatesDir := templatesDir
  configs := .empty "configs" ttl.configs
  templates := .empty "templates" ttl.templates
  discovered := .empty "discovery" ttl.discovery
  traffic := ⟨0, 0⟩

/-- Count a read if there was a file to read. -/
def countRead (l : Loader) (file : Option Path) : Loader :=
  if file.isSome then { l with traffic := { l.traffic with reads := l.traffic.reads + 1 } } else l

def countListing (l : Loader) : Loader :=
  { l with traffic := { l.traffic with listings := l.traffic.listings + 1 } }

def loadFrom (s : Store) (dir : Path) (id : String) (l : Loader) : Outcome Config :=
  match l.configs.get? (dir, id) with
  | some c => (.ok c, l)
  | none =>
    let l := l.countRead (s.configFile? dir id)
    match s.config dir id with
    | .ok c => (.ok c, { l with configs := l.configs.insert (dir, id) c })
    | .error e => (.error e, l)

def load (s : Store) (id : String) (l : Loader) : Outcome Config :=
  l.loadFrom s l.configsDir id

def template (s : Store) (file : String) (l : Loader) : Outcome Graph :=
  match l.templates.get? (Path.ofText file) with
  | some g => (.ok g, l)
  | none =>
    let l := l.countRead (s.templateFile? l.configsDir l.templatesDir file)
    match s.template l.configsDir l.templatesDir file with
    | .ok g => (.ok g, { l with templates := l.templates.insert (Path.ofText file) g })
    | .error e => (.error e, l)

/-- One more config of a list in which each config id occurs once; the first one stays. -/
def addConfig (found : List Config) (c : Config) : List Config :=
  if found.any fun d => d.id = c.id then found else found ++ [c]

/-- Load one config of a listing; what cannot be loaded is passed over. -/
def collect (s : Store) (dir : Path) (acc : List Config × Loader) (id : String) :
    List Config × Loader :=
  match acc.2.loadFrom s dir id with
  | (.ok c, l) => (addConfig acc.1 c, l)
  | (.error _, l) => (acc.1, l)

/-- Order by name, and by id where names are equal. -/
def listedBefore (a b : Config) : Bool := a.name < b.name || (a.name = b.name && a.id ≤ b.id)

def scan (s : Store) (dir : Path) (l : Loader) : Outcome (List Config) :=
  let l := l.countListing
  match s.list dir with
  | .error fault => (.error (.ofIo fault), l)
  | .ok paths =>
    let (found, l) := (Store.fileIds paths).foldl (collect s dir) ([], l)
    (.ok (found.mergeSort listedBefore), l)

/-- All configs of a directory that can be loaded, in the order of their names. -/
def discoverIn (s : Store) (dir : Path) (l : Loader) : Outcome (List Config) :=
  match l.discovered.get? dir with
  | some found => (.ok found, l)
  | none =>
    match l.scan s dir with
    | (.ok found, l) => (.ok found, { l with discovered := l.discovered.insert dir found })
    | (.error e, l) => (.error e, l)

def discover (s : Store) (l : Loader) : Outcome (List Config) := l.discoverIn s l.configsDir

def invalidate (l : Loader) : Loader :=
  { l with
    configs := l.configs.clear
    templates := l.templates.clear
    discovered := l.discovered.clear }

/-- Forget one config of the directory of configs, and the lists that may hold it. -/
def invalidateConfig (id : String) (l : Loader) : Loader :=
  { l with
    configs := l.configs.erase (l.configsDir, id)
    discovered := l.discovered.clear }

def stats (l : Loader) : List CacheStats :=
  [l.configs.stats, l.templates.stats, l.discovered.stats]

end Loader

end WorkflowGraph
