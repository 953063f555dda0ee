/- The program: it looks at the files that a command line needs, runs it, and shows the outcome. -/

import WorkflowGraph.CommandLine.Run
import WorkflowGraph.Store.Snapshot

set_option autoImplicit false
set_option relaxedAutoImplicit false

/-!
Which files are needed depends on settings and configs, so they are looked at in stages: first the
settings file, then the input file and the configs in question, and at last the template.
-/

namespace WorkflowGraph.Main

def faultOf : IO.Error → IoFault
  | .noFileOrDirectory _ _ _ => .missing
  | e => .other (toString e)

def attempt {α : Type} (act : IO α) : IO (Except IoFault α) := do
  try
    return .ok (← act)
  catch e =>
    return .error (faultOf e)

def look (s : Snapshot) (p : Path) : IO Snapshot := do
  if p.isEmpty then return s
  match ← attempt ((← IO.currentDir) / p.toText).metadata with
  | .error fault => return s.addFile p ⟨false, .error fault⟩
  | .ok data =>
    match data.type with
    | .dir => return s.addFile p ⟨false, .error .isDirectory⟩
    | .file => return s.addFile p ⟨true, ← attempt (IO.FS.readFile p.toText)⟩
    | _ => return s.addFile p ⟨false, ← attempt (IO.FS.readFile p.toText)⟩

def lookAll (s : Snapshot) (ps : List Path) : IO Snapshot := ps.foldlM look s

def lookInside (s : Snapshot) (dir : Path) : IO Snapshot := do
  if dir.isEmpty then return s
  match ← attempt ((← IO.currentDir) / dir.toText).readDir with
  | .error fault => return s.addListing dir (.error fault)
  | .ok entries =>
    let paths := entries.toList.map fun e => dir.child e.fileName
    let s ← lookAll s (paths.filter fun p => p.configId?.isSome)
    return s.addListing dir (.ok (paths.filter s.store.holds))

/-- Random words for a generation with a number of inputs, the same ones for the same seed. -/
def randomWords (seed : Nat) (inputs : Nat) : Words :=
  let step (acc : List UInt64 × StdGen) (_ : Nat) : List UInt64 × StdGen :=
    let (n, gen) := randNat acc.2 0 18446744073709551615
    (UInt64.ofNat n :: acc.1, gen)
  ⟨((List.range (64 * (inputs + 1))).foldl step ([], mkStdGen seed)).1, 0⟩

/-- The files that a command needs beyond the settings file, and how many inputs its config has. -/
def lookFor (s : Snapshot) (settings : Settings) : CommandLine.Command → IO (Snapshot × Nat)
  | .list => do
    return (← lookInside s (Path.ofText settings.directories.configs), 0)
  | .describe id _ => do
    return (← lookAll s (candidatePaths (Path.ofText settings.directories.configs) id), 0)
  | .validate id src => do
    let s ← lookAll s (candidatePaths (Path.ofText settings.directories.configs) id)
    return (← lookAll s (src.file?.toList.map Path.exactly), 0)
  | .generate id src _ => do
    let configs := Path.ofText settings.directories.configs
    let templates := Path.ofText settings.directories.templates
    let s ← lookAll s (candidatePaths configs id ++ src.file?.toList.map Path.exactly)
    match s.store.config configs id with
    | .ok c =>
      let s ← lookAll s (Store.templatePaths configs templates (Path.ofText c.workflowFile))
      return (s, c.inputs.length)
    | .error _ => return (s, 0)

def environment : IO Environment := do
  let names := ["HOME", "XDG_CONFIG_HOME", "GRAPHSMITH_CONFIGS_DIR", "GRAPHSMITH_TEMPLATES_DIR",
    "GRAPHSMITH_CACHE_TTL_SECS", "GRAPHSMITH_MAX_LORAS"]
  let values ← names.mapM fun name => return (name, ← IO.getEnv name)
  return fun name => (Assoc.get? name values).join

def host (env : Environment) : CommandLine.Request → IO CommandLine.Host
  | .command globals c => do
    let file := (globals.settings?.map Path.exactly).getD (Settings.defaultFile env)
    let s ← look .empty file
    let first : CommandLine.Host := ⟨env, s.store, fun _ => ⟨[], 0⟩⟩
    match globals.apply first with
    | .error _ => return first
    | .ok settings =>
      let (s, inputs) ← lookFor s settings c
      let chance ← IO.rand 0 4611686018427387904
      return ⟨env, s.store, fun seed => randomWords (seed.getD chance) inputs⟩
  | _ => return ⟨env, Snapshot.empty.store, fun _ => ⟨[], 0⟩⟩

def run (words : List String) : IO UInt32 := do
  let env ← environment
  let h ← match CommandLine.Request.parse words with
    | some r => host env r
    | none => pure ⟨env, Snapshot.empty.store, fun _ => ⟨[], 0⟩⟩
  let outcome ← match CommandLine.run h words with
    | (o, none) => pure o
    | (o, some d) => pure (o.deliver d (← attempt (IO.FS.writeFile d.file d.text)))
  for l in outcome.lines do IO.println l
  for l in outcome.notes do IO.eprintln l
  match outcome.failure? with
  | some f => IO.eprintln ("Error: " ++ f.message)
  | none => pure ()
  return UInt32.ofNat outcome.exitCode

end WorkflowGraph.Main

def main (args : List String) : IO UInt32 := WorkflowGraph.Main.run args
