/- Commands: what each of them does with settings and stored documents, and what it shows. -/

import WorkflowGraph.CommandLine.Arguments
import WorkflowGraph.Service
import WorkflowGraph.Settings

set_option autoImplicit false
set_option relaxedAutoImplicit false

/-!
A command is a function of the command line, of what is stored and of random words. It comes to
lines that are shown, notes beside them, and perhaps a failure or a text to be written to a file.
Writing can fail too, so the last line is known only after it.
-/

namespace WorkflowGraph.CommandLine

inductive Failure where
  /-- The command line cannot be understood. -/
  | usage
  | service (e : Error)
  /-- The inputs are not a JSON document. -/
  | inputSyntax
  | access (fault : IoFault)
  | inputKind
  | twoInputs
  /-- The inputs have so many errors. -/
  | invalid (errors : Nat)
  /-- The program breaks off, as the number of a slot is no word. -/
  | overflow

namespace Failure

def message : Failure → String
  | usage => "the arguments cannot be understood; --help tells what can be given"
  | service e => e.message
  | inputSyntax => "the input is not a JSON document"
  | access fault => fault.message
  | inputKind => "Input must be a JSON object"
  | twoInputs => "Use either --input or --input-file, not both"
  | invalid errors => "Validation failed with " ++ natText errors ++ " error(s)"
  | overflow => "attempt to add with overflow"

def exitCode : Failure → Nat
  | usage => 2
  | overflow => 101
  | _ => 1

end Failure

structure Outcome where
  /-- Lines that are shown. -/
  lines : List String
  /-- Lines beside them. -/
  notes : List String
  failure? : Option Failure

/-- A text to be written to a file, and the note that is due when this is done. -/
structure Delivery where
  file : String
  text : String
  note : String

namespace Outcome

def shown (lines : List String) : Outcome := ⟨lines, [], none⟩

def failed (f : Failure) : Outcome := ⟨[], [], some f⟩

def exitCode (o : Outcome) : Nat := (o.failure?.map Failure.exitCode).getD 0

def deliver (o : Outcome) (d : Delivery) : Except IoFault Unit → Outcome
  | .ok () => { o with notes := o.notes ++ [d.note] }
  | .error fault => { o with failure? := some (.access fault) }

end Outcome

/-- What a command line is run with. -/
structure Host where
  env : Environment
  store : Store
  /-- Random words, the same ones for the same seed. -/
  words : Option Nat → Words

/-- The settings for a command line: a file that is named or the one at the default place, and then
the directories that are named. -/
def Globals.apply (g : Globals) (h : Host) : Except Error Settings := do
  let s ← match g.settings? with
    | some file => Settings.fromFile h.env h.store file
    | none => .ok (Settings.load h.env h.store (Settings.defaultFile h.env))
  return { s with directories := {
    configs := g.configsDir?.getD s.directories.configs
    templates? := g.templatesDir?.or s.directories.templates? } }

def inputValue (text : String) : Except Failure Value :=
  match Json.parse? text with
  | some v => .ok v
  | none => .error .inputSyntax

def InputSource.read (src : InputSource) (store : Store) : Except Failure Object := do
  let base ← match src.text?, src.file? with
    | some _, some _ => .error .twoInputs
    | some text, none => inputValue text
    | none, some file =>
      match store.read (Path.exactly file) with
      | .ok text => inputValue text
      | .error fault => .error (.access fault)
    | none, none => .ok (.obj [])
  match base with
  | .obj o => return mergeParameters o (parseParameters src.parameters)
  | _ => .error .inputKind

/-! What is shown. -/

/-- Cells filled up to their widths with a space after each, and a last one. -/
def row (cells : List (Nat × String)) (last : String) : String :=
  cells.foldr (fun cell rest => Text.padRight cell.1 cell.2 ++ " " ++ rest) last

def workflowRow (id name version category inputs : String) : String :=
  row [(30, id), (30, name), (10, version), (12, category)] inputs

def workflowLines (dir : String) : List Summary → List String
  | [] => ["No workflows found in " ++ dir ++ "."]
  | found =>
    workflowRow "ID" "NAME" "VERSION" "CATEGORY" "INPUTS" ::
      String.ofList (List.replicate 92 '-') ::
      found.map fun s => workflowRow s.id s.name s.version s.category (natText s.inputs)

def parameterRow (name type section_ required default : String) : String :=
  row [(24, name), (24, type), (16, section_), (9, required)] default

def ParameterInfo.line (p : ParameterInfo) : String :=
  parameterRow p.name p.type.name p.section_ (if p.required then "yes" else "no")
    ((p.default?.map Value.compact).getD "")

/-- A config for people: what it is, its inputs, and what they are mapped to. -/
def configLines (c : Config) : List String :=
  [c.name ++ " (" ++ c.id ++ ")", "  Version:  " ++ c.version] ++
  (if c.category = "" then [] else ["  Category: " ++ c.category]) ++
  ["  Template: " ++ c.workflowFile] ++
  (if c.description = "" then [] else ["  " ++ c.description]) ++
  ["", parameterRow "INPUT" "TYPE" "SECTION" "REQUIRED" "DEFAULT"] ++
  c.parameters.map ParameterInfo.line ++
  (if c.mappings.isEmpty then []
   else "" :: "Mappings:" :: c.mappings.map fun m => "  " ++ row [(24, m.1)] m.2.kind)

def Issue.line (mark : String) (i : Issue) : String := mark ++ " " ++ i.field ++ ": " ++ i.message

def issueLines (r : Report) : List String :=
  r.errors.map (Issue.line "✗") ++ r.warnings.map (Issue.line "!")

def writtenNote (file : String) (actions skipped : Nat) : String :=
  "✓ Wrote " ++ file ++ " (" ++ natText actions ++ " actions, " ++ natText skipped ++ " skipped)"

/-! Commands. -/

def runList (s : Settings) (h : Host) : Outcome :=
  match (s.loader.listWorkflows h.store).1 with
  | .ok found => .shown (workflowLines s.directories.configs found)
  | .error e => .failed (.service e)

def runDescribe (s : Settings) (h : Host) (id : String) (json : Bool) : Outcome :=
  match (s.loader.load h.store id).1 with
  | .ok c => .shown (if json then [c.toValue.pretty] else configLines c)
  | .error e => .failed (.service e)

def runValidate (s : Settings) (h : Host) (id : String) (src : InputSource) : Outcome :=
  match src.read h.store with
  | .error f => .failed f
  | .ok inputs =>
    match (s.loader.validate s.maxLoras h.store id inputs).1 with
    | .error e => .failed (.service e)
    | .ok report => {
        lines := [report.toValue.pretty]
        notes := issueLines report
        failure? := if report.isValid then none else some (.invalid report.errors.length) }

def generationText (g : Generation) (actions : Bool) : String :=
  if actions then (Value.arr (g.compiled.actions.map Action.toValue)).pretty
  else g.graph.toValue.pretty

def runGenerate (s : Settings) (h : Host) (id : String) (src : InputSource)
    (options : GenerateOptions) : Outcome × Option Delivery :=
  match src.read h.store with
  | .error f => (.failed f, none)
  | .ok inputs =>
    match (s.loader.generate s.maxLoras h.store id inputs (h.words options.seed?)).1 with
    | .error (.validationFailed report) =>
      (⟨[], issueLines report, some (.invalid report.errors.length)⟩, none)
    | .error e => (.failed (.service e), none)
    | .ok (none, _) => (.failed .overflow, none)
    | .ok (some g, _) =>
      let text := generationText g options.actions
      let notes := issueLines g.compiled.report
      match options.output? with
      | none => (⟨[text], notes, none⟩, none)
      | some file =>
        (⟨[], notes, none⟩,
          some ⟨file, text, writtenNote file g.compiled.actions.length g.tally.skipped⟩)

def Command.run (s : Settings) (h : Host) : Command → Outcome × Option Delivery
  | .list => (runList s h, none)
  | .describe id json => (runDescribe s h id json, none)
  | .validate id src => (runValidate s h id src, none)
  | .generate id src options => runGenerate s h id src options

def versionLine : String := "graphsmith 0.1.0"

def helpLines : List String := [
  "Compile workflow configs and inputs into node graphs",
  "",
  "Usage: graphsmith [OPTIONS] <COMMAND>",
  "",
  "Commands:",
  "  list                 List all workflows",
  "  show ID [--json]     Show a workflow's inputs and mappings",
  "  validate ID          Validate inputs for a workflow",
  "  generate ID          Generate a graph for a workflow",
  "",
  "Options:",
  "  --configs-dir DIR    Directory of workflow configs",
  "  --templates-dir DIR  Directory of graph templates",
  "  --settings FILE      Settings file instead of the default one",
  "  -i, --input JSON     Input data (validate, generate)",
  "  --input-file FILE    File with input data (validate, generate)",
  "  -p, --param KEY=VALUE  Parameter over the input data (validate, generate)",
  "  -o, --output FILE    Write the graph to a file (generate)",
  "  --actions            Show the actions instead of the graph (generate)",
  "  --rng-seed N         Seed of the random numbers (generate)"]

def Request.run (h : Host) : Request → Outcome × Option Delivery
  | .version => (.shown [versionLine], none)
  | .help => (.shown helpLines, none)
  | .command globals c =>
    match globals.apply h with
    | .ok s => c.run s h
    | .error e => (.failed (.service e), none)

def run (h : Host) (words : List String) : Outcome × Option Delivery :=
  match Request.parse words with
  | some r => r.run h
  | none => (.failed .usage, none)

end WorkflowGraph.CommandLine
