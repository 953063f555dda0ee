/- The words of a command line: options, flags and operands at the top and after a command. -/

import WorkflowGraph.Assoc
import WorkflowGraph.Number.Digits
import WorkflowGraph.Text.Search

set_option autoImplicit false
set_option relaxedAutoImplicit false

/-!
Words are read from left to right. The options before a command and those after it make two levels;
the options that every command shares may stand on either, and the level of the command goes before.
A value may be attached to its option or be the next word, which then must not look like an option.
-/

namespace WorkflowGraph.CommandLine

inductive Word where
  /-- Two dashes alone: every word after them is an operand. -/
  | separator
  | long (name : String) (attached : Option String)
  | short (letter : Char) (rest : List Char)
  | plain (text : String)
deriving DecidableEq

namespace Word

/-- The form of a word. A single dash is plain. -/
def ofText (s : String) : Word :=
  match s.toList with
  | ['-', '-'] => .separator
  | '-' :: '-' :: cs =>
    match Text.cut? '=' cs with
    | some (name, value) => .long (String.ofList name) (some (String.ofList value))
    | none => .long (String.ofList cs) none
  | '-' :: c :: cs => .short c cs
  | _ => .plain s

def isPlain : Word → Bool
  | .plain _ => true
  | _ => false

def attachedToLetter : List Char → Option String
  | [] => none
  | '=' :: cs => some (String.ofList cs)
  | cs => some (String.ofList cs)

end Word

structure OptionForm where
  name : String
  letter? : Option Char
  /-- Which texts the option takes as a value; an option without value is a flag. -/
  value? : Option (String → Bool)
  /-- Whether it may be given more than once. -/
  repeats : Bool

namespace OptionForm

def path (name : String) (letter? : Option Char) : OptionForm :=
  ⟨name, letter?, some fun v => v != "", false⟩

def flag (name : String) : OptionForm := ⟨name, none, none, false⟩

end OptionForm

/-- What was given on a level. -/
structure Given where
  /-- Options in order with their values; the value of a flag is empty. -/
  values : List (String × String)
  operands : List String
deriving DecidableEq

namespace Given

def nothing : Given := ⟨[], []⟩

def value? (g : Given) (name : String) : Option String := Assoc.get? name g.values

def values? (g : Given) (name : String) : List String :=
  (g.values.filter fun p => p.1 = name).map fun p => p.2

def has (g : Given) (name : String) : Bool := Assoc.contains name g.values

/-- One more option, if its value is fit and it may be given again. -/
def add (g : Given) (o : OptionForm) (v : String) : Option Given :=
  if (!o.repeats && g.has o.name) || !o.value?.all (· v) then none
  else some { g with values := g.values ++ [(o.name, v)] }

end Given

/-- What can stand on a level. -/
structure Level where
  options : List OptionForm
  /-- The number of operands, all of which are required. -/
  operands : Nat
  commands : List String
  /-- Whether the version can be asked for. -/
  hasVersion : Bool

/-- What the words of a level come to. -/
inductive Reading where
  | given (g : Given)
  | command (g : Given) (name : String) (rest : List String)
  | version
  | help

namespace Level

inductive Ask where
  | option (o : OptionForm) (attached : Option String)
  | version
  | help

def ask? (l : Level) : Word → Option Ask
  | .long name attached =>
    if name = "help" ∧ attached = none then some .help
    else if name = "version" ∧ attached = none ∧ l.hasVersion then some .version
    else (l.options.find? fun o => o.name = name).map fun o => .option o attached
  | .short letter rest =>
    if letter = 'h' then some .help
    else if letter = 'V' ∧ l.hasVersion then some .version
    else (l.options.find? fun o => o.letter? = some letter).map fun o =>
      .option o (Word.attachedToLetter rest)
  | _ => none

def addOperands (l : Level) (g : Given) (texts : List String) : Option Given :=
  let operands := g.operands ++ texts
  if operands.length ≤ l.operands then some { g with operands := operands } else none

def read (l : Level) : Given → List String → Option Reading
  | g, [] => if g.operands.length = l.operands then some (.given g) else none
  | g, w :: rest =>
    match Word.ofText w with
    | .separator => do
      let g ← l.addOperands g rest
      if g.operands.length = l.operands then return .given g else none
    | .plain text =>
      if text ∈ l.commands then some (.command g text rest)
      else (l.addOperands g [text]).bind fun g => read l g rest
    | word =>
      match l.ask? word with
      | none => none
      | some .version => some .version
      | some .help => some .help
      | some (.option o attached) =>
        match o.value?, attached, rest with
        | none, none, rest => (g.add o "").bind fun g => read l g rest
        | none, some _, _ => none
        | some _, some v, rest => (g.add o v).bind fun g => read l g rest
        | some _, none, v :: rest =>
          if (Word.ofText v).isPlain then (g.add o v).bind fun g => read l g rest else none
        | some _, none, [] => none

end Level

structure Globals where
  configsDir? : Option String
  templatesDir? : Option String
  settings? : Option String
deriving DecidableEq

/-- Where the inputs of a workflow come from. -/
structure InputSource where
  text? : Option String
  file? : Option String
  parameters : List (String × String)
deriving DecidableEq

/-- What to do with a generated graph. -/
structure GenerateOptions where
  output? : Option String
  /-- Show the actions instead of the graph. -/
  actions : Bool
  /-- A seed for the random words. -/
  seed? : Option Nat
deriving DecidableEq

inductive Command where
  | list
  | describe (id : String) (json : Bool)
  | validate (id : String) (inputs : InputSource)
  | generate (id : String) (inputs : InputSource) (options : GenerateOptions)
deriving DecidableEq

/-- What a command line asks for. -/
inductive Request where
  | version
  | help
  | command (globals : Globals) (c : Command)
deriving DecidableEq

def parameter? (text : String) : Option (String × String) :=
  (Text.cut? '=' text.toList).map fun (k, v) => (String.ofList k, String.ofList v)

def globalOptions : List OptionForm :=
  [.path "configs-dir" none, .path "templates-dir" none, .path "settings" none]

def inputOptions : List OptionForm := [
  ⟨"input", some 'i', some fun _ => true, false⟩,
  .path "input-file" none,
  ⟨"param", some 'p', some fun v => (parameter? v).isSome, true⟩]

def generateOptions : List OptionForm := [
  .path "output" (some 'o'),
  .flag "actions",
  ⟨"rng-seed", none, some fun v => (nat64OfText? v.toList).isSome, false⟩]

def commandLevels : List (String × Level) := [
  ("list", ⟨globalOptions, 0, [], false⟩),
  ("show", ⟨globalOptions ++ [.flag "json"], 1, [], false⟩),
  ("validate", ⟨globalOptions ++ inputOptions, 1, [], false⟩),
  ("generate", ⟨globalOptions ++ inputOptions ++ generateOptions, 1, [], false⟩)]

def topLevel : Level := ⟨globalOptions, 0, Assoc.keys commandLevels ++ ["help"], true⟩

/-- The global options of two levels, those of the second before those of the first. -/
def Globals.ofLevels (top sub : Given) : Globals :=
  let value? (name : String) : Option String := (sub.value? name).or (top.value? name)
  ⟨value? "configs-dir", value? "templates-dir", value? "settings"⟩

def InputSource.ofGiven (g : Given) : InputSource :=
  ⟨g.value? "input", g.value? "input-file", (g.values? "param").filterMap parameter?⟩

def GenerateOptions.ofGiven (g : Given) : GenerateOptions :=
  ⟨g.value? "output", g.has "actions",
    (g.value? "rng-seed").bind fun v => nat64OfText? v.toList⟩

def Command.ofGiven (name : String) (g : Given) : Option Command :=
  match name, g.operands with
  | "list", [] => some .list
  | "show", [id] => some (.describe id (g.has "json"))
  | "validate", [id] => some (.validate id (.ofGiven g))
  | "generate", [id] => some (.generate id (.ofGiven g) (.ofGiven g))
  | _, _ => none

/-- What a command line asks for, or nothing if it cannot be understood. A command is required. -/
def Request.parse (words : List String) : Option Request :=
  match topLevel.read .nothing words with
  | some .version => some .version
  | some .help => some .help
  | some (.command top "help" rest) =>
    if rest.length ≤ 1 ∧ rest.all (· ∈ topLevel.commands) ∧ top.operands = [] then some .help
    else none
  | some (.command top name rest) =>
    match (Assoc.get? name commandLevels).bind fun l => l.read .nothing rest with
    | some .help => some .help
    | some (.given sub) => (Command.ofGiven name sub).map (.command (.ofLevels top sub))
    | _ => none
  | _ => none

example : Request.parse ["--settings", "s", "show", "--settings=t", "x", "--json"] =
    some (.command ⟨none, none, some "t"⟩ (.describe "x" true)) := by decide +kernel

example : Request.parse ["show", "--", "--json"] =
    some (.command ⟨none, none, none⟩ (.describe "--json" false)) := by decide +kernel

example : Request.parse ["validate", "x", "-p", "a=b=c", "-pd=", "-i=1"] =
    some (.command ⟨none, none, none⟩
      (.validate "x" ⟨some "1", none, [("a", "b=c"), ("d", "")]⟩)) := by decide +kernel

end WorkflowGraph.CommandLine
