/- The whole way from a workflow id and inputs to a graph. -/

import WorkflowGraph.Apply
import WorkflowGraph.Compile
import WorkflowGraph.Inputs.Parameters
import WorkflowGraph.Inputs.Resolve
import WorkflowGraph.Inputs.Validation
import WorkflowGraph.Store.Loader

set_option autoImplicit false
set_option relaxedAutoImplicit false

/-!
A request loads the config, checks the inputs, fills in defaults and seeds, compiles actions and
applies them to a copy of the template. The first of these that fails is the failure of the request.
Applying does not fail, but where it has no result, a request that gets there has none either.
-/

namespace WorkflowGraph

/-- One line of a list of workflows. -/
structure Summary where
  id : String
  name : String
  version : String
  category : String
  description : String
  workflowFile : String
  inputs : Nat

namespace Summary

def ofConfig (c : Config) : Summary :=
  ⟨c.id, c.name, c.version, c.category, c.description, c.workflowFile, c.inputs.length⟩

def toValue (s : Summary) : Value :=
  .obj [("id", .str s.id), ("name", .str s.name), ("version", .str s.version),
    ("category", .str s.category), ("description", .str s.description),
    ("workflow_file", .str s.workflowFile), ("inputs", .ofNat s.inputs)]

end Summary

/-- Inputs that were checked, resolved and compiled. -/
structure Compiled where
  inputs : Object
  actions : List Action
  /-- Valid, but possibly with warnings. -/
  report : Report

/-- A graph with what it was made from. -/
structure Generation where
  graph : Graph
  compiled : Compiled
  tally : Tally

namespace Config

/-- Check, resolve and compile inputs. Inputs with errors fail before a word is drawn. -/
def compile (maxLoras : Nat) (c : Config) (inputs : Object) (words : Words) :
    Except Error (Compiled × Words) := do
  let report ← (c.check maxLoras inputs).accept
  let (resolved, words) := c.resolve inputs words
  return (⟨resolved, c.mappings.compile resolved, report⟩, words)

/-- The graph for inputs on a template. There is none if applying the actions has no result. -/
def generate (maxLoras : Nat) (c : Config) (template : Graph) (inputs : Object) (words : Words) :
    Except Error (Option Generation × Words) := do
  let (compiled, words) ← c.compile maxLoras inputs words
  let generation? := (template.applyAll compiled.actions).map fun (graph, tally) =>
    ⟨graph, compiled, tally⟩
  return (generation?, words)

end Config

namespace Loader

def withConfig {α : Type} (s : Store) (id : String) (f : Config → Loader → Outcome α) (l : Loader) :
    Outcome α :=
  match l.load s id with
  | (.ok c, l) => f c l
  | (.error e, l) => (.error e, l)

def listWorkflows (s : Store) (l : Loader) : Outcome (List Summary) :=
  match l.discover s with
  | (.ok found, l) => (.ok (found.map Summary.ofConfig), l)
  | (.error e, l) => (.error e, l)

def parameters (s : Store) (id : String) : Loader → Outcome (List ParameterInfo) :=
  withConfig s id fun c l => (.ok c.parameters, l)

def validate (maxLoras : Nat) (s : Store) (id : String) (inputs : Object) :
    Loader → Outcome Report :=
  withConfig s id fun c l => (.ok (c.check maxLoras inputs), l)

/-- The graph of a workflow for inputs. The template is loaded before the inputs are checked. -/
def generate (maxLoras : Nat) (s : Store) (id : String) (inputs : Object) (words : Words) :
    Loader → Outcome (Option Generation × Words) :=
  withConfig s id fun c l =>
    match l.template s c.workflowFile with
    | (.ok g, l) => (c.generate maxLoras g inputs words, l)
    | (.error e, l) => (.error e, l)

end Loader

end WorkflowGraph
