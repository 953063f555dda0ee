/- Preparing checked inputs for compilation: defaults, numbers from texts, random seeds. -/

import WorkflowGraph.Config.Basic
import WorkflowGraph.Inputs.Random

set_option autoImplicit false
set_option relaxedAutoImplicit false

namespace WorkflowGraph

def randomSeed : Int := -1

namespace Config

def isMissing (flat : Object) (id : String) : Bool :=
  match Assoc.get? id flat with
  | some v => v.isNull
  | none => true

/-- The default of a field goes in if the field has no value and its condition holds for the
supplied values. -/
def fillDefault (c : Config) (supplied : Object) (acc : Object) (f : Field) : Object :=
  match isMissing acc f.id, f.default? with
  | true, some v => if c.dependencyMet f supplied then Assoc.insert f.id v acc else acc
  | _, _ => acc

/-- Supplied values with the defaults of the fields that have none. -/
def fillDefaults (c : Config) (supplied : Object) : Object :=
  c.inputs.foldl (c.fillDefault supplied) supplied

def numeral? (type : FieldType) (v : Value) : Option Value :=
  match v, type with
  | .str _, .slider => v.float?.map Value.ofDouble
  | .str _, .seed => v.int?.map Value.ofInt
  | _, _ => none

/-- The value of a field as a number, where it is one spelled as text. -/
def readNumeral (acc : Object) (f : Field) : Object :=
  Assoc.modify f.id (fun v => (numeral? f.type v).getD v) acc

def readNumerals (c : Config) (flat : Object) : Object := c.inputs.foldl readNumeral flat

/-- A seed field that asks for a random seed gets one. -/
def drawSeed (s : Object × Words) (f : Field) : Object × Words :=
  match f.type, (Assoc.get? f.id s.1).bind Value.int? with
  | .seed, some i =>
    if i = randomSeed then
      let (seed, words) := s.2.draw
      (Assoc.insert f.id (.ofNat seed) s.1, words)
    else s
  | _, _ => s

def drawSeeds (c : Config) (flat : Object) (words : Words) : Object × Words :=
  c.inputs.foldl drawSeed (flat, words)

/-- Inputs by field id, with defaults, numbers and seeds. Undeclared keys are kept. -/
def resolve (c : Config) (inputs : Object) (words : Words) : Object × Words :=
  c.drawSeeds (c.readNumerals (c.fillDefaults (c.flatten inputs))) words

end Config

end WorkflowGraph
