/- Checking input values against the fields of a config. -/

import WorkflowGraph.Config.Basic
import WorkflowGraph.Inputs.Report

set_option autoImplicit false
set_option relaxedAutoImplicit false

/-!
Every field whose condition holds is checked by its type, in the order of declaration, and every
problem is reported. A value that counts as absent is a problem only where a value is required.
Checking looks neither at the mappings nor at a graph.
-/

namespace WorkflowGraph

/-- What the check of a value finds. -/
inductive Finding where
  | error (message : String)
  | warning (message : String)

namespace Finding

def error? : Finding → Option String
  | error m => some m
  | warning _ => none

def warning? : Finding → Option String
  | error _ => none
  | warning m => some m

def errorIf (condition : Bool) (message : String) : List Finding :=
  if condition then [error message] else []

end Finding

/-- Whether an entry of a list names a path: in one of its halves, by its single path, or as a bare
path. -/
def entryHasPath : Value → Bool
  | .obj entry =>
    (NoiseVariant.all.any fun variant =>
      ((Assoc.get? variant.key entry).bind Value.modelPath?).isSome) ||
      ((Assoc.get? "path" entry).bind Value.modelPath?).isSome
  | v => v.modelPath?.isSome

namespace Field

open Finding (errorIf)

def checkSlider (f : Field) (v : Value) : List Finding :=
  match v.float? with
  | none => [.error (f.label ++ " must be a number")]
  | some n =>
    (match f.min? with
      | some min => errorIf (n.less min) (f.label ++ " must be at least " ++ min.boundText)
      | none => []) ++
    (match f.max? with
      | some max => errorIf (max.less n) (f.label ++ " must be at most " ++ max.boundText)
      | none => [])

def checkText (f : Field) (v : Value) : List Finding :=
  match v with
  | .str s =>
    match f.maxLength? with
    | some max =>
      errorIf (max < s.length) (f.label ++ " must be at most " ++ natText max ++ " characters")
    | none => []
  | _ => [.error (f.label ++ " must be text")]

def checkSeed (f : Field) (v : Value) : List Finding :=
  match v.int? with
  | some seed =>
    errorIf (seed < -1) (f.label ++ " must be -1 (random) or a non-negative integer")
  | none => [.error (f.label ++ " must be an integer")]

def checkPair (f : Field) (v : Value) : List Finding :=
  match v with
  | .obj pair =>
    if f.required then
      NoiseVariant.all.flatMap fun variant =>
        errorIf ((Assoc.get? variant.key pair).bind Value.modelPath?).isNone
          (f.label ++ " " ++ variant.label ++ " model is required")
    else []
  | _ => [.error (f.label ++ " must specify high_noise and low_noise models")]

/-- What is wrong with a list of entries: too many, and entries without a path, are warned of. -/
def checkList (maxLoras : Nat) (f : Field) (v : Value) : List Finding :=
  match v with
  | .arr entries =>
    let max := f.maxItems?.getD maxLoras
    (if max < entries.length then
      [.warning (f.label ++ " has " ++ natText entries.length ++ " entries; at most " ++
        natText max ++ " are recommended")]
    else []) ++
    entries.zipIdx.flatMap fun p =>
      if entryHasPath p.1 then []
      else [.warning (f.label ++ " entry " ++ natText (p.2 + 1) ++
        " has no LoRA path and will be skipped")]
  | _ => [.error (f.label ++ " must be a list")]

def checkModel (f : Field) (v : Value) : List Finding :=
  match v with
  | .str _ => errorIf (f.required && v.modelPath?.isNone) (f.label ++ " is required")
  | .obj _ => errorIf (f.required && v.modelPath?.isNone) (f.label ++ " is required")
  | _ => [.error (f.label ++ " must be a model path")]

def checkSelect (f : Field) (v : Value) : List Finding :=
  match v with
  | .str choice =>
    errorIf (!f.allowed.isEmpty && choice ∉ f.allowed)
      (f.label ++ " must be one of: " ++ Text.join ", " f.allowed)
  | _ => [.error (f.label ++ " must be a string")]

def checkValue (maxLoras : Nat) (f : Field) (v : Value) : List Finding :=
  match f.type with
  | .slider => f.checkSlider v
  | .text => f.checkText v
  | .textarea => f.checkText v
  | .seed => f.checkSeed v
  | .checkbox => errorIf v.checkbox?.isNone (f.label ++ " must be true or false")
  | .image => errorIf (!v.isString) (f.label ++ " must be an image path")
  | .modelPair => f.checkPair v
  | .loraList => f.checkList maxLoras v
  | .singleModel => f.checkModel v
  | .select => f.checkSelect v
  | .unknown => []

/-- What is wrong with the value of a field, if it has one. -/
def check (maxLoras : Nat) (f : Field) (v : Option Value) : List Finding :=
  match v.filter fun v => !v.isAbsent with
  | some v => f.checkValue maxLoras v
  | none => errorIf f.required (f.label ++ " is required")

end Field

/-- The number of entries above which a list is warned of, when nothing is set. -/
def defaultMaxLoras : Nat := 5

namespace Config

/-- What is wrong with one field for values by field id; nothing if its condition does not hold. -/
def fieldFindings (maxLoras : Nat) (c : Config) (flat : Object) (f : Field) : List Finding :=
  if c.dependencyMet f flat then f.check maxLoras (Assoc.get? f.id flat) else []

def check (maxLoras : Nat) (c : Config) (inputs : Object) : Report :=
  let flat := c.flatten inputs
  let issues (pick : Finding → Option String) : List Issue :=
    c.inputs.flatMap fun f =>
      ((c.fieldFindings maxLoras flat f).filterMap pick).map (Issue.mk f.id)
  Report.ofFindings (issues Finding.error?) (issues Finding.warning?)

end Config

end WorkflowGraph
