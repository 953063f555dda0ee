/- The flaws that make a config unusable although its document could be read. -/

import WorkflowGraph.Config.Basic
import WorkflowGraph.Error

set_option autoImplicit false
set_option relaxedAutoImplicit false

/-!
All flaws are listed in the order in which they are looked for, and the first one is reported. A
config is accepted when the list is empty. Mappings for ids that no field has are no flaw: their
values may be supplied all the same.
-/

namespace WorkflowGraph

def repeated : List String → List String → List String
  | _, [] => []
  | seen, s :: rest => (if s ∈ seen then [s] else []) ++ repeated (s :: seen) rest

def flawIf (condition : Bool) (flaw : ConfigFlaw) : List ConfigFlaw :=
  if condition then [flaw] else []

namespace Field

def flaws (ids : List String) (f : Field) : List ConfigFlaw :=
  (match f.dependsOn? with
    | none => []
    | some d =>
      flawIf (d.field = f.id) (.selfDependency f.id) ++
        flawIf (d.field ∉ ids) (.unknownDependency f.id d.field)) ++
  (if f.type = .slider then
    (match f.min?, f.max? with
      | some min, some max => flawIf (max.less min) (.reversedBounds f.id min max)
      | _, _ => []) ++
    (match f.step? with
      | some step => flawIf (!(Double.zero false).less step) (.nonPositiveStep f.id)
      | none => [])
  else [])

end Field

/-- The flaws of one mapping: it names no node, or no position for an axis. -/
def Mapping.flaws (key : String) : Mapping → List ConfigFlaw
  | .widget w => flawIf (w.targets.isEmpty && !w.hasPair) (.mappingWithoutNode key)
  | .toggle t => flawIf t.targets.isEmpty (.toggleWithoutNode key)
  | .vector v => flawIf v.indices.isEmpty (.vectorWithoutIndices key)
  | .lora _ => []
  | .unrecognized => []

namespace Config

def idFlaws : List String → List String → List ConfigFlaw
  | _, [] => []
  | seen, id :: rest =>
    flawIf (id = "") .emptyInputId ++ flawIf (id ∈ seen) (.duplicateInput id) ++
      idFlaws (id :: seen) rest

def flaws (c : Config) : List ConfigFlaw :=
  let ids := c.inputs.map Field.id
  flawIf (Text.isBlankText c.name) .noName ++
  flawIf (Text.isBlankText c.workflowFile) (.noTemplate c.name) ++
  idFlaws [] ids ++
  c.inputs.flatMap (Field.flaws ids) ++
  (repeated [] (c.outputs.map Output.id)).map .duplicateOutput ++
  c.mappings.flatMap fun p => p.2.flaws p.1

def validate (c : Config) : Except ConfigFlaw Unit :=
  match c.flaws with
  | [] => .ok ()
  | flaw :: _ => .error flaw

theorem validate_eq_ok_iff (c : Config) : c.validate = .ok () ↔ c.flaws = [] := by
  unfold validate
  split
  · simp [*]
  · simp [*]

end Config

end WorkflowGraph
