/- Compiling inputs into actions by the node mapping of a config. -/

import WorkflowGraph.Config.Mapping
import WorkflowGraph.Inputs.Coerce
import WorkflowGraph.Inputs.Flatten

set_option autoImplicit false
set_option relaxedAutoImplicit false

/-!
Each mapping whose field has a value gives a block of actions, in the order of the mappings. The
axes of two-dimensional widgets are gathered node by node and come after all blocks. Nothing fails:
what cannot be used is left out.
-/

namespace WorkflowGraph

def defaultStrength : Double := Double.ofInt 1

/-- The switch position and the disabling mode for a toggle's value: the numbers 2 and 4 name a
disabling mode, anything else is true or false and keeps the mapping's own. -/
def toggleState (v : Value) (disabledMode : NodeMode) : Bool × NodeMode :=
  let named := if v.isNumber then v.int?.bind NodeMode.disabling? else none
  match named with
  | some mode => (false, mode)
  | none => (v.truthy, disabledMode)

def modelValue (v : Value) : Value :=
  match v with
  | .obj members =>
    if Assoc.contains "path" members then
      match v.modelPath? with
      | some path => .str path
      | none => v
    else v
  | _ => v

namespace WidgetMapping

def write (w : WidgetMapping) (v : Value) (id : NodeId) : Action :=
  .modifyWidget ⟨id, w.indices, w.names, v, w.nodeKind⟩

/-- The actions for the halves of a model pair, high first; a half without a node or a path has
none. -/
def pairActions (w : WidgetMapping) (pair : Object) : List Action :=
  NoiseVariant.all.filterMap fun variant => do
    let id ← w.half? variant
    let path ← (Assoc.get? variant.key pair).bind Value.modelPath?
    return w.write (.str path) id

/-- The actions for a value: those of a model pair where the halves have nodes of their own, else
one for each target. -/
def actions (w : WidgetMapping) (v : Value) : List Action :=
  match w.hasPair, v with
  | true, .obj pair => w.pairActions pair
  | _, v => w.targets.map (w.write (modelValue v))

end WidgetMapping

namespace ToggleMapping

/-- The action for a value, if there is a node to switch. -/
def actions (t : ToggleMapping) (v : Value) : List Action :=
  if t.targets.isEmpty then []
  else
    let (enabled, disabledMode) := toggleState v t.disabledMode
    [.toggleMode ⟨t.targets, enabled, t.enabledMode, disabledMode, t.saveNodeId⟩]

end ToggleMapping

/-- What one half of an entry asks for. -/
structure LoraTarget where
  variant : NoiseVariant
  path : String
  strength : Double
  enabled : Bool

/-- One half of an entry, with the entry's own strength and switch to fall back on. -/
def loraHalf? (entry : Object) (variant : NoiseVariant) : Option LoraTarget := do
  let half ← Assoc.get? variant.key entry
  let path ← half.modelPath?
  let entryStrength := (Assoc.get? "strength" entry).bind Value.float?
  let entryEnabled := (Assoc.get? "enabled" entry).map Value.truthy
  return {
    variant := variant
    path := path
    strength :=
      (((half.member? "strength").bind Value.float?).or entryStrength).getD defaultStrength
    enabled := (((half.member? "enabled").map Value.truthy).or entryEnabled).getD true }

/-- What an entry of a list asks for: its halves that have a path, or else its single path routed by
name. -/
def loraTargets : Value → List LoraTarget
  | .obj entry =>
    match NoiseVariant.all.filterMap (loraHalf? entry) with
    | [] =>
      match (Assoc.get? "path" entry).bind Value.modelPath? with
      | none => []
      | some path => [{
          variant := NoiseVariant.ofPath path
          path := path
          strength := ((Assoc.get? "strength" entry).bind Value.float?).getD defaultStrength
          enabled := ((Assoc.get? "enabled" entry).map Value.truthy).getD true }]
    | halves => halves
  | v =>
    match v.modelPath? with
    | some path => [⟨NoiseVariant.ofPath path, path, defaultStrength, true⟩]
    | none => []

namespace LoraMapping

def actions (l : LoraMapping) (v : Value) : List Action :=
  match v with
  | .arr entries => (entries.flatMap loraTargets).map fun t =>
    .addLora ⟨l.highNodeId, l.lowNodeId, t.path, t.strength, t.enabled, some t.variant⟩
  | _ => []

end LoraMapping

/-- The block of actions that a mapping gives for a value; axes are gathered elsewhere. -/
def Mapping.actions (m : Mapping) (v : Value) : List Action :=
  match m with
  | .widget w => w.actions v
  | .toggle t => t.actions v
  | .lora l => l.actions v
  | .vector _ => []
  | .unrecognized => []

namespace VectorMapping

def blank (id : NodeId) : VectorWrite := ⟨id, none, none, [], [], none⟩

/-- One axis written: a later value for an axis replaces an earlier one, the first kind of node
stays. -/
def extend (m : VectorMapping) (v : Value) (w : VectorWrite) : VectorWrite :=
  let w := match m.axis with
    | .x => { w with x := some v, xIndices := m.indices }
    | .y => { w with y := some v, yIndices := m.indices }
  { w with nodeKind := w.nodeKind.or m.nodeKind }

/-- One axis gathered into the writes so far, which are kept by node in the order of arrival. -/
def gather (groups : List (NodeId × VectorWrite)) (p : VectorMapping × Value) :
    List (NodeId × VectorWrite) :=
  let old := (Assoc.get? p.1.nodeId groups).getD (blank p.1.nodeId)
  Assoc.insert p.1.nodeId (p.1.extend p.2 old) groups

end VectorMapping

def suppliedValue? (flat : Object) (id : String) : Option Value :=
  (Assoc.get? id flat).filter fun v => !v.isNull

namespace Mappings

def shapeOf (m : Mappings) (id : String) : Option Shape :=
  if Assoc.contains id m then some .opaqueObject else none

def axes (m : Mappings) (flat : Object) : List (VectorMapping × Value) :=
  m.filterMap fun p =>
    match p.2 with
    | .vector v => (suppliedValue? flat p.1).map fun x => (v, x)
    | _ => none

def block (flat : Object) (p : String × Mapping) : List Action :=
  match suppliedValue? flat p.1 with
  | some v => p.2.actions v
  | none => []

def vectorActions (m : Mappings) (flat : Object) : List Action :=
  ((m.axes flat).foldl VectorMapping.gather []).map fun p => .modifyVector p.2

def compileFlat (m : Mappings) (flat : Object) : List Action :=
  m.flatMap (block flat) ++ m.vectorActions flat

def compile (m : Mappings) (inputs : Object) : List Action :=
  m.compileFlat (flattenDeclared m.shapeOf inputs)

end Mappings

end WorkflowGraph
