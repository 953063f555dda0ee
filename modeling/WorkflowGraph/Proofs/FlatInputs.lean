/- Flat inputs: the maps that flattening leaves as they are, its own results among them. -/

import WorkflowGraph.Inputs.Resolve
import WorkflowGraph.Inputs.Validation
import WorkflowGraph.Proofs.Leaves

set_option autoImplicit false
set_option relaxedAutoImplicit false

/-!
Whether an object is opened depends on its key and its members alone, so what was kept whole once is
kept whole again under the same key, whichever of its values a key ended up with. Inputs may be
flattened by a caller: they are checked and resolved as if they had come in sections.
-/

namespace WorkflowGraph

variable {shapeOf : String → Option Shape}

/-- A map from field ids to values none of which is a section. -/
structure Flat (shapeOf : String → Option Shape) (o : Object) : Prop where
  whole : ∀ p ∈ o, KeptWhole shapeOf p.1 p.2
  nodup : (Assoc.keys o).Nodup

private theorem flat_flattenDeclared (inputs : Object) :
    Flat shapeOf (flattenDeclared shapeOf inputs) where
  whole _ hp := keptWhole_of_mem_flattenDeclared hp
  nodup := nodup_keys_flattenDeclared inputs

private theorem flattenDeclared_eq_self_iff {o : Object} :
    flattenDeclared shapeOf o = o ↔ Flat shapeOf o := by
  constructor
  · intro same
    exact same ▸ flat_flattenDeclared o
  · intro flat
    exact flattenDeclared_of_keptWhole flat.whole flat.nodup

private theorem flattenDeclared_flattenDeclared (inputs : Object) :
    flattenDeclared shapeOf (flattenDeclared shapeOf inputs) = flattenDeclared shapeOf inputs :=
  flattenDeclared_eq_self_iff.mpr (flat_flattenDeclared inputs)

namespace Config

private theorem flatten_flatten (c : Config) (inputs : Object) :
    c.flatten (c.flatten inputs) = c.flatten inputs :=
  flattenDeclared_flattenDeclared inputs

private theorem check_flatten (c : Config) (maxLoras : Nat) (inputs : Object) :
    c.check maxLoras (c.flatten inputs) = c.check maxLoras inputs := by
  rw [check, flatten_flatten, check]

private theorem resolve_flatten (c : Config) (inputs : Object) (words : Words) :
    c.resolve (c.flatten inputs) words = c.resolve inputs words := by
  rw [resolve, flatten_flatten, resolve]

end Config

/-- Flattening a second time changes nothing, not even the order: every value of a flat map is again
a leaf under its own key. In fact the maps that flattening leaves as they are are just those with
distinct keys and no value that it would open. So inputs that are flat already are checked and
resolved like those they come from. -/
theorem flattening_idempotent (shapeOf : String → Option Shape) (inputs : Object) :
    flattenDeclared shapeOf (flattenDeclared shapeOf inputs) = flattenDeclared shapeOf inputs ∧
      (∀ p ∈ flattenDeclared shapeOf inputs, KeptWhole shapeOf p.1 p.2) ∧
      (∀ o, flattenDeclared shapeOf o = o ↔ Flat shapeOf o) ∧
      ∀ (c : Config) (maxLoras : Nat) (words : Words),
        c.check maxLoras (c.flatten inputs) = c.check maxLoras inputs ∧
          c.resolve (c.flatten inputs) words = c.resolve inputs words := by
  refine ⟨flattenDeclared_flattenDeclared inputs, (flat_flattenDeclared inputs).whole,
    fun _ => flattenDeclared_eq_self_iff, ?_⟩
  intro c maxLoras words
  exact ⟨c.check_flatten maxLoras inputs, c.resolve_flatten inputs words⟩

/-- The section is opened and its other value for the factor comes last; the model is a leaf. -/
example : (flatten [("factor", .ofNat 1), ("model", .obj [("path", .str "a")]),
    ("size", .obj [("factor", .ofNat 2)])]).map (fun p => (p.1, p.2.int?)) =
      [("factor", some 2), ("model", none)] := by decide

end WorkflowGraph
