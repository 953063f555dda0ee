/- Inputs whose members stand in another order: what is made of them is the same. -/

import WorkflowGraph.Proofs.Sectioning
import WorkflowGraph.Proofs.Absence

set_option autoImplicit false
set_option relaxedAutoImplicit false

/-!
The order of the members of a section is the order of its leaves, so inputs in another order have
the same leaves in another order. Where no id comes twice the flat maps then give every id the same
value. Actions follow the order of the mappings and reports that of the fields, and both take their
values from the flat map by id.
-/

namespace WorkflowGraph

variable {shapeOf : String → Option Shape} {a b : Object}

/-- The members of the object and of its sections, at any depth, stand in another order. -/
def Reordered (shapeOf : String → Option Shape) : Object → Object → Prop :=
  Relation.ReflTransGen (InSection shapeOf List.Perm)

private theorem openAlike_of_perm (h : a.Perm b) : OpenAlike a b := by
  constructor
  · rw [← List.length_eq_zero_iff, ← List.length_eq_zero_iff, h.length_eq]
  · intro m _
    exact (h.map Prod.fst).mem_iff

private theorem leaves_eq_flatMap (shapeOf : String → Option Shape) (o : Object) :
    leaves shapeOf o = o.flatMap fun p => leavesOf shapeOf p.1 p.2 := by
  induction o with
  | nil => simp [leaves]
  | cons p o ih => rw [leaves_cons, ih, List.flatMap_cons]

private theorem leaves_perm (h : a.Perm b) : (leaves shapeOf a).Perm (leaves shapeOf b) := by
  rw [leaves_eq_flatMap, leaves_eq_flatMap]
  exact h.flatMap_right _

private theorem Reordered.leaves_perm (h : Reordered shapeOf a b) :
    (leaves shapeOf a).Perm (leaves shapeOf b) := by
  induction h with
  | refl => exact .refl _
  | tail _ step ih =>
    refine ih.trans (step.leaves openAlike_of_perm WorkflowGraph.leaves_perm ?_)
    intro before _ _ after same
    exact (same.append_right after).append_left before

private theorem Reordered.get?_flattenDeclared (h : Reordered shapeOf a b)
    (nodup : (Assoc.keys (leaves shapeOf a)).Nodup) (id : String) :
    Assoc.get? id (flattenDeclared shapeOf a) = Assoc.get? id (flattenDeclared shapeOf b) := by
  have perm := h.leaves_perm
  have nodup' : (Assoc.keys (leaves shapeOf b)).Nodup := (perm.map Prod.fst).nodup_iff.mp nodup
  rw [flattenDeclared, flattenDeclared, Assoc.ofList_of_nodup nodup, Assoc.ofList_of_nodup nodup',
    Assoc.get?_perm perm nodup]

private theorem Config.check_congr {c : Config} (maxLoras : Nat)
    (h : ∀ id, Assoc.get? id (c.flatten a) = Assoc.get? id (c.flatten b)) :
    c.check maxLoras a = c.check maxLoras b := by
  have gate : ∀ id, c.gateValue? (c.flatten a) id = c.gateValue? (c.flatten b) id := by
    intro id
    rw [gateValue?, gateValue?, h]
  have findings : c.fieldFindings maxLoras (c.flatten a) =
      c.fieldFindings maxLoras (c.flatten b) := by
    funext f
    rw [fieldFindings, fieldFindings, dependencyMet_congr fun d _ => gate d.field, h]
  simp only [check, findings]

/-- For inputs in two orders, of which no id comes twice, the actions are the same in the same order
and so are the errors and the warnings. -/
theorem input_order_unseen (m : Mappings) (c : Config) (maxLoras : Nat) (a b : Object) :
    (Reordered m.shapeOf a b → (Assoc.keys (leaves m.shapeOf a)).Nodup →
      m.compile a = m.compile b) ∧
    (Reordered c.shapeOf a b → (Assoc.keys (leaves c.shapeOf a)).Nodup →
      c.check maxLoras a = c.check maxLoras b) := by
  constructor
  · intro h nodup
    exact Mappings.compileFlat_congr fun p _ =>
      suppliedValue?_congr (h.get?_flattenDeclared nodup p.1)
  · intro h nodup
    exact Config.check_congr maxLoras (h.get?_flattenDeclared nodup)

/-- The sectioned inputs with the members of the object and of one section the other way round. -/
def reorderedSampling : Object :=
  [("seed", .ofNat 42),
    ("sampling", .obj [("advanced", .obj [("shift", .ofNat 8)]), ("cfg", .ofNat 5)])]

private theorem reordered_sampling (undeclared : shapeOf "sampling" = none) :
    Reordered shapeOf sectionedSampling reorderedSampling := by
  have outer : InSection shapeOf List.Perm sectionedSampling sectionedSampling.reverse :=
    .here (List.reverse_perm _).symm
  have inner : InSection shapeOf List.Perm sectionedSampling.reverse reorderedSampling := by
    refine .inside [("seed", .ofNat 42)] [] ?_ (.here (List.Perm.swap _ _ []))
    rw [opens, undeclared]
    rfl
  exact (Relation.ReflTransGen.single outer).tail inner

namespace Config

def firstWidget : Mapping := .widget ⟨some scalerId, [], [0], none, [], none, none, none⟩

/-- Two bounded numbers, mapped in the order opposite to that of the fields. -/
def sampler : Config := { upscaling with
  name := "Sampling"
  inputs := [
    { bareField "cfg" .slider with max? := some (Double.ofInt 4) },
    { bareField "shift" .slider with max? := some (Double.ofInt 4) }]
  mappings := [("shift", firstWidget), ("cfg", firstWidget)] }

/-- In both orders the shift is written first, as it is mapped first. -/
theorem sampling_order_unseen :
    sampler.mappings.compile sectionedSampling =
        [.modifyWidget ⟨scalerId, [0], [], .ofNat 8, none⟩,
          .modifyWidget ⟨scalerId, [0], [], .ofNat 5, none⟩] ∧
      sampler.mappings.compile sectionedSampling = sampler.mappings.compile reorderedSampling ∧
      sampler.check defaultMaxLoras sectionedSampling =
        sampler.check defaultMaxLoras reorderedSampling := by
  obtain ⟨actions, report⟩ := input_order_unseen sampler.mappings sampler defaultMaxLoras
    sectionedSampling reorderedSampling
  exact ⟨rfl, actions (reordered_sampling rfl) (by decide),
    report (reordered_sampling rfl) (by decide)⟩

end Config

end WorkflowGraph
