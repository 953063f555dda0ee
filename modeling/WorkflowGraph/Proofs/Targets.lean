/- Which nodes the actions of inputs are about, and what generation keeps of a template. -/

import WorkflowGraph.Proofs.Frame
import WorkflowGraph.Proofs.Reflattening
import WorkflowGraph.Service

set_option autoImplicit false
set_option relaxedAutoImplicit false

/-!
The actions of a mapping are about nodes that the mapping names, and a mapping without a value has no
actions. The axes of two-dimensional widgets are gathered by node, and each group comes from an axis
that names its node. So a compilation writes to no node but those named by the mappings that have a
value, and generation keeps the rest of the template.
-/

namespace WorkflowGraph

theorem mem_appendNew {α : Type} [DecidableEq α] {old new : List α} {x : α}
    (h : x ∈ appendNew old new) : x ∈ old ++ new := by
  induction new generalizing old with
  | nil => simpa [appendNew] using h
  | cons y new ih =>
    have step : appendNew old (y :: new) =
        appendNew (if y ∈ old then old else old ++ [y]) new := rfl
    rw [step] at h
    have later := ih h
    by_cases hy : y ∈ old
    · rw [if_pos hy] at later
      rcases List.mem_append.mp later with hx | hx
      · exact List.mem_append_left _ hx
      · exact List.mem_append_right _ (List.mem_cons_of_mem y hx)
    · rw [if_neg hy] at later
      simpa using later

namespace Mapping

def nodeIds : Mapping → List NodeId
  | .widget w => w.nodeId.toList ++ w.nodeIds ++ w.highNodeId.toList ++ w.lowNodeId.toList
  | .toggle t => t.nodeId.toList ++ t.nodeIds ++ t.saveNodeId.toList
  | .lora l => [l.highNodeId, l.lowNodeId]
  | .vector v => [v.nodeId]
  | .unrecognized => []

end Mapping

namespace WidgetMapping

private theorem half?_mem_nodeIds {w : WidgetMapping} {variant : NoiseVariant} {id : NodeId}
    (h : w.half? variant = some id) : id ∈ (Mapping.widget w).nodeIds := by
  cases variant with
  | high =>
    have named : w.highNodeId = some id := h
    simp [Mapping.nodeIds, named]
  | low =>
    have named : w.lowNodeId = some id := h
    simp [Mapping.nodeIds, named]

theorem write_of_mem_actions {w : WidgetMapping} {v : Value} {a : Action}
    (h : a ∈ w.actions v) : ∃ id ∈ (Mapping.widget w).nodeIds, ∃ v, a = w.write v id := by
  have single : ∀ v, a ∈ w.targets.map (w.write v) →
      ∃ id ∈ (Mapping.widget w).nodeIds, ∃ v, a = w.write v id := by
    intro v h
    obtain ⟨id, hid, rfl⟩ := List.mem_map.mp h
    refine ⟨id, ?_, v, rfl⟩
    exact List.mem_append_left _ (List.mem_append_left _ (mem_appendNew hid))
  unfold actions at h
  split at h
  · obtain ⟨variant, -, h⟩ := List.mem_filterMap.mp h
    obtain ⟨id, hid, h⟩ := Option.bind_eq_some_iff.mp h
    obtain ⟨path, -, h⟩ := Option.bind_eq_some_iff.mp h
    obtain rfl : w.write (.str path) id = a := Option.some.inj h
    exact ⟨id, half?_mem_nodeIds hid, .str path, rfl⟩
  · exact single _ h

private theorem targets_of_mem_actions {w : WidgetMapping} {v : Value} {a : Action}
    (h : a ∈ w.actions v) : a.targets ⊆ (Mapping.widget w).nodeIds := by
  obtain ⟨id, hid, v, rfl⟩ := write_of_mem_actions h
  intro target ht
  obtain rfl := List.mem_singleton.mp ht
  exact hid

end WidgetMapping

namespace ToggleMapping

private theorem targets_of_mem_actions {t : ToggleMapping} {v : Value} {a : Action}
    (h : a ∈ t.actions v) : a.targets ⊆ (Mapping.toggle t).nodeIds := by
  unfold actions at h
  split at h
  · exact absurd h List.not_mem_nil
  · obtain rfl := List.mem_singleton.mp h
    intro target ht
    rcases List.mem_append.mp ht with ht | ht
    · exact List.mem_append_left _ (mem_appendNew ht)
    · exact List.mem_append_right _ ht

end ToggleMapping

namespace LoraMapping

def node (l : LoraMapping) : NoiseVariant → NodeId
  | .high => l.highNodeId
  | .low => l.lowNodeId

def entry (l : LoraMapping) (t : LoraTarget) : LoraEntry :=
  ⟨l.highNodeId, l.lowNodeId, t.path, t.strength, t.enabled, some t.variant⟩

theorem actions_arr (l : LoraMapping) (entries : List Value) :
    l.actions (.arr entries) =
      (entries.flatMap loraTargets).map fun t => .addLora (l.entry t) := rfl

@[simp] theorem target_entry (l : LoraMapping) (t : LoraTarget) :
    (l.entry t).target = l.node t.variant := by
  cases h : t.variant <;> simp [entry, LoraEntry.target, node, h]

private theorem node_mem_nodeIds (l : LoraMapping) (variant : NoiseVariant) :
    l.node variant ∈ (Mapping.lora l).nodeIds := by
  cases variant <;> simp [node, Mapping.nodeIds]

private theorem targets_of_mem_actions {l : LoraMapping} {v : Value} {a : Action}
    (h : a ∈ l.actions v) : a.targets ⊆ (Mapping.lora l).nodeIds := by
  cases v with
  | arr entries =>
    obtain ⟨t, -, rfl⟩ := List.mem_map.mp (l.actions_arr entries ▸ h)
    intro target ht
    obtain rfl := List.mem_singleton.mp ht
    rw [target_entry]
    exact l.node_mem_nodeIds t.variant
  | _ => exact absurd h List.not_mem_nil

end LoraMapping

private theorem Mapping.targets_of_mem_actions {m : Mapping} {v : Value} {a : Action}
    (h : a ∈ m.actions v) : a.targets ⊆ m.nodeIds := by
  cases m with
  | widget w => exact WidgetMapping.targets_of_mem_actions h
  | toggle t => exact ToggleMapping.targets_of_mem_actions h
  | lora l => exact LoraMapping.targets_of_mem_actions h
  | vector m => exact absurd h List.not_mem_nil
  | unrecognized => exact absurd h List.not_mem_nil

namespace VectorMapping

/-- Every group stands under the id of its own node and holds an axis of that node. -/
def Grouped (axes : List (VectorMapping × Value)) (groups : List (NodeId × VectorWrite)) : Prop :=
  ∀ p ∈ groups, p.2.nodeId = p.1 ∧ ∃ q ∈ axes, q.1.nodeId = p.1

@[simp] theorem extend_nodeId (m : VectorMapping) (v : Value) (w : VectorWrite) :
    (m.extend v w).nodeId = w.nodeId := by
  cases h : m.axis <;> simp [extend, h]

private theorem Grouped.gather {axes : List (VectorMapping × Value)}
    {groups : List (NodeId × VectorWrite)} (h : Grouped axes groups)
    {q : VectorMapping × Value} (hq : q ∈ axes) : Grouped axes (gather groups q) := by
  intro p hp
  rcases Assoc.mem_insert hp with rfl | hp
  · -- a group starts out with the id of its first axis, and no axis changes it
    refine ⟨?_, q, hq, rfl⟩
    rw [extend_nodeId]
    cases hg : Assoc.get? q.1.nodeId groups with
    | none => rfl
    | some w => exact (h _ (Assoc.mem_of_get? hg)).1
  · exact h p hp

theorem grouped_foldl (axes : List (VectorMapping × Value)) :
    Grouped axes (axes.foldl VectorMapping.gather []) :=
  List.foldlRecOn axes VectorMapping.gather (fun _ hp => absurd hp List.not_mem_nil)
    fun _ h _ hq => h.gather hq

end VectorMapping

namespace Mappings

/-- The ids that are named by the mappings whose field has a value. -/
def named (m : Mappings) (flat : Object) : List NodeId :=
  m.flatMap fun p => if (suppliedValue? flat p.1).isSome then p.2.nodeIds else []

private theorem nodeIds_subset_named {m : Mappings} {flat : Object} {p : String × Mapping}
    (hp : p ∈ m) (supplied : (suppliedValue? flat p.1).isSome = true) :
    p.2.nodeIds ⊆ m.named flat := by
  intro id hid
  rw [named, List.mem_flatMap]
  exact ⟨p, hp, by rwa [if_pos supplied]⟩

theorem exists_of_mem_block {flat : Object} {p : String × Mapping} {a : Action}
    (h : a ∈ block flat p) : ∃ v, suppliedValue? flat p.1 = some v ∧ a ∈ p.2.actions v := by
  unfold block at h
  cases hv : suppliedValue? flat p.1 with
  | none =>
    rw [hv] at h
    exact absurd h List.not_mem_nil
  | some v =>
    rw [hv] at h
    exact ⟨v, rfl, h⟩

private theorem targets_of_mem_block {m : Mappings} {flat : Object} {p : String × Mapping}
    (hp : p ∈ m) {a : Action} (h : a ∈ block flat p) : a.targets ⊆ m.named flat := by
  obtain ⟨v, hv, h⟩ := exists_of_mem_block h
  have own : a.targets ⊆ p.2.nodeIds := Mapping.targets_of_mem_actions h
  exact List.Subset.trans own (nodeIds_subset_named hp (by simp [hv]))

theorem mem_axes {m : Mappings} {flat : Object} {q : VectorMapping × Value}
    (h : q ∈ m.axes flat) : ∃ id, (id, Mapping.vector q.1) ∈ m ∧
      suppliedValue? flat id = some q.2 := by
  obtain ⟨⟨id, mapping⟩, hp, h⟩ := List.mem_filterMap.mp h
  cases mapping with
  | vector v =>
    obtain ⟨x, hx, rfl⟩ := Option.map_eq_some_iff.mp h
    exact ⟨id, hp, hx⟩
  | _ => exact nomatch h

private theorem targets_of_mem_vectorActions {m : Mappings} {flat : Object} {a : Action}
    (h : a ∈ m.vectorActions flat) : a.targets ⊆ m.named flat := by
  obtain ⟨p, hp, rfl⟩ := List.mem_map.mp h
  obtain ⟨own, q, hq, hid⟩ := VectorMapping.grouped_foldl (m.axes flat) p hp
  obtain ⟨id, hm, supplied⟩ := mem_axes hq
  intro target ht
  have same : target = q.1.nodeId := by rw [List.mem_singleton.mp ht, own, hid]
  refine nodeIds_subset_named hm (by simp [supplied]) ?_
  exact List.mem_singleton.mpr same

private theorem targets_of_mem_compileFlat {m : Mappings} {flat : Object} {a : Action}
    (h : a ∈ m.compileFlat flat) : a.targets ⊆ m.named flat := by
  rcases List.mem_append.mp h with h | h
  · obtain ⟨p, hp, h⟩ := List.mem_flatMap.mp h
    exact targets_of_mem_block hp h
  · exact targets_of_mem_vectorActions h

end Mappings

namespace Config

theorem compile_eq_ok_iff {c : Config} {maxLoras : Nat} {inputs : Object} {words rest : Words}
    {compiled : Compiled} :
    c.compile maxLoras inputs words = .ok (compiled, rest) ↔
      (c.check maxLoras inputs).isValid = true ∧
        compiled = ⟨(c.resolve inputs words).1, c.mappings.compile (c.resolve inputs words).1,
          c.check maxLoras inputs⟩ ∧
        rest = (c.resolve inputs words).2 := by
  cases valid : (c.check maxLoras inputs).isValid with
  | false =>
    have fails : c.compile maxLoras inputs words =
        .error (.validationFailed (c.check maxLoras inputs)) := by
      simp [compile, Report.accept, valid]
    simp [fails]
  | true =>
    have succeeds : c.compile maxLoras inputs words =
        .ok (⟨(c.resolve inputs words).1, c.mappings.compile (c.resolve inputs words).1,
          c.check maxLoras inputs⟩, (c.resolve inputs words).2) := by
      simp [compile, Report.accept, valid]
    rw [succeeds, Except.ok.injEq, Prod.mk.injEq]
    constructor
    · rintro ⟨rfl, rfl⟩
      exact ⟨rfl, rfl, rfl⟩
    · rintro ⟨-, rfl, rfl⟩
      exact ⟨rfl, rfl⟩

theorem compile_of_isValid {c : Config} {maxLoras : Nat} {inputs : Object}
    (h : (c.check maxLoras inputs).isValid = true) (words : Words) :
    c.compile maxLoras inputs words =
      .ok (⟨(c.resolve inputs words).1, c.mappings.compile (c.resolve inputs words).1,
        c.check maxLoras inputs⟩, (c.resolve inputs words).2) :=
  compile_eq_ok_iff.mpr ⟨h, rfl, rfl⟩

/-- Actions that were compiled from inputs leave every template as it is, but for what actions write
to the nodes named by the mappings whose field has a value. A template has a result unless the run
comes to an entry for a node of the flat form that has the largest word as a slot. -/
theorem framed_of_compile_eq_ok {c : Config} {maxLoras : Nat} {inputs : Object}
    {words rest : Words} {compiled : Compiled}
    (h : c.compile maxLoras inputs words = .ok (compiled, rest)) (template : Graph) :
    (∀ result, template.applyAll compiled.actions = some result →
      template.Framed (c.mappings.named (flattenDeclared c.mappings.shapeOf compiled.inputs))
        result.1) ∧
    (template.applyAll compiled.actions = none ↔ template.RunsOut compiled.actions) := by
  obtain ⟨-, rfl, -⟩ := compile_eq_ok_iff.mp h
  refine ⟨fun result made => ?_, template.applyAll_eq_none_iff _⟩
  obtain ⟨-, rfl⟩ := Graph.applyAll_eq_some_iff.mp made
  apply Graph.framed_run
  intro a ha
  exact Mappings.targets_of_mem_compileFlat ha

/-- A node to scale an image by a factor, and one to save the result. -/
def scaling : Graph :=
  .canvas {
    nodes := [
      ⟨scalerId, "ImageScaleBy", .enabled, .arr [.str "nearest", .ofNat 1], none, []⟩,
      ⟨⟨9, by decide⟩, "SaveImage", .enabled, .arr [.str "upscaled"], none, []⟩]
    links := []
    extra := [] }

theorem framed_scaling : ∃ compiled rest result,
    upscaling.compile defaultMaxLoras upscalingInputs ⟨[], 0⟩ = .ok (compiled, rest) ∧
      scaling.applyAll compiled.actions = some result ∧ scaling.Framed [scalerId] result.1 := by
  have valid : (upscaling.check defaultMaxLoras upscalingInputs).isValid = true := by
    decide +kernel
  have made := Graph.applyAll_canvas
  refine ⟨_, _, _, compile_eq_ok_iff.mpr ⟨valid, rfl, rfl⟩, made _ _, ?_⟩
  exact (framed_of_compile_eq_ok (compile_eq_ok_iff.mpr ⟨valid, rfl, rfl⟩) scaling).1 _ (made _ _)

end Config

end WorkflowGraph
