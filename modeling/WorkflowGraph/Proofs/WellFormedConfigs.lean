/- Accepted configs: the conditions under which a config has no flaw, whatever the order of its
parts. -/

import WorkflowGraph.Proofs.ActionBlocks
import WorkflowGraph.Proofs.IntegerRounding
import WorkflowGraph.Proofs.Recognition

set_option autoImplicit false
set_option relaxedAutoImplicit false

/-!
Flaws are looked for one part after another, with the ids that came before at hand. A config without
any is one of which each part meets a condition of its own and the ids of inputs and of outputs are
distinct. None of this says in which order the parts stand.
-/

namespace WorkflowGraph

private theorem Text.isBlankText_eq_false_iff {s : String} :
    isBlankText s = false ↔ ∃ c ∈ s.toList, isBlank c = false := by
  simp [isBlankText, List.all_eq_false]

private theorem mem_appendNew_iff {α : Type} [DecidableEq α] {old new : List α} {x : α} :
    x ∈ appendNew old new ↔ x ∈ old ∨ x ∈ new :=
  ⟨fun h => List.mem_append.mp (mem_appendNew h), mem_appendNew_of_mem⟩

namespace Double

private theorem less_eq_false_iff {a b : Double} : a.less b = false ↔ b.value ≤ a.value := by
  rw [less, decide_eq_false_iff_not, not_lt, units_le_units_iff]

private theorem less_zero_iff {d : Double} : (zero false).less d = true ↔ 0 < d.value := by
  rw [← Bool.not_eq_false, less_eq_false_iff, not_le, value_zero]

end Double

namespace Field

/-- What acceptance asks of a field among declared ids: its condition looks at another declared
field, and the bounds and the step of a slider leave it room. -/
structure WellFormed (ids : List String) (f : Field) : Prop where
  condition : ∀ d, f.dependsOn? = some d → d.field ≠ f.id ∧ d.field ∈ ids
  bounds : f.type = .slider → ∀ min max, f.min? = some min → f.max? = some max →
    min.value ≤ max.value
  step : f.type = .slider → ∀ step, f.step? = some step → 0 < step.value

variable {ids : List String} {f : Field}

private theorem wellFormed_iff : f.WellFormed ids ↔
    (∀ d, f.dependsOn? = some d → d.field ≠ f.id ∧ d.field ∈ ids) ∧
      (f.type = .slider →
        (∀ min max, f.min? = some min → f.max? = some max → min.value ≤ max.value) ∧
        ∀ step, f.step? = some step → 0 < step.value) :=
  ⟨fun h => ⟨h.condition, fun slider => ⟨h.bounds slider, h.step slider⟩⟩,
    fun h => ⟨h.1, fun slider => (h.2 slider).1, fun slider => (h.2 slider).2⟩⟩

private theorem flaws_eq_nil_iff : f.flaws ids = [] ↔ f.WellFormed ids := by
  rw [wellFormed_iff, flaws, List.append_eq_nil_iff]
  refine and_congr ?_ ?_
  · cases f.dependsOn? with
    | none => simp
    | some d => simp
  · by_cases slider : f.type = .slider
    · rw [if_pos slider, List.append_eq_nil_iff, forall_prop_of_true slider]
      refine and_congr ?_ ?_
      · cases f.min? <;> cases f.max? <;> simp [Double.less_eq_false_iff]
      · cases f.step? <;> simp [Double.less_zero_iff]
    · simp [slider]

end Field

private theorem isEmpty_appendNew_iff {id? : Option NodeId} {ids : List NodeId} :
    (appendNew id?.toList ids).isEmpty = false ↔ ∃ id, id? = some id ∨ id ∈ ids := by
  rw [List.isEmpty_eq_false_iff_exists_mem]
  simp [mem_appendNew_iff]

private theorem WidgetMapping.hasPair_iff {w : WidgetMapping} :
    w.hasPair = true ↔ ∃ id, w.highNodeId = some id ∨ w.lowNodeId = some id := by
  simp [hasPair, Option.isSome_iff_exists, exists_or]

private theorem ToggleMapping.exists_actions_eq {t : ToggleMapping}
    (named : t.targets.isEmpty = false) (v : Value) :
    ∃ w : ModeToggle, t.actions v = [.toggleMode w] ∧ w.nodeIds = t.targets := by
  rw [actions, if_neg (Bool.eq_false_iff.mp named)]
  exact ⟨_, rfl, rfl⟩

private theorem Mappings.mem_compile_of_mem_actions {m : Mappings} {inputs : Object}
    {p : String × Mapping} (hp : p ∈ m) {v : Value}
    (supplied : suppliedValue? (m.seen inputs) p.1 = some v) {a : Action} (ha : a ∈ p.2.actions v) :
    a ∈ m.compile inputs := by
  have own : a ∈ block (m.seen inputs) p := by
    rw [block, supplied]
    exact ha
  exact List.mem_append_left _ (List.mem_flatMap_of_mem hp own)

namespace Mapping

/-- What acceptance asks of a mapping: widgets are those of some node, be it that of one half of a
model pair, toggles are for some node, and an axis has a position. -/
def WellFormed : Mapping → Prop
  | widget w =>
    ∃ id, w.nodeId = some id ∨ id ∈ w.nodeIds ∨ w.highNodeId = some id ∨ w.lowNodeId = some id
  | toggle t => ∃ id, t.nodeId = some id ∨ id ∈ t.nodeIds
  | vector v => v.indices ≠ []
  | lora _ => True
  | unrecognized => True

private theorem flaws_eq_nil_iff {key : String} {m : Mapping} :
    m.flaws key = [] ↔ m.WellFormed := by
  cases m with
  | widget w =>
    rw [flaws, flawIf_eq_nil_iff, Bool.and_eq_false_iff, WidgetMapping.targets,
      isEmpty_appendNew_iff, Bool.not_eq_false', WidgetMapping.hasPair_iff]
    simp only [WellFormed, exists_or, or_assoc]
  | toggle t =>
    rw [flaws, flawIf_eq_nil_iff, ToggleMapping.targets, isEmpty_appendNew_iff, WellFormed]
  | vector v => rw [flaws, flawIf_eq_nil_iff, List.isEmpty_eq_false_iff, WellFormed]
  | lora l => exact iff_of_true rfl trivial
  | unrecognized => exact iff_of_true rfl trivial

end Mapping

namespace Config

/-- What acceptance asks of a config. -/
structure WellFormed (c : Config) : Prop where
  name : ∃ ch ∈ c.name.toList, Text.isBlank ch = false
  workflowFile : ∃ ch ∈ c.workflowFile.toList, Text.isBlank ch = false
  named : ∀ f ∈ c.inputs, f.id ≠ ""
  distinctInputs : (c.inputs.map Field.id).Nodup
  inputs : ∀ f ∈ c.inputs, f.WellFormed (c.inputs.map Field.id)
  distinctOutputs : (c.outputs.map Output.id).Nodup
  mappings : ∀ p ∈ c.mappings, p.2.WellFormed

/-- Two configs with the same name and template have the same inputs, outputs and mappings, each of
them perhaps in another order. -/
structure Permuted (c d : Config) : Prop where
  name : d.name = c.name
  workflowFile : d.workflowFile = c.workflowFile
  inputs : d.inputs.Perm c.inputs
  outputs : d.outputs.Perm c.outputs
  mappings : d.mappings.Perm c.mappings

variable {c d : Config}

private theorem flaws_eq_nil_iff : c.flaws = [] ↔ c.WellFormed := by
  have fresh (xs : List String) : repeated [] xs = [] ↔ xs.Nodup := by
    simp [repeated_eq_nil_iff]
  simp only [flaws, List.append_eq_nil_iff, flawIf_eq_nil_iff, Text.isBlankText_eq_false_iff,
    idFlaws_eq_nil_iff, List.forall_mem_map, List.map_eq_nil_iff, fresh, List.flatMap_eq_nil_iff,
    Field.flaws_eq_nil_iff, Mapping.flaws_eq_nil_iff]
  constructor
  · rintro ⟨⟨⟨⟨⟨name, file⟩, named, inputs⟩, fields⟩, outputs⟩, mappings⟩
    exact ⟨name, file, named, inputs, fields, outputs, mappings⟩
  · rintro ⟨name, file, named, inputs, fields, outputs, mappings⟩
    exact ⟨⟨⟨⟨⟨name, file⟩, named, inputs⟩, fields⟩, outputs⟩, mappings⟩

private theorem Permuted.symm (h : c.Permuted d) : d.Permuted c :=
  ⟨h.name.symm, h.workflowFile.symm, h.inputs.symm, h.outputs.symm, h.mappings.symm⟩

private theorem WellFormed.of_permuted (h : c.WellFormed) (order : c.Permuted d) :
    d.WellFormed where
  name := order.name ▸ h.name
  workflowFile := order.workflowFile ▸ h.workflowFile
  named f hf := h.named f (order.inputs.mem_iff.mp hf)
  distinctInputs := (order.inputs.map Field.id).nodup_iff.mpr h.distinctInputs
  inputs f hf := by
    have own := h.inputs f (order.inputs.mem_iff.mp hf)
    refine { own with condition := fun d hd => ?_ }
    obtain ⟨other, declared⟩ := own.condition d hd
    exact ⟨other, (order.inputs.map Field.id).mem_iff.mpr declared⟩
  distinctOutputs := (order.outputs.map Output.id).nodup_iff.mpr h.distinctOutputs
  mappings p hp := h.mappings p (order.mappings.mem_iff.mp hp)

private theorem validate_eq_ok_iff_wellFormed : c.validate = .ok () ↔ c.WellFormed :=
  (validate_eq_ok_iff c).trans flaws_eq_nil_iff

/-- A config is accepted exactly when it is well formed. So the order of inputs, outputs and mappings
decides nothing, and every toggle of an accepted config that has a value becomes one action, for at
least one node. -/
theorem accepted_iff_wellFormed (c : Config) :
    (c.validate = .ok () ↔ c.WellFormed) ∧
      (∀ d : Config, c.Permuted d → (d.validate = .ok () ↔ c.validate = .ok ())) ∧
      (c.validate = .ok () → ∀ key t, (key, Mapping.toggle t) ∈ c.mappings →
        ∀ inputs v, suppliedValue? (c.mappings.seen inputs) key = some v →
          ∃ w : ModeToggle, t.actions v = [.toggleMode w] ∧ w.nodeIds = t.targets ∧
            w.nodeIds ≠ [] ∧ .toggleMode w ∈ c.mappings.compile inputs) := by
  refine ⟨validate_eq_ok_iff_wellFormed, ?_, ?_⟩
  · intro d order
    rw [validate_eq_ok_iff_wellFormed, validate_eq_ok_iff_wellFormed]
    exact ⟨fun h => h.of_permuted order.symm, fun h => h.of_permuted order⟩
  · intro accepted key t ht inputs v supplied
    have wellFormed := validate_eq_ok_iff_wellFormed.mp accepted
    have named : t.targets.isEmpty = false :=
      isEmpty_appendNew_iff.mpr (wellFormed.mappings _ ht)
    obtain ⟨w, made, nodes⟩ := ToggleMapping.exists_actions_eq named v
    have mem : Action.toggleMode w ∈ (Mapping.toggle t).actions v := by
      rw [Mapping.actions, made]
      exact List.mem_singleton_self _
    exact ⟨w, made, nodes, nodes ▸ List.isEmpty_eq_false_iff.mp named,
      Mappings.mem_compile_of_mem_actions ht supplied mem⟩

/-- The strength of a light, in steps of a tenth, while the light is on. -/
def light : Field := { bareField "light" .slider with
  min? := some (Double.ofInt 0)
  max? := some (Double.ofInt 2)
  step? := Double.nearest false 1 10
  dependsOn? := some ⟨"relight", .bool true⟩ }

/-- A light that is switched at one node, and its strength, which goes to half of a model pair. -/
def relighting : Config := { upscaling with
  name := "Relighting"
  inputs := [light, bareField "relight" .checkbox]
  outputs := [⟨"image", "image", none, none, []⟩, ⟨"mask", "image", none, none, []⟩]
  mappings := [
    ("light", .widget ⟨none, [], [0], none, [], none, some scalerId, none⟩),
    ("relight", .toggle ⟨none, [scalerId], .enabled, .muted, none⟩)] }

def relightingReversed : Config := { relighting with
  inputs := relighting.inputs.reverse
  outputs := relighting.outputs.reverse
  mappings := relighting.mappings.reverse }

theorem relighting_accepted :
    relighting.WellFormed ∧ relightingReversed.validate = .ok () ∧
      ∃ w : ModeToggle, w.nodeIds = [scalerId] ∧
        .toggleMode w ∈ relighting.mappings.compile [("relight", .bool false)] := by
  have accepted : relighting.validate = .ok () := by
    rw [validate_eq_ok_iff, ← List.isEmpty_iff]
    decide +kernel
  obtain ⟨exact_, order, toggles⟩ := accepted_iff_wellFormed relighting
  have reversed : relighting.Permuted relightingReversed :=
    ⟨rfl, rfl, List.reverse_perm _, List.reverse_perm _, List.reverse_perm _⟩
  obtain ⟨w, -, nodes, -, made⟩ := toggles accepted "relight" _
    (List.mem_cons_of_mem _ List.mem_cons_self) [("relight", .bool false)] (.bool false) rfl
  exact ⟨exact_.mp accepted, (order _ reversed).mpr accepted, w, nodes, made⟩

end Config

end WorkflowGraph
