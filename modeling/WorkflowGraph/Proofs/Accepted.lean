/- What the acceptance of a config says about its fields. -/

import WorkflowGraph.Config.WellFormed

set_option autoImplicit false
set_option relaxedAutoImplicit false

namespace WorkflowGraph

@[simp] theorem flawIf_eq_nil_iff {condition : Bool} {flaw : ConfigFlaw} :
    flawIf condition flaw = [] ↔ condition = false := by
  cases condition <;> simp [flawIf]

theorem repeated_eq_nil_iff (seen xs : List String) :
    repeated seen xs = [] ↔ (∀ s ∈ xs, s ∉ seen) ∧ xs.Nodup := by
  induction xs generalizing seen with
  | nil => simp [repeated]
  | cons s rest ih =>
    have head : (if s ∈ seen then [s] else []) = [] ↔ s ∉ seen := by simp
    rw [repeated, List.append_eq_nil_iff, head, ih, List.forall_mem_cons, List.nodup_cons]
    simp only [List.mem_cons, not_or]
    constructor
    · rintro ⟨fresh, later, nodup⟩
      refine ⟨⟨fresh, fun x hx => (later x hx).2⟩, ?_, nodup⟩
      intro again
      exact (later s again).1 rfl
    · rintro ⟨⟨fresh, later⟩, once, nodup⟩
      refine ⟨fresh, fun x hx => ⟨?_, later x hx⟩, nodup⟩
      rintro rfl
      exact once hx

namespace Config

variable {c : Config}

theorem idFlaws_eq_nil_iff (seen ids : List String) :
    idFlaws seen ids = [] ↔ (∀ id ∈ ids, id ≠ "") ∧ repeated seen ids = [] := by
  induction ids generalizing seen with
  | nil => simp [idFlaws, repeated]
  | cons id rest ih =>
    have head : (if id ∈ seen then [id] else []) = [] ↔ id ∉ seen := by simp
    rw [idFlaws, repeated, List.append_eq_nil_iff, List.append_eq_nil_iff,
      List.append_eq_nil_iff, head, ih, List.forall_mem_cons, flawIf_eq_nil_iff,
      flawIf_eq_nil_iff, decide_eq_false_iff_not, decide_eq_false_iff_not]
    constructor
    · rintro ⟨⟨nonempty, fresh⟩, later, once⟩
      exact ⟨⟨nonempty, later⟩, fresh, once⟩
    · rintro ⟨⟨nonempty, later⟩, fresh, once⟩
      exact ⟨⟨nonempty, fresh⟩, later, once⟩

theorem flaws_of_validate (h : c.validate = .ok ()) :
    idFlaws [] (c.inputs.map Field.id) = [] ∧
      ∀ f ∈ c.inputs, f.flaws (c.inputs.map Field.id) = [] := by
  have none : c.flaws = [] := (validate_eq_ok_iff c).mp h
  simp only [flaws, List.append_eq_nil_iff, List.flatMap_eq_nil_iff] at none
  obtain ⟨⟨⟨⟨-, ids⟩, fields⟩, -⟩, -⟩ := none
  exact ⟨ids, fields⟩

theorem nodup_ids (h : c.validate = .ok ()) : (c.inputs.map Field.id).Nodup :=
  ((repeated_eq_nil_iff _ _).mp ((idFlaws_eq_nil_iff _ _).mp (flaws_of_validate h).1).2).2

theorem dependency_ne (h : c.validate = .ok ()) {f : Field} (hf : f ∈ c.inputs) {d : Dependency}
    (hd : f.dependsOn? = some d) : d.field ≠ f.id := by
  have none := (flaws_of_validate h).2 f hf
  simp only [Field.flaws, hd, List.append_eq_nil_iff, flawIf_eq_nil_iff,
    decide_eq_false_iff_not] at none
  exact none.1.1

theorem field?_of_mem (distinct : (c.inputs.map Field.id).Nodup) {f : Field} (hf : f ∈ c.inputs) :
    c.field? f.id = some f := by
  obtain ⟨before, after, split⟩ := List.append_of_mem hf
  have fresh : ∀ g ∈ before, ¬ g.id = f.id := by
    intro g hg same
    rw [split, List.map_append, List.map_cons] at distinct
    have apart := (List.nodup_append.mp distinct).2.2 g.id (List.mem_map_of_mem hg) f.id
      List.mem_cons_self
    exact apart same
  rw [field?, split, List.find?_append, List.find?_eq_none.mpr (by simpa using fresh)]
  simp

end Config

end WorkflowGraph
