/- Fields whose condition does not hold: when a value supplied for one reaches the actions. -/

import WorkflowGraph.Proofs.FieldValues
import WorkflowGraph.Proofs.LoraEntries

set_option autoImplicit false
set_option relaxedAutoImplicit false

/-!
The condition of a field decides whether its value is checked and whether its default is filled in.
It does not decide whether a supplied value is used: the value of a mapped field stays in the
resolved inputs, unchecked, and actions are made of it like of any other.
-/

namespace WorkflowGraph

private theorem suppliedValue?_eq_none_iff {flat : Object} {id : String} :
    suppliedValue? flat id = none ↔ ∀ v, Assoc.get? id flat = some v → v = .null := by
  rw [suppliedValue?, Option.filter_eq_none_iff]
  simp [Value.isNull_eq_true_iff]

theorem suppliedValue?_congr {a b : Object} {id : String}
    (h : Assoc.get? id a = Assoc.get? id b) : suppliedValue? a id = suppliedValue? b id := by
  rw [suppliedValue?, suppliedValue?, h]

namespace Mappings

variable {flat : Object} {id : String}

theorem axes_cons (p : String × Mapping) (m : Mappings) (flat : Object) :
    axes (p :: m) flat = axes [p] flat ++ m.axes flat :=
  List.filterMap_append (l := [p])

private theorem flatMap_block_erase (m : Mappings) (h : suppliedValue? flat id = none) :
    (Assoc.erase id m).flatMap (block flat) = m.flatMap (block flat) := by
  induction m with
  | nil => rfl
  | cons p m ih =>
    by_cases own : id = p.1
    · subst own
      have empty : block flat p = [] := by rw [block, h]
      rw [Assoc.erase_cons_self, ih, List.flatMap_cons, empty, List.nil_append]
    · rw [Assoc.erase_cons_of_ne own, List.flatMap_cons, List.flatMap_cons, ih]

private theorem axes_erase (m : Mappings) (h : suppliedValue? flat id = none) :
    axes (Assoc.erase id m) flat = m.axes flat := by
  induction m with
  | nil => rfl
  | cons p m ih =>
    by_cases own : id = p.1
    · subst own
      have empty : axes [p] flat = [] := by
        cases hm : p.2 <;> simp [axes, hm, h]
      rw [Assoc.erase_cons_self, ih, axes_cons p m, empty, List.nil_append]
    · rw [Assoc.erase_cons_of_ne own, axes_cons p m, axes_cons, ih]

private theorem compileFlat_erase (m : Mappings) (h : suppliedValue? flat id = none) :
    compileFlat (Assoc.erase id m) flat = m.compileFlat flat := by
  rw [compileFlat, compileFlat, vectorActions, vectorActions, flatMap_block_erase m h,
    axes_erase m h]

end Mappings

namespace Config

variable {c : Config} {f : Field} {inputs : Object} {words rest : Words} {compiled : Compiled}

private theorem suppliedValue?_resolve_of_off (distinct : (c.inputs.map Field.id).Nodup)
    (hf : f ∈ c.inputs) (off : c.dependencyMet f (c.flatten inputs) = false) (words : Words) :
    suppliedValue? (c.resolve inputs words).1 f.id = none ↔
      suppliedValue? (c.flatten inputs) f.id = none := by
  have unfilled : c.filled? (c.flatten inputs) f = Assoc.get? f.id (c.flatten inputs) :=
    filled?_eq_get? fun _ applies => absurd applies (by simp [off])
  have settled := get?_resolve distinct hf inputs words
  rw [unfilled] at settled
  exact (Field.Settles.filter_eq_none_iff settled).symm

/-- What the mappings see of a mapped id is its resolved value, or else a value that overrides
it. -/
theorem get?_seen_cases {id : String} (mapped : Assoc.contains id c.mappings = true)
    (inputs : Object) (words : Words) :
    (∀ v, ¬ c.Overrides (c.resolve inputs words).1 id v) ∧
        Assoc.get? id (c.mappings.seen (c.resolve inputs words).1) =
          Assoc.get? id (c.resolve inputs words).1 ∨
      ∃ v, c.Overrides (c.resolve inputs words).1 id v ∧
        Assoc.get? id (c.mappings.seen (c.resolve inputs words).1) = some v := by
  rw [Mappings.seen, get?_flattenDeclared]
  by_cases overridden : ∃ v, c.Overrides (c.resolve inputs words).1 id v
  · obtain ⟨v, hv⟩ := overridden
    exact Or.inr ⟨v, hv, hv.get?⟩
  · have same := (get?_leaves_or_overrides mapped (c.settled_resolve inputs words)
      (c.nodup_keys_resolve inputs words)).resolve_right overridden
    exact Or.inl ⟨not_exists.mp overridden, same⟩

theorem suppliedValue?_seen {id : String} (mapped : Assoc.contains id c.mappings = true)
    (free : ∀ v, ¬ c.Overrides (c.resolve inputs words).1 id v) :
    suppliedValue? (c.mappings.seen (c.resolve inputs words).1) id =
      suppliedValue? (c.resolve inputs words).1 id := by
  rcases get?_seen_cases mapped inputs words with ⟨-, same⟩ | ⟨v, hv, -⟩
  · exact suppliedValue?_congr same
  · exact absurd hv (free v)

/-- The mappings see no value of a mapped field whose condition does not hold exactly when nothing
but null overrides its value and, where nothing does, nothing but null was supplied for it. Then the
actions are those without its mapping. -/
theorem gated_value_unseen_iff {maxLoras : Nat} (accepted : c.validate = .ok ())
    (hf : f ∈ c.inputs) (mapped : Assoc.contains f.id c.mappings = true)
    (off : c.dependencyMet f (c.flatten inputs) = false)
    (run : c.compile maxLoras inputs words = .ok (compiled, rest)) :
    (suppliedValue? (c.mappings.seen compiled.inputs) f.id = none ↔
      (∀ v, c.Overrides compiled.inputs f.id v → v = .null) ∧
        (suppliedValue? (c.flatten inputs) f.id = none ∨
          ∃ v, c.Overrides compiled.inputs f.id v)) ∧
    (suppliedValue? (c.mappings.seen compiled.inputs) f.id = none →
      compiled.actions = Mappings.compileFlat (Assoc.erase f.id c.mappings)
        (c.mappings.seen compiled.inputs)) := by
  obtain ⟨-, rfl, -⟩ := compile_eq_ok_iff.mp run
  refine ⟨?_, fun none => (Mappings.compileFlat_erase c.mappings none).symm⟩
  rcases get?_seen_cases mapped inputs words with ⟨free, -⟩ | ⟨v, hv, seen⟩
  · rw [suppliedValue?_seen mapped free,
      suppliedValue?_resolve_of_off (nodup_ids accepted) hf off words]
    simp [free]
  · -- what overrides a value is its last leaf, so there is only one such value
    have only : ∀ w, c.Overrides (c.resolve inputs words).1 f.id w → w = v := by
      intro w hw
      exact Option.some.inj (hw.get?.symm.trans hv.get?)
    rw [suppliedValue?_eq_none_iff, seen]
    constructor
    · intro null
      have isNull : v = .null := null v rfl
      exact ⟨fun w hw => (only w hw).trans isNull, Or.inr ⟨v, hv⟩⟩
    · rintro ⟨null, -⟩ w hw
      exact Option.some.inj hw ▸ null v hv

theorem not_overrides_of_no_object {flat : Object}
    (none : ∀ p ∈ flat, p.2.object? = Option.none) (id : String) (v : Value) :
    ¬ c.Overrides flat id v := by
  rintro ⟨before, key, members, after, h⟩
  have mem : (key, Value.obj members) ∈ flat := by
    rw [h.split]
    exact List.mem_append_right before List.mem_cons_self
  exact nomatch none _ mem

/-- The share of the first of two frames in their blend, for the mode that takes two frames. -/
def blend : Field := { bareField "blend" .slider with
  max? := some (Double.ofInt 1)
  dependsOn? := some ⟨"mode", .str "flf2v"⟩ }

/-- A mode of one frame by default, and a share that goes to a node. -/
def blending : Config := { upscaling with
  name := "Blending"
  inputs := [{ bareField "mode" .select with default? := some (.str "i2v") }, blend]
  mappings := [("blend", .widget ⟨some scalerId, [], [0], none, [], none, none, none⟩)] }

theorem blending_accepted : blending.validate = .ok () := by
  rw [validate_eq_ok_iff, ← List.isEmpty_iff]
  decide +kernel

/-- A share that is null is written nowhere. -/
theorem null_blend_unseen : ∃ compiled rest,
    blending.compile defaultMaxLoras [("blend", .null)] ⟨[], 0⟩ = .ok (compiled, rest) ∧
      suppliedValue? (blending.mappings.seen compiled.inputs) "blend" = none ∧
      compiled.actions = [] := by
  have valid : (blending.check defaultMaxLoras [("blend", .null)]).isValid = true := by
    decide +kernel
  have run := compile_of_isValid valid ⟨[], 0⟩
  obtain ⟨unseen, actions⟩ := gated_value_unseen_iff blending_accepted (f := blend)
    (List.mem_cons_of_mem _ List.mem_cons_self) (by decide) (by decide +kernel) run
  have resolved : (blending.resolve [("blend", .null)] ⟨[], 0⟩).1 =
      [("blend", .null), ("mode", .str "i2v")] := rfl
  rw [resolved] at unseen
  have free : ∀ v, ¬ blending.Overrides [("blend", .null), ("mode", .str "i2v")] blend.id v :=
    not_overrides_of_no_object (by simp [Value.object?]) blend.id
  have none := unseen.mpr ⟨fun v hv => absurd hv (free v), Or.inl rfl⟩
  exact ⟨_, _, run, none, actions none⟩

/-- The share is beyond its bound and its condition does not hold, yet it is written to the node. -/
theorem unchecked_blend_written :
    blending.validate = .ok () ∧ blend ∈ blending.inputs ∧
      Assoc.contains blend.id blending.mappings = true ∧
      blending.dependencyMet blend (blending.flatten [("blend", .ofNat 5)]) = false ∧
      ∃ compiled rest,
        blending.compile defaultMaxLoras [("blend", .ofNat 5)] ⟨[], 0⟩ = .ok (compiled, rest) ∧
        suppliedValue? (blending.mappings.seen compiled.inputs) blend.id = some (.ofNat 5) ∧
        compiled.actions = [.modifyWidget ⟨scalerId, [0], [], .ofNat 5, none⟩] := by
  have valid : (blending.check defaultMaxLoras [("blend", .ofNat 5)]).isValid = true := by
    decide +kernel
  refine ⟨blending_accepted, List.mem_cons_of_mem _ List.mem_cons_self, by decide,
    by decide +kernel, _, _, compile_of_isValid valid _, ?_, ?_⟩
  · rfl
  · rfl

end Config

end WorkflowGraph
