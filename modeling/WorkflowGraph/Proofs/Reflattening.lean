/- When resolved values reach the compilation of actions unchanged. -/

import WorkflowGraph.Compile
import WorkflowGraph.Config.WellFormed
import WorkflowGraph.Inputs.Validation
import WorkflowGraph.Proofs.Resolution

set_option autoImplicit false
set_option relaxedAutoImplicit false

/-!
Inputs are flattened twice: with the declared shapes before they are checked and resolved, and with
the mapped ids alone before actions are made of them. The second flattening opens what the first one
kept whole where a field is declared, has no mapping and holds an object without a marker. A mapped
id below such a field takes the place of the resolved value, and nothing else does.
-/

namespace WorkflowGraph

namespace Mappings

private theorem opens_shapeOf_iff (m : Mappings) (key : String) (members : Object) :
    opens m.shapeOf key members = true ↔
      Assoc.contains key m = false ∧ members.isEmpty = false ∧ isStructured members = false := by
  cases h : Assoc.contains key m <;> simp [opens, shapeOf, h]

theorem keptWhole_of_contains {m : Mappings} {key : String} (h : Assoc.contains key m = true)
    (v : Value) : KeptWhole m.shapeOf key v := by
  intro members _
  rw [← Bool.not_eq_true, opens_shapeOf_iff]
  rintro ⟨unmapped, -, -⟩
  simp [h] at unmapped

end Mappings

namespace Config

/-- At one place of a map, an object under a declared id without a mapping holds the last leaf of
another id among the leaves that the second flattening finds. -/
structure OverrideAt (c : Config) (resolved : Object) (id : String) (v : Value)
    (before : Object) (key : String) (members after : Object) : Prop where
  split : resolved = before ++ (key, .obj members) :: after
  declared : key ∈ c.inputs.map Field.id
  unmapped : Assoc.contains key c.mappings = false
  nonempty : members.isEmpty = false
  unmarked : isStructured members = false
  nested : Assoc.get? id (leaves c.mappings.shapeOf members).reverse = some v
  last : id ∉ Assoc.keys (leaves c.mappings.shapeOf after)

/-- A nested value takes the place of the value that an id has in a map. -/
def Overrides (c : Config) (resolved : Object) (id : String) (v : Value) : Prop :=
  ∃ before key members after, c.OverrideAt resolved id v before key members after

/-- Every object that is neither empty nor marked stands under a declared id. -/
def Settled (c : Config) (flat : Object) : Prop :=
  ∀ p ∈ flat, p.1 ∈ c.inputs.map Field.id ∨ KeptWhole (fun _ => none) p.1 p.2

variable {c : Config}

private theorem Settled.insert {flat : Object} (h : c.Settled flat) {f : Field} (hf : f ∈ c.inputs)
    (v : Value) : c.Settled (Assoc.insert f.id v flat) := by
  intro p hp
  rcases Assoc.mem_insert hp with rfl | hp
  · exact Or.inl (List.mem_map_of_mem hf)
  · exact h p hp

private theorem settled_flatten (c : Config) (inputs : Object) : c.Settled (c.flatten inputs) := by
  intro p hp
  have whole : KeptWhole c.shapeOf p.1 p.2 := keptWhole_of_mem_flattenDeclared hp
  cases hf : c.field? p.1 with
  | some f =>
    have hm := List.mem_of_find?_eq_some hf
    have hid : f.id = p.1 := by simpa using List.find?_some hf
    exact Or.inl (hid ▸ List.mem_map_of_mem hm)
  | none =>
    right
    intro members he
    have closed := whole members he
    simpa [opens, shapeOf, hf] using closed

theorem settled_resolve (c : Config) (inputs : Object) (words : Words) :
    c.Settled (c.resolve inputs words).1 := by
  refine c.resolve_induction inputs words (c.settled_flatten inputs) ?_ ?_
  · intro f hf v _ acc h
    exact h.insert hf v
  · intro f hf n acc h
    exact h.insert hf (.num n)

private theorem Overrides.cons {rest : Object} {id : String} {v : Value} (h : c.Overrides rest id v)
    (p : String × Value) : c.Overrides (p :: rest) id v := by
  obtain ⟨before, key, members, after, h⟩ := h
  refine ⟨p :: before, key, members, after, { h with split := ?_ }⟩
  rw [h.split, List.cons_append]

theorem Overrides.get? {resolved : Object} {id : String} {v : Value}
    (h : c.Overrides resolved id v) :
    Assoc.get? id (leaves c.mappings.shapeOf resolved).reverse = some v := by
  obtain ⟨before, key, members, after, h⟩ := h
  have opened : opens c.mappings.shapeOf key members = true :=
    (c.mappings.opens_shapeOf_iff key members).mpr ⟨h.unmapped, h.nonempty, h.unmarked⟩
  have later : Assoc.get? id (leaves c.mappings.shapeOf after).reverse = none := by
    rw [Assoc.get?_eq_none_iff, Assoc.keys_reverse, List.mem_reverse]
    exact h.last
  rw [h.split, get?_leaves_append_reverse, leaves_cons, leavesOf_of_opens opened,
    List.reverse_append, Assoc.get?_append, later, h.nested]
  rfl

theorem get?_leaves_or_overrides {resolved : Object} {id : String}
    (mapped : Assoc.contains id c.mappings = true) (settled : c.Settled resolved)
    (nodup : (Assoc.keys resolved).Nodup) :
    Assoc.get? id (leaves c.mappings.shapeOf resolved).reverse = Assoc.get? id resolved ∨
      ∃ v, c.Overrides resolved id v := by
  induction resolved with
  | nil => exact Or.inl rfl
  | cons p rest ih =>
    obtain ⟨fresh, nodup⟩ := List.nodup_cons.mp nodup
    have settledRest : c.Settled rest := fun q hq => settled q (List.mem_cons_of_mem p hq)
    rcases ih settledRest nodup with same | ⟨v, h⟩
    · have head : Assoc.get? id (leaves c.mappings.shapeOf (p :: rest)).reverse =
          (Assoc.get? id rest).or
            (Assoc.get? id (leavesOf c.mappings.shapeOf p.1 p.2).reverse) := by
        rw [leaves_cons, List.reverse_append, Assoc.get?_append, same]
      rw [head]
      by_cases hid : id = p.1
      · -- the id's own member is a leaf, and no other member has the id
        have none : Assoc.get? id rest = none := by
          rw [Assoc.get?_eq_none_iff, hid]
          exact fresh
        have whole : KeptWhole c.mappings.shapeOf p.1 p.2 :=
          Mappings.keptWhole_of_contains (hid ▸ mapped) p.2
        left
        rw [none, leavesOf_of_keptWhole whole, hid]
        simp [Assoc.get?]
      · rw [Assoc.get?_cons_of_ne hid]
        rcases keptWhole_or_opens c.mappings.shapeOf p.1 p.2 with
          whole | ⟨members, hv, opened⟩
        · left
          rw [leavesOf_of_keptWhole whole, List.reverse_singleton, Assoc.get?_cons_of_ne hid]
          simp
        · rw [hv, leavesOf_of_opens opened]
          cases hr : Assoc.get? id rest with
          | some w => exact Or.inl rfl
          | none =>
            cases hn : Assoc.get? id (leaves c.mappings.shapeOf members).reverse with
            | none => exact Or.inl rfl
            | some v =>
              obtain ⟨unmapped, nonempty, unmarked⟩ :=
                (c.mappings.opens_shapeOf_iff p.1 members).mp opened
              have declared : p.1 ∈ c.inputs.map Field.id := by
                rcases settled p List.mem_cons_self with declared | whole
                · exact declared
                · have closed := whole members hv
                  simp [opens, nonempty, unmarked] at closed
              refine Or.inr ⟨v, [], p.1, members, rest, ?_, declared, unmapped, nonempty,
                unmarked, hn, ?_⟩
              · rw [← hv]
                rfl
              · rw [← List.mem_reverse, ← Assoc.keys_reverse, ← Assoc.get?_eq_none_iff, same, hr]
    · exact Or.inr ⟨v, h.cons p⟩

/-- The value from which the actions of a mapped field are made is its resolved value exactly when
no different value below a declared field without a mapping overrides it. -/
theorem get?_reflattened_eq_iff (c : Config) (inputs : Object) (words : Words) (id : String)
    (mapped : Assoc.contains id c.mappings = true) :
    Assoc.get? id (flattenDeclared c.mappings.shapeOf (c.resolve inputs words).1) =
        Assoc.get? id (c.resolve inputs words).1 ↔
      ∀ v, c.Overrides (c.resolve inputs words).1 id v →
        Assoc.get? id (c.resolve inputs words).1 = some v := by
  rw [get?_flattenDeclared]
  constructor
  · intro same v h
    rw [← same]
    exact h.get?
  · intro agree
    rcases get?_leaves_or_overrides mapped (c.settled_resolve inputs words)
      (c.nodup_keys_resolve inputs words) with same | ⟨v, h⟩
    · exact same
    · rw [h.get?, agree v h]

def bareField (id : String) (type : FieldType) : Field where
  id := id
  section_ := ""
  type := type
  label? := none
  description := ""
  required := false
  default? := none
  min? := none
  max? := none
  step? := none
  maxLength? := none
  maxItems? := none
  options := []
  dependsOn? := none
  shape? := none
  binding := ⟨none, [], none, [], []⟩

def scalerId : NodeId := ⟨7, by decide⟩

/-- A bounded factor that goes to a node, and a group of settings kept whole that goes nowhere. -/
def upscaling : Config where
  id := "upscaling"
  name := "Upscaling"
  version := defaultVersion
  description := ""
  category := ""
  workflowFile := "upscaling.json"
  inputs := [
    { bareField "factor" .slider with
      min? := some (Double.ofInt 1)
      max? := some (Double.ofInt 4) },
    { bareField "upscale" .unknown with shape? := some .opaqueObject }]
  outputs := []
  layout := .null
  mappings := [("factor", .widget ⟨some scalerId, [], [0], none, [], none, none, none⟩)]

/-- A factor within its bounds, and one beyond them inside the group of settings. -/
def upscalingInputs : Object :=
  [("factor", .ofNat 2), ("upscale", .obj [("factor", .ofNat 16), ("model", .str "4x.pth")])]

private theorem upscaling_resolve :
    (upscaling.resolve upscalingInputs ⟨[], 0⟩).1 = upscalingInputs := by
  rfl

/-- The factor inside the settings overrides the one that was checked. -/
theorem upscaling_override :
    Assoc.contains "factor" upscaling.mappings = true ∧
      upscaling.Overrides (upscaling.resolve upscalingInputs ⟨[], 0⟩).1 "factor" (.ofNat 16) ∧
      Assoc.get? "factor" (flattenDeclared upscaling.mappings.shapeOf
          (upscaling.resolve upscalingInputs ⟨[], 0⟩).1) ≠
        Assoc.get? "factor" (upscaling.resolve upscalingInputs ⟨[], 0⟩).1 := by
  have mapped : Assoc.contains "factor" upscaling.mappings = true := by decide
  have nested : upscaling.Overrides (upscaling.resolve upscalingInputs ⟨[], 0⟩).1 "factor"
      (.ofNat 16) := by
    refine ⟨[("factor", .ofNat 2)], "upscale",
      [("factor", .ofNat 16), ("model", .str "4x.pth")], [], ?_⟩
    exact ⟨upscaling_resolve, by decide, by decide, rfl, by decide, rfl, by simp [leaves]⟩
  refine ⟨mapped, nested, fun same => ?_⟩
  have resolved := (get?_reflattened_eq_iff upscaling upscalingInputs ⟨[], 0⟩ "factor" mapped).mp
    same _ nested
  have sixteen := congrArg (fun v => v.bind Value.int?) resolved
  exact absurd sixteen (by rw [upscaling_resolve]; decide)

/-- The inputs are accepted and the factor is mapped, yet its actions are not made of the factor
that was checked. -/
theorem checked_factor_lost :
    upscaling.validate = .ok () ∧
      (upscaling.check defaultMaxLoras upscalingInputs).isValid = true ∧
      Assoc.contains "factor" upscaling.mappings = true ∧
      Assoc.get? "factor" (flattenDeclared upscaling.mappings.shapeOf
          (upscaling.resolve upscalingInputs ⟨[], 0⟩).1) ≠
        Assoc.get? "factor" (upscaling.resolve upscalingInputs ⟨[], 0⟩).1 := by
  refine ⟨?_, by decide +kernel, by decide, ?_⟩
  · rw [validate_eq_ok_iff, ← List.isEmpty_iff]
    decide +kernel
  · rw [upscaling_resolve]
    intro same
    have values := congrArg (fun v => v.bind Value.int?) same
    exact absurd values (by decide)

end Config

end WorkflowGraph
