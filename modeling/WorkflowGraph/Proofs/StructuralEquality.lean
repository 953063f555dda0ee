/- Structural equality of values: what the comparison of values decides, and that it is an
equivalence. -/

import WorkflowGraph.Proofs.IntegerRounding
import WorkflowGraph.Proofs.ParsedDocuments

set_option autoImplicit false
set_option relaxedAutoImplicit false

/-!
The comparison walks through the members of one object and looks each of them up in the other one.
Where keys are distinct and there are as many of them on both sides, this tells whether both objects
have the same keys and equal values under each, which does not depend on the side that is walked.
-/

namespace WorkflowGraph

theorem Double.equal_iff {a b : Double} : a.equal b = true ↔ a.value = b.value := by
  rw [equal, beq_iff_eq, le_antisymm_iff, le_antisymm_iff, units_le_units_iff, units_le_units_iff]

namespace Value

/-- Structural equality. Numbers are of one kind and doubles equal as numbers, so that the two zeros
are; lists are equal item by item, and objects have the same keys with equal values. -/
inductive Equals : Value → Value → Prop
  | null : Equals .null .null
  | bool (b : Bool) : Equals (.bool b) (.bool b)
  | int (i : Int) (fits : FitsNumber i) : Equals (.num (.int i fits)) (.num (.int i fits))
  | double {a b : Double} (same : a.value = b.value) : Equals (.num (.double a)) (.num (.double b))
  | str (s : String) : Equals (.str s) (.str s)
  | arr {a b : List Value} (length : a.length = b.length)
      (items : ∀ (i : Nat) (v w : Value), a[i]? = some v → b[i]? = some w → Equals v w) :
      Equals (.arr a) (.arr b)
  | obj {a b : Object} (keys : ∀ k, k ∈ Assoc.keys a ↔ k ∈ Assoc.keys b)
      (values : ∀ k v w, Assoc.get? k a = some v → Assoc.get? k b = some w → Equals v w) :
      Equals (.obj a) (.obj b)

/-- Induction on a value: a property that lists and objects have if all that is in them has it. -/
@[elab_as_elim]
theorem nested_induction {motive : Value → Prop} (null : motive .null)
    (bool : ∀ b, motive (.bool b)) (num : ∀ n, motive (.num n)) (str : ∀ s, motive (.str s))
    (arr : ∀ items : List Value, (∀ v ∈ items, motive v) → motive (.arr items))
    (obj : ∀ members : Object, (∀ p ∈ members, motive p.2) → motive (.obj members)) :
    ∀ v, motive v
  | .null => null
  | .bool b => bool b
  | .num n => num n
  | .str s => str s
  | .arr items => arr items fun v _ => nested_induction null bool num str arr obj v
  | .obj members => obj members fun p _ => nested_induction null bool num str arr obj p.2
termination_by v => sizeOf v
decreasing_by
  · have item := List.sizeOf_lt_of_mem ‹_ ∈ items›
    simp only [Value.arr.sizeOf_spec]
    omega
  · have member := List.sizeOf_lt_of_mem ‹_ ∈ members›
    obtain ⟨k, v⟩ := p
    simp only [Prod.mk.sizeOf_spec] at member
    simp only [Value.obj.sizeOf_spec]
    omega

namespace Equals

theorem refl (v : Value) : Equals v v := by
  induction v using nested_induction with
  | null => exact .null
  | bool b => exact .bool b
  | num n =>
    cases n with
    | int i fits => exact .int i fits
    | double d => exact .double rfl
  | str s => exact .str s
  | arr items ih =>
    refine .arr rfl fun i v w left right => ?_
    obtain rfl := Option.some.inj (left.symm.trans right)
    exact ih v (List.mem_of_getElem? left)
  | obj members ih =>
    refine .obj (fun _ => Iff.rfl) fun k v w left right => ?_
    obtain rfl := Option.some.inj (left.symm.trans right)
    exact ih (k, v) (Assoc.mem_of_get? left)

theorem symm {v w : Value} (h : Equals v w) : Equals w v := by
  induction h with
  | null => exact .null
  | bool b => exact .bool b
  | int i fits => exact .int i fits
  | double same => exact .double same.symm
  | str s => exact .str s
  | arr length _ ih => exact .arr length.symm fun i v w left right => ih i w v right left
  | obj keys _ ih => exact .obj (fun k => (keys k).symm) fun k v w left right => ih k w v right left

theorem trans {u v w : Value} (first : Equals u v) (second : Equals v w) : Equals u w := by
  induction first generalizing w with
  | null => exact second
  | bool b => exact second
  | int i fits => exact second
  | double same =>
    cases second with
    | double same' => exact .double (same.trans same')
  | str s => exact second
  | @arr a b length _ ih =>
    cases second with
    | @arr _ c length' items' =>
      refine .arr (length.trans length') fun i x z left right => ?_
      obtain ⟨bound, -⟩ := List.getElem?_eq_some_iff.mp left
      have middle : b[i]? = some b[i] := List.getElem?_eq_getElem (length ▸ bound)
      exact ih i x b[i] left middle (items' i b[i] z middle right)
  | @obj a b keys _ ih =>
    cases second with
    | @obj _ c keys' values' =>
      refine .obj (fun k => (keys k).trans (keys' k)) fun k x z left right => ?_
      have key : k ∈ Assoc.keys a := Assoc.mem_keys_of_get? left
      obtain ⟨y, middle⟩ := Assoc.exists_get?_of_mem_keys ((keys k).mp key)
      exact ih k x y left middle (values' k y z middle right)

end Equals

private theorem sameItems_iff {a b : List Value} : sameItems a b = true ↔ a.length = b.length ∧
    ∀ (i : Nat) (v w : Value), a[i]? = some v → b[i]? = some w → v.same w = true := by
  induction a generalizing b with
  | nil => cases b <;> simp [sameItems]
  | cons v a ih =>
    cases b with
    | nil => simp [sameItems]
    | cons w b =>
      rw [sameItems, Bool.and_eq_true, ih, List.length_cons, List.length_cons, Nat.succ_inj]
      constructor
      · rintro ⟨head, length, tail⟩
        refine ⟨length, fun i x y left right => ?_⟩
        cases i with
        | zero =>
          obtain rfl := Option.some.inj left
          obtain rfl := Option.some.inj right
          exact head
        | succ i => exact tail i x y left right
      · rintro ⟨length, items⟩
        exact ⟨items 0 v w rfl rfl, length, fun i x y left right => items (i + 1) x y left right⟩

private theorem sameMembers_iff {a b : Object} : sameMembers a b = true ↔
    ∀ p ∈ a, ∃ w, Assoc.get? p.1 b = some w ∧ p.2.same w = true := by
  induction a with
  | nil => simp [sameMembers]
  | cons p a ih =>
    rw [sameMembers, Bool.and_eq_true, ih, List.forall_mem_cons]
    refine and_congr_left fun _ => ?_
    cases Assoc.get? p.1 b <;> simp

private theorem same_obj_iff {a b : Object} (ha : (Assoc.keys a).Nodup)
    (hb : (Assoc.keys b).Nodup) :
    (obj a).same (obj b) = true ↔ (∀ k, k ∈ Assoc.keys a ↔ k ∈ Assoc.keys b) ∧
      ∀ k v w, Assoc.get? k a = some v → Assoc.get? k b = some w → v.same w = true := by
  rw [same, Bool.and_eq_true, beq_iff_eq, sameMembers_iff]
  constructor
  · rintro ⟨length, found⟩
    have subset : Assoc.keys a ⊆ Assoc.keys b := by
      intro k hk
      obtain ⟨p, hp, rfl⟩ := List.mem_map.mp hk
      obtain ⟨w, get, -⟩ := found p hp
      have member := Assoc.mem_of_get? get
      exact List.mem_map.mpr ⟨(p.1, w), member, rfl⟩
    have order : (Assoc.keys a).Perm (Assoc.keys b) := by
      apply (List.subperm_of_subset ha subset).perm_of_length_le
      simp [Assoc.keys, length]
    refine ⟨fun k => order.mem_iff, fun k v w left right => ?_⟩
    obtain ⟨w', get, equal⟩ := found (k, v) (Assoc.mem_of_get? left)
    obtain rfl := Option.some.inj (right.symm.trans get)
    exact equal
  · rintro ⟨keys, values⟩
    have order : (Assoc.keys a).Perm (Assoc.keys b) := (List.perm_ext_iff_of_nodup ha hb).mpr keys
    refine ⟨by simpa [Assoc.keys] using order.length_eq, fun p hp => ?_⟩
    obtain ⟨w, get⟩ := Assoc.exists_get?_of_mem_keys
      ((keys p.1).mp (List.mem_map_of_mem hp))
    exact ⟨w, get, values p.1 p.2 w (Assoc.get?_of_mem ha hp) get⟩

private theorem equals_of_number_same {m n : Number} (h : m.same n = true) :
    Equals (.num m) (.num n) := by
  cases m with
  | int i fits =>
    cases n with
    | int j fits' =>
      obtain rfl : i = j := by simpa [Number.same] using h
      exact .int i fits
    | double d => simp [Number.same] at h
  | double d =>
    cases n with
    | int i fits => simp [Number.same] at h
    | double e => exact .double (Double.equal_iff.mp h)

private theorem equals_of_same {v w : Value} (hv : v.Distinct) (hw : w.Distinct)
    (h : v.same w = true) :
    Equals v w := by
  induction v using nested_induction generalizing w with
  | null =>
    cases w with
    | null => exact .null
    | _ => simp [same] at h
  | bool b =>
    cases w with
    | bool b' =>
      obtain rfl : b = b' := by simpa [same] using h
      exact .bool b
    | _ => simp [same] at h
  | num m =>
    cases w with
    | num n => exact equals_of_number_same h
    | _ => simp [same] at h
  | str s =>
    cases w with
    | str s' =>
      obtain rfl : s = s' := by simpa [same] using h
      exact .str s
    | _ => simp [same] at h
  | arr a ih =>
    cases w with
    | arr b =>
      obtain ⟨length, items⟩ := sameItems_iff.mp h
      refine .arr length fun i v w left right => ?_
      have memA := List.mem_of_getElem? left
      have memB := List.mem_of_getElem? right
      exact ih v memA (distinctItems_iff.mp hv v memA) (distinctItems_iff.mp hw w memB)
        (items i v w left right)
    | _ => simp [same] at h
  | obj a ih =>
    cases w with
    | obj b =>
      obtain ⟨keys, values⟩ := (same_obj_iff hv.1 hw.1).mp h
      refine .obj keys fun k v w left right => ?_
      have memA := Assoc.mem_of_get? left
      have memB := Assoc.mem_of_get? right
      exact ih (k, v) memA (distinctMembers_iff.mp hv.2 (k, v) memA)
        (distinctMembers_iff.mp hw.2 (k, w) memB) (values k v w left right)
    | _ => simp [same] at h

private theorem Equals.same {v w : Value} (h : Equals v w) (hv : v.Distinct) (hw : w.Distinct) :
    v.same w = true := by
  induction h with
  | null => rfl
  | bool b => simp [Value.same]
  | int i fits => simp [Value.same, Number.same]
  | double equal => exact Double.equal_iff.mpr equal
  | str s => simp [Value.same]
  | arr length _ ih =>
    refine sameItems_iff.mpr ⟨length, fun i v w left right => ih i v w left right ?_ ?_⟩
    · exact distinctItems_iff.mp hv v (List.mem_of_getElem? left)
    · exact distinctItems_iff.mp hw w (List.mem_of_getElem? right)
  | obj keys _ ih =>
    refine (same_obj_iff hv.1 hw.1).mpr ⟨keys, fun k v w left right => ih k v w left right ?_ ?_⟩
    · exact distinctMembers_iff.mp hv.2 (k, v) (Assoc.mem_of_get? left)
    · exact distinctMembers_iff.mp hw.2 (k, w) (Assoc.mem_of_get? right)

/-- On values with distinct keys the comparison decides structural equality. -/
theorem same_iff_equals {v w : Value} (hv : v.Distinct) (hw : w.Distinct) :
    v.same w = true ↔ Equals v w :=
  ⟨equals_of_same hv hw, fun h => h.same hv hw⟩

end Value

end WorkflowGraph
