/- The leaves that flattening finds, and the value that a field id has in the flat map. -/

import WorkflowGraph.Inputs.Flatten
import WorkflowGraph.Proofs.Assoc

set_option autoImplicit false
set_option relaxedAutoImplicit false

/-!
Every member that flattening visits is either opened, and then its members are visited, or it is a
leaf. The flat map gives each field id the value of its last leaf.
-/

namespace WorkflowGraph

variable {shapeOf : String → Option Shape}

def KeptWhole (shapeOf : String → Option Shape) (key : String) (v : Value) : Prop :=
  ∀ members, v = .obj members → opens shapeOf key members = false

theorem leaves_cons (p : String × Value) (rest : Object) :
    leaves shapeOf (p :: rest) = leavesOf shapeOf p.1 p.2 ++ leaves shapeOf rest := by
  simp [leaves]

theorem leaves_append (a b : Object) :
    leaves shapeOf (a ++ b) = leaves shapeOf a ++ leaves shapeOf b := by
  induction a with
  | nil => simp [leaves]
  | cons p a ih => rw [List.cons_append, leaves_cons, leaves_cons, ih, List.append_assoc]

theorem leavesOf_of_opens {key : String} {members : Object}
    (h : opens shapeOf key members = true) :
    leavesOf shapeOf key (.obj members) = leaves shapeOf members := by
  simp [leavesOf, h]

theorem leavesOf_of_keptWhole {key : String} {v : Value} (h : KeptWhole shapeOf key v) :
    leavesOf shapeOf key v = [(key, v)] := by
  cases v with
  | obj members => simp [leavesOf, h members rfl]
  | _ => simp [leavesOf]

theorem keptWhole_of_not_opens {key : String} {members : Object}
    (h : opens shapeOf key members = false) : KeptWhole shapeOf key (.obj members) := by
  intro members' he
  cases he
  exact h

theorem keptWhole_or_opens (shapeOf : String → Option Shape) (key : String) (v : Value) :
    KeptWhole shapeOf key v ∨ ∃ members, v = .obj members ∧ opens shapeOf key members = true := by
  cases v with
  | obj members =>
    cases h : opens shapeOf key members with
    | true => exact Or.inr ⟨members, rfl, h⟩
    | false => exact Or.inl (keptWhole_of_not_opens h)
  | _ => exact Or.inl fun members he => Value.noConfusion he

mutual

private theorem keptWhole_of_mem_leaves :
    ∀ {o : Object} {p : String × Value}, p ∈ leaves shapeOf o →
    KeptWhole shapeOf p.1 p.2
  | [], _, h => absurd h (by simp [leaves])
  | (key, v) :: rest, _, h => by
    rw [leaves_cons] at h
    rcases List.mem_append.mp h with h | h
    · exact keptWhole_of_mem_leavesOf key v h
    · exact keptWhole_of_mem_leaves h

private theorem keptWhole_of_mem_leavesOf : ∀ (key : String) (v : Value) {p : String × Value},
    p ∈ leavesOf shapeOf key v → KeptWhole shapeOf p.1 p.2
  | key, .obj members, p, h => by
    cases opened : opens shapeOf key members with
    | true =>
      rw [leavesOf_of_opens opened] at h
      exact keptWhole_of_mem_leaves h
    | false =>
      have whole := keptWhole_of_not_opens opened
      rw [leavesOf_of_keptWhole whole, List.mem_singleton] at h
      exact h ▸ whole
  | key, .null, p, h | key, .bool _, p, h | key, .num _, p, h | key, .str _, p, h
  | key, .arr _, p, h => by
    obtain rfl : p = (key, _) := List.mem_singleton.mp h
    exact fun members he => Value.noConfusion he

end

theorem get?_flattenDeclared (id : String) (o : Object) :
    Assoc.get? id (flattenDeclared shapeOf o) = Assoc.get? id (leaves shapeOf o).reverse :=
  Assoc.get?_ofList id _

theorem nodup_keys_flattenDeclared (o : Object) :
    (Assoc.keys (flattenDeclared shapeOf o)).Nodup :=
  Assoc.nodup_keys_ofList _

theorem keptWhole_of_mem_flattenDeclared {o : Object} {p : String × Value}
    (h : p ∈ flattenDeclared shapeOf o) : KeptWhole shapeOf p.1 p.2 :=
  keptWhole_of_mem_leaves (Assoc.mem_ofList h)

theorem leaves_of_keptWhole {o : Object} (h : ∀ p ∈ o, KeptWhole shapeOf p.1 p.2) :
    leaves shapeOf o = o := by
  induction o with
  | nil => simp [leaves]
  | cons p rest ih =>
    rw [leaves_cons, leavesOf_of_keptWhole (h p List.mem_cons_self),
      ih fun q hq => h q (List.mem_cons_of_mem p hq)]
    rfl

theorem flattenDeclared_of_keptWhole {o : Object} (h : ∀ p ∈ o, KeptWhole shapeOf p.1 p.2)
    (nodup : (Assoc.keys o).Nodup) : flattenDeclared shapeOf o = o := by
  rw [flattenDeclared, leaves_of_keptWhole h, Assoc.ofList_of_nodup nodup]

theorem get?_leaves_append_reverse (id : String) (a b : Object) :
    Assoc.get? id (leaves shapeOf (a ++ b)).reverse =
      (Assoc.get? id (leaves shapeOf b).reverse).or
        (Assoc.get? id (leaves shapeOf a).reverse) := by
  rw [leaves_append, List.reverse_append, Assoc.get?_append]

end WorkflowGraph
