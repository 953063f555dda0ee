/- What the rules of the schema ask of a value, and that violations report exactly what is missed. -/

import WorkflowGraph.Action
import WorkflowGraph.Config.Schema
import WorkflowGraph.Proofs.Rounding

set_option autoImplicit false
set_option relaxedAutoImplicit false

namespace WorkflowGraph.Schema

mutual

/-- A value obeys a rule. Values of another kind than the rule is about do so, except for the rule
of allowed words. -/
def Obeys (v : Value) : Rule → Prop
  | .kinds ks => ∃ k ∈ ks, k.holds v = true
  | .required names => ∀ o, v = .obj o → ∀ n ∈ names, Assoc.contains n o = true
  | .minLength n => ∀ s, v = .str s → n ≤ s.length
  | .nonNegative => ∀ n, v = .num n → n.toDouble.less (Double.zero false) = false
  | .oneOf choices => ∃ s ∈ choices, v = .str s
  | .properties rules => ∀ o, v = .obj o → ObeysNamed o rules
  | .items rules => ∀ vs, v = .arr vs → ∀ w ∈ vs, ObeysAll w rules
  | .members rules => ∀ o, v = .obj o → ∀ p ∈ o, ObeysAll p.2 rules

def ObeysNamed (o : Object) : List (String × List Rule) → Prop
  | [] => True
  | (name, rules) :: rest =>
    (∀ v, Assoc.get? name o = some v → ObeysAll v rules) ∧ ObeysNamed o rest

def ObeysAll (v : Value) : List Rule → Prop
  | [] => True
  | r :: rest => Obeys v r ∧ ObeysAll v rest

end

mutual

private theorem ruleViolations_eq_nil_iff (path : List String) (v : Value) :
    ∀ r : Rule, ruleViolations path v r = [] ↔ Obeys v r
  | .kinds ks => by simp [ruleViolations, Obeys]
  | .required names => by
    cases v <;> simp [ruleViolations, Obeys]
  | .minLength n => by
    cases v <;> simp [ruleViolations, Obeys]
  | .nonNegative => by
    cases v <;> simp [ruleViolations, Obeys]
  | .oneOf choices => by
    cases v <;> simp [ruleViolations, Obeys]
  | .properties rules => by
    cases v with
    | obj o => simp [ruleViolations, Obeys, propertyViolations_eq_nil_iff path o rules]
    | _ => simp [ruleViolations, Obeys]
  | .items rules => by
    cases v with
    | arr vs =>
      have each (p : Value × Nat) :
          violations (path ++ [natText p.2]) p.1 rules = [] ↔ ObeysAll p.1 rules :=
        violations_eq_nil_iff _ p.1 rules
      simp only [ruleViolations, Obeys, List.flatMap_eq_nil_iff, each, Value.arr.injEq]
      constructor
      · rintro h _ rfl w hw
        obtain ⟨i, there⟩ := List.mem_iff_getElem?.mp hw
        exact h (w, i) (List.mem_zipIdx_iff_getElem?.mpr there)
      · intro h p hp
        exact h vs rfl p.1 (List.fst_mem_of_mem_zipIdx hp)
    | _ => simp [ruleViolations, Obeys]
  | .members rules => by
    cases v with
    | obj o =>
      have each (p : String × Value) :
          violations (path ++ [p.1]) p.2 rules = [] ↔ ObeysAll p.2 rules :=
        violations_eq_nil_iff _ p.2 rules
      simp [ruleViolations, Obeys, each]
    | _ => simp [ruleViolations, Obeys]

private theorem propertyViolations_eq_nil_iff (path : List String) (o : Object) :
    ∀ rules : List (String × List Rule),
      propertyViolations path o rules = [] ↔ ObeysNamed o rules
  | [] => by simp [propertyViolations, ObeysNamed]
  | (name, rules) :: rest => by
    rw [propertyViolations, ObeysNamed, List.append_eq_nil_iff,
      propertyViolations_eq_nil_iff path o rest]
    cases Assoc.get? name o with
    | none => simp
    | some v => simp [violations_eq_nil_iff _ v rules]

theorem violations_eq_nil_iff (path : List String) (v : Value) :
    ∀ rules : List Rule, violations path v rules = [] ↔ ObeysAll v rules
  | [] => by simp [violations, ObeysAll]
  | r :: rest => by
    rw [violations, ObeysAll, List.append_eq_nil_iff, ruleViolations_eq_nil_iff path v r,
      violations_eq_nil_iff path v rest]

end

theorem obeysNamed_iff {o : Object} {rules : List (String × List Rule)} :
    ObeysNamed o rules ↔ ∀ p ∈ rules, ∀ v, Assoc.get? p.1 o = some v → ObeysAll v p.2 := by
  induction rules with
  | nil => simp [ObeysNamed]
  | cons p rules ih => simp [ObeysNamed, ih]

theorem obeysAll_kind {k : Kind} {v : Value} (h : k.holds v = true) :
    ObeysAll v [.kinds [k]] := ⟨⟨k, List.mem_singleton_self k, h⟩, trivial⟩

private theorem obeysAll_iff {v : Value} {rules : List Rule} :
    ObeysAll v rules ↔ ∀ r ∈ rules, Obeys v r := by
  induction rules with
  | nil => simp [ObeysAll]
  | cons r rules ih => simp [ObeysAll, ih]

theorem exists_obj_of_obeysAll {v : Value} {rules : List Rule} (h : ObeysAll v rules)
    (among : Rule.kinds [.object] ∈ rules) : ∃ o, v = .obj o := by
  obtain ⟨k, only, holds⟩ := obeysAll_iff.mp h _ among
  obtain rfl := List.mem_singleton.mp only
  cases v with
  | obj o => exact ⟨o, rfl⟩
  | _ => exact nomatch holds

theorem ObeysAll.member {o : Object} {rules below : List Rule} {props : List (String × List Rule)}
    {name : String} {v : Value} (h : ObeysAll (.obj o) rules)
    (there : Assoc.get? name o = some v) (among : Rule.properties props ∈ rules)
    (named : (name, below) ∈ props) : ObeysAll v below :=
  obeysNamed_iff.mp (obeysAll_iff.mp h _ among o rfl) _ named v there

theorem obeysAll_textRules (s : String) : ObeysAll (.str s) textRules := by
  simp [textRules, ObeysAll, Obeys, Kind.holds]

theorem obeysAll_nameRules_iff (s : String) : ObeysAll (.str s) nameRules ↔ s ≠ "" := by
  have length : 1 ≤ s.length ↔ s ≠ "" := by
    rw [Nat.one_le_iff_ne_zero, ne_eq, ne_eq, String.length_eq_zero_iff]
  simp [nameRules, ObeysAll, Obeys, Kind.holds, length]

theorem obeysAll_countRules {n : Nat} (h : InNat64 n) : ObeysAll (.ofNat n) countRules := by
  have fits : FitsNumber (n : Int) := by
    simp only [InNat64, FitsNumber] at *
    omega
  have nonneg := Double.not_less_zero_ofInt n
  rw [Value.ofNat, Value.ofInt_of_fits fits]
  simp [countRules, ObeysAll, Obeys, Kind.holds, Number.toDouble, nonneg]

theorem obeysAll_indicesRules {ns : List Nat} (h : ∀ n ∈ ns, InNat64 n) :
    ObeysAll (.ofNats ns) indicesRules := by
  have each : ∀ w ∈ ns.map Value.ofNat, ObeysAll w countRules := by
    intro w hw
    obtain ⟨n, hn, rfl⟩ := List.mem_map.mp hw
    exact obeysAll_countRules (h n hn)
  simpa [Value.ofNats, indicesRules, ObeysAll, Obeys, Kind.holds] using each

theorem obeysAll_nodeIdRules (id : NodeId) : ObeysAll id.toValue nodeIdRules := by
  simp [NodeId.toValue, nodeIdRules, ObeysAll, Obeys, Kind.holds]

theorem obeysAll_ofNodeId?_iff (id? : Option NodeId) :
    ObeysAll (.ofNodeId? id?) nodeIdRules ↔ id?.isSome = true := by
  cases id? with
  | none => simp [Value.ofNodeId?, nodeIdRules, ObeysAll, Obeys, Kind.holds]
  | some id => simp [Value.ofNodeId?, obeysAll_nodeIdRules]

theorem obeysAll_nodeIdsRules (ids : List NodeId) :
    ObeysAll (.ofNodeIds ids) nodeIdsRules := by
  have each : ∀ w ∈ ids.map NodeId.toValue, ObeysAll w nodeIdRules := by
    intro w hw
    obtain ⟨id, -, rfl⟩ := List.mem_map.mp hw
    exact obeysAll_nodeIdRules id
  simpa [Value.ofNodeIds, nodeIdsRules, ObeysAll, Obeys, Kind.holds] using each

end WorkflowGraph.Schema
