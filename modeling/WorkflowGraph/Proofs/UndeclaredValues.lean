/- Values of mapped fields that are not declared: when they reach the actions as they are. -/

import WorkflowGraph.Proofs.Conditions

set_option autoImplicit false
set_option relaxedAutoImplicit false

/-!
A mapping may name a field that is not declared, whose value is then supplied without a check. What
is mapped is never a section when actions are made, but resolving comes first and knows the declared
shapes alone, so it opens an object without a marker under such an id and nothing is left under it.
It also fills in defaults, and a default without a mapping that is an object is opened when actions
are made; a value in it then takes the place of the supplied one.
-/

namespace WorkflowGraph

mutual

/-- The keys of an object and of the objects in it, at any depth. -/
def deepKeys : List (String × Value) → List String
  | [] => []
  | (key, v) :: rest => key :: (deepKeysOf v ++ deepKeys rest)

/-- The keys in a value, at any depth, if it is an object. -/
def deepKeysOf : Value → List String
  | .obj members => deepKeys members
  | _ => []

end

private theorem deepKeys_append (a b : Object) : deepKeys (a ++ b) = deepKeys a ++ deepKeys b := by
  induction a with
  | nil => simp [deepKeys]
  | cons p a ih => simp [deepKeys, ih]

variable {shapeOf : String → Option Shape}

mutual

private theorem deepKeys_of_mem_leaves : ∀ {o : Object} {p : String × Value}, p ∈ leaves shapeOf o →
    p.1 :: deepKeysOf p.2 ⊆ deepKeys o
  | [], _, h => absurd h (by simp [leaves])
  | (key, v) :: rest, p, h => by
    have unfolded : deepKeys ((key, v) :: rest) = (key :: deepKeysOf v) ++ deepKeys rest := by
      simp [deepKeys]
    rw [leaves_cons] at h
    rw [unfolded]
    rcases List.mem_append.mp h with h | h
    · exact List.subset_append_of_subset_left _ (deepKeys_of_mem_leavesOf key v h)
    · exact List.subset_append_of_subset_right _ (deepKeys_of_mem_leaves h)

private theorem deepKeys_of_mem_leavesOf : ∀ (key : String) (v : Value) {p : String × Value},
    p ∈ leavesOf shapeOf key v → p.1 :: deepKeysOf p.2 ⊆ key :: deepKeysOf v
  | key, .obj members, p, h => by
    cases opened : opens shapeOf key members with
    | true =>
      rw [leavesOf_of_opens opened] at h
      exact List.subset_cons_of_subset key (deepKeys_of_mem_leaves h)
    | false =>
      rw [leavesOf_of_keptWhole (keptWhole_of_not_opens opened), List.mem_singleton] at h
      exact h ▸ List.Subset.refl _
  | key, .null, p, h | key, .bool _, p, h | key, .num _, p, h | key, .str _, p, h
  | key, .arr _, p, h => by
    obtain rfl : p = (key, _) := List.mem_singleton.mp h
    exact List.Subset.refl _

end

private theorem get?_leaves_of_not_mem {o : Object} {id : String} (h : id ∉ deepKeys o) :
    Assoc.get? id (leaves shapeOf o).reverse = none := by
  rw [Assoc.get?_eq_none_iff, Assoc.keys_reverse, List.mem_reverse]
  intro mem
  obtain ⟨p, hp, rfl⟩ := List.mem_map.mp mem
  exact h (deepKeys_of_mem_leaves hp List.mem_cons_self)

/-- The id has a value at the top of an object and occurs nowhere else in it. -/
structure StandsOnce (o : Object) (id : String) (v : Value) (before after : Object) : Prop where
  split : o = before ++ (id, v) :: after
  notBefore : id ∉ deepKeys before
  notBelow : id ∉ deepKeysOf v
  notAfter : id ∉ deepKeys after

namespace StandsOnce

variable {o before after : Object} {id : String} {v : Value}

private theorem of_count (top : Assoc.get? id o = some v) (once : (deepKeys o).count id = 1) :
    ∃ before after, StandsOnce o id v before after := by
  obtain ⟨before, after, rfl⟩ := List.append_of_mem (Assoc.mem_of_get? top)
  simp only [deepKeys_append, deepKeys, List.count_append, List.count_cons_self] at once
  refine ⟨before, after, rfl, ?_, ?_, ?_⟩
  all_goals
    rw [← List.count_eq_zero]
    omega

private theorem leaves_eq (h : StandsOnce o id v before after) :
    leaves shapeOf o = leaves shapeOf before ++ leavesOf shapeOf id v ++ leaves shapeOf after := by
  rw [h.split, leaves_append, leaves_cons, List.append_assoc]

private theorem get?_own (h : StandsOnce o id v before after) :
    Assoc.get? id (flattenDeclared shapeOf o) =
      Assoc.get? id (leavesOf shapeOf id v).reverse := by
  rw [get?_flattenDeclared, h.leaves_eq, List.reverse_append, List.reverse_append,
    Assoc.get?_append, Assoc.get?_append, get?_leaves_of_not_mem h.notAfter,
    get?_leaves_of_not_mem h.notBefore, Option.none_or, Option.or_none]

private theorem get?_of_keptWhole (h : StandsOnce o id v before after)
    (whole : KeptWhole shapeOf id v) :
    Assoc.get? id (flattenDeclared shapeOf o) = some v := by
  rw [h.get?_own, leavesOf_of_keptWhole whole]
  exact Assoc.get?_cons_self id v []

private theorem get?_of_not_keptWhole (h : StandsOnce o id v before after)
    (opened : ¬ KeptWhole shapeOf id v) : Assoc.get? id (flattenDeclared shapeOf o) = none := by
  rw [h.get?_own]
  rcases keptWhole_or_opens shapeOf id v with whole | ⟨members, rfl, opens⟩
  · exact absurd whole opened
  · rw [leavesOf_of_opens opens]
    exact get?_leaves_of_not_mem h.notBelow

private theorem not_mem_deepKeysOf (h : StandsOnce o id v before after) {p : String × Value}
    (hp : p ∈ leaves shapeOf o) (other : p.1 ≠ id) : id ∉ deepKeysOf p.2 := by
  intro below
  have inside : id ∈ p.1 :: deepKeysOf p.2 := List.mem_cons_of_mem _ below
  rw [h.leaves_eq, List.mem_append, List.mem_append] at hp
  rcases hp with (hp | hp) | hp
  · exact h.notBefore (deepKeys_of_mem_leaves hp inside)
  · rcases keptWhole_or_opens shapeOf id v with whole | ⟨members, rfl, opens⟩
    · rw [leavesOf_of_keptWhole whole, List.mem_singleton] at hp
      exact other (congrArg Prod.fst hp)
    · rw [leavesOf_of_opens opens] at hp
      exact h.notBelow (deepKeys_of_mem_leaves hp inside)
  · exact h.notAfter (deepKeys_of_mem_leaves hp inside)

end StandsOnce

namespace Config

variable {c : Config} {inputs before after : Object} {id : String} {v w : Value}

/-- A value in a default that goes in for a declared field without a mapping. -/
def InDefault (c : Config) (supplied : Object) (id : String) (w : Value) : Prop :=
  ∃ g ∈ c.inputs, c.Fills supplied g ∧ Assoc.contains g.id c.mappings = false ∧
    ∃ members, g.default? = some (.obj members) ∧
      Assoc.get? id (leaves c.mappings.shapeOf members).reverse = some w

private theorem inDefault_of_overrides (distinct : (c.inputs.map Field.id).Nodup)
    (undeclared : id ∉ c.inputs.map Field.id) (h : StandsOnce inputs id v before after)
    {words : Words} (overrides : c.Overrides (c.resolve inputs words).1 id w) :
    c.InDefault (c.flatten inputs) id w := by
  obtain ⟨_, key, members, _, here⟩ := overrides
  obtain ⟨g, hg, rfl⟩ := List.mem_map.mp here.declared
  have mem : (g.id, Value.obj members) ∈ (c.resolve inputs words).1 := by
    rw [here.split]
    exact List.mem_append_right _ List.mem_cons_self
  have nested : id ∈ deepKeysOf (.obj members) := by
    have leaf := List.mem_reverse.mp (Assoc.mem_of_get? here.nested)
    rw [deepKeysOf]
    exact deepKeys_of_mem_leaves leaf List.mem_cons_self
  obtain ⟨u, filled, settles⟩ :=
    exists_settles distinct hg (Assoc.get?_of_mem (c.nodup_keys_resolve inputs words) mem)
  -- no number has a member in it, so the object is what there was once defaults were filled in
  have same : .obj members = u := by
    rcases settles.cases_num with same | ⟨-, n, number⟩
    · exact same
    · exact nomatch number
  subst same
  rcases filled?_eq_some filled with supplied | ⟨missing, applies, default⟩
  · -- the id is nowhere in what was supplied for another field
    have leaf := Assoc.mem_ofList (Assoc.mem_of_get? supplied)
    have other : g.id ≠ id := by
      rintro rfl
      exact undeclared (List.mem_map_of_mem hg)
    exact absurd nested (h.not_mem_deepKeysOf leaf other)
  · exact ⟨g, hg, ⟨missing, by simp [default], applies⟩, here.unmapped, members, default,
      here.nested⟩

private theorem shapeOf_of_undeclared (undeclared : id ∉ c.inputs.map Field.id) :
    c.shapeOf id = none := by
  rw [shapeOf, field?, Option.map_eq_none_iff, List.find?_eq_none]
  intro f hf same
  exact undeclared (List.mem_map.mpr ⟨f, hf, by simpa using same⟩)

private theorem keptWhole_of_undeclared_iff (undeclared : id ∉ c.inputs.map Field.id) :
    KeptWhole c.shapeOf id v ↔ KeptWhole (fun _ => none) id v := by
  simp [KeptWhole, opens, shapeOf_of_undeclared undeclared]

/-- The value of a mapped field that is not declared is supplied once, at the top of valid inputs.
The actions made of the inputs themselves are made of it. Those of a compilation are made of it
exactly when nothing else overrides it and, where nothing does, it is kept whole without a
declaration; and only a value in a default that is filled in overrides it. -/
theorem undeclared_value_compiled_iff {maxLoras : Nat} (accepted : c.validate = .ok ())
    (valid : (c.check maxLoras inputs).isValid = true)
    (mapped : Assoc.contains id c.mappings = true) (undeclared : id ∉ c.inputs.map Field.id)
    (top : Assoc.get? id inputs = some v) (once : (deepKeys inputs).count id = 1)
    (notNull : v ≠ .null) (words : Words) :
    suppliedValue? (c.mappings.seen inputs) id = some v ∧
    ∃ compiled rest, c.compile maxLoras inputs words = .ok (compiled, rest) ∧
      (suppliedValue? (c.mappings.seen compiled.inputs) id = some v ↔
        (∀ w, c.Overrides compiled.inputs id w → w = v) ∧
          (KeptWhole (fun _ => none) id v ∨ ∃ w, c.Overrides compiled.inputs id w)) ∧
      ∀ w, c.Overrides compiled.inputs id w → c.InDefault (c.flatten inputs) id w := by
  have distinct := nodup_ids accepted
  obtain ⟨before, after, stands⟩ := StandsOnce.of_count top once
  have supplied : ∀ flat, suppliedValue? flat id = some v ↔ Assoc.get? id flat = some v := by
    intro flat
    have shown : v.isNull = false := by
      rw [← Bool.not_eq_true, Value.isNull_eq_true_iff]
      exact notNull
    rw [suppliedValue?, Option.filter_eq_some_iff]
    simp [shown]
  refine ⟨?_, _, _, compile_of_isValid valid words, ?_, ?_⟩
  · rw [supplied]
    exact stands.get?_of_keptWhole (Mappings.keptWhole_of_contains mapped v)
  · rw [supplied]
    rcases get?_seen_cases mapped inputs words with ⟨free, same⟩ | ⟨w, hw, seen⟩
    · have resolved := get?_resolve_of_not_mem undeclared inputs words
      rw [same, resolved]
      by_cases whole : KeptWhole (fun _ => none) id v
      · have flat := stands.get?_of_keptWhole ((keptWhole_of_undeclared_iff undeclared).mpr whole)
        exact iff_of_true flat ⟨fun w hw => absurd hw (free w), Or.inl whole⟩
      · have flat := stands.get?_of_not_keptWhole
          (mt (keptWhole_of_undeclared_iff undeclared).mp whole)
        rw [flatten, flat]
        simp [free, whole]
    · rw [seen, Option.some.injEq]
      constructor
      · rintro rfl
        exact ⟨fun u hu => Option.some.inj (hu.get?.symm.trans hw.get?), Or.inr ⟨w, hw⟩⟩
      · rintro ⟨only, -⟩
        exact only w hw
  · intro w hw
    exact inDefault_of_overrides distinct undeclared stands hw

/-- A style that goes to a node without being declared, beside the given fields. -/
def styling (inputs : List Field) : Config := { upscaling with
  name := "Styling"
  inputs := inputs
  mappings := [("style", .widget ⟨some scalerId, [], [0], none, [], none, none, none⟩)] }

/-- A group of settings that is kept whole, with a style by default. -/
def styleGroup : Field := { bareField "group" .unknown with
  default? := some (.obj [("style", .str "oil")])
  shape? := some .opaqueObject }

def markedStyle : Value := .obj [("path", .str "ink")]

def bareStyle : Value := .obj [("on", .bool true), ("lora", .str "ink")]

def writeStyle (v : Value) : Action := .modifyWidget ⟨scalerId, [0], [], v, none⟩

private theorem styling_accepted :
    ∀ c ∈ [styling [], styling [styleGroup]], c.validate = .ok () := by
  simp only [validate_eq_ok_iff, ← List.isEmpty_iff]
  decide +kernel

/-- A marked style reaches the actions. -/
theorem marked_style_compiled :
    ∃ compiled rest,
      (styling []).compile defaultMaxLoras [("style", markedStyle)] ⟨[], 0⟩ = .ok (compiled, rest) ∧
      suppliedValue? ((styling []).mappings.seen compiled.inputs) "style" = some markedStyle := by
  have valid : ((styling []).check defaultMaxLoras [("style", markedStyle)]).isValid = true := by
    decide +kernel
  have mapped : Assoc.contains "style" (styling []).mappings = true := by decide
  have top : Assoc.get? "style" [("style", markedStyle)] = some markedStyle := rfl
  have whole : KeptWhole (fun _ => none) "style" markedStyle := keptWhole_of_not_opens (by decide)
  obtain ⟨-, compiled, rest, run, same, defaults⟩ := undeclared_value_compiled_iff
    (styling_accepted _ List.mem_cons_self) valid mapped List.not_mem_nil top (by decide +kernel)
    nofun ⟨[], 0⟩
  refine ⟨compiled, rest, run, same.mpr ⟨fun w hw => ?_, Or.inl whole⟩⟩
  obtain ⟨g, none, -⟩ := defaults w hw
  exact absurd none List.not_mem_nil

/-- A style that looks like a section is opened when it is resolved and gives no action, and a style
in a default takes the place of the supplied one; made of the inputs themselves, the actions write
both. -/
theorem undeclared_style_lost :
    ((styling []).validate = .ok () ∧ ∃ compiled rest,
      (styling []).compile defaultMaxLoras [("style", bareStyle)] ⟨[], 0⟩ = .ok (compiled, rest) ∧
      suppliedValue? ((styling []).mappings.seen compiled.inputs) "style" = none ∧
      compiled.actions = [] ∧
      (styling []).mappings.compile [("style", bareStyle)] = [writeStyle bareStyle]) ∧
    (styling [styleGroup]).validate = .ok () ∧ ∃ compiled rest,
      (styling [styleGroup]).compile defaultMaxLoras [("style", .str "ink")] ⟨[], 0⟩ =
        .ok (compiled, rest) ∧
      suppliedValue? ((styling [styleGroup]).mappings.seen compiled.inputs) "style" =
        some (.str "oil") ∧
      compiled.actions = [writeStyle (.str "oil")] ∧
      (styling [styleGroup]).mappings.compile [("style", .str "ink")] =
        [writeStyle (.str "ink")] := by
  exact ⟨⟨styling_accepted _ (by simp), _, _, compile_of_isValid (by decide +kernel) _, rfl, rfl,
    rfl⟩, styling_accepted _ (by simp), _, _, compile_of_isValid (by decide +kernel) _, rfl, rfl, rfl⟩

end Config

end WorkflowGraph
