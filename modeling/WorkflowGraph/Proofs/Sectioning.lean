/- Inputs that are grouped by sections in different ways: flattening sees the same fields. -/

import WorkflowGraph.Proofs.Leaves
import Mathlib.Logic.Relation

set_option autoImplicit false
set_option relaxedAutoImplicit false

/-!
An object is a section where flattening opens it, and below anything else nothing is an input of its
own. A change of the members of one section, at whatever depth, changes the leaves by what it does
to those members. Putting members into a new section does nothing to the leaves, so it does nothing
to the flat map either.
-/

namespace WorkflowGraph

variable {shapeOf : String → Option Shape}

mutual

/-- The members of an object visited one after another, depth first, with the map of the leaves met
so far. -/
def visit (shapeOf : String → Option Shape) : List (String × Value) → Object → Object
  | [], flat => flat
  | (key, v) :: rest, flat => visit shapeOf rest (visitMember shapeOf key v flat)

/-- One member visited: a section by its members, anything else is written to the map. -/
def visitMember (shapeOf : String → Option Shape) (key : String) : Value → Object → Object
  | .obj members, flat =>
    if opens shapeOf key members then visit shapeOf members flat
    else Assoc.insert key (.obj members) flat
  | v, flat => Assoc.insert key v flat

end

mutual

private theorem visit_eq_insertAll : ∀ (o : Object) (flat : Object),
    visit shapeOf o flat = Assoc.insertAll flat (leaves shapeOf o)
  | [], flat => by simp [visit, leaves, Assoc.insertAll]
  | (key, v) :: rest, flat => by
    rw [visit, visitMember_eq_insertAll key v, visit_eq_insertAll rest, leaves_cons,
      Assoc.insertAll_append]

private theorem visitMember_eq_insertAll : ∀ (key : String) (v : Value) (flat : Object),
    visitMember shapeOf key v flat = Assoc.insertAll flat (leavesOf shapeOf key v)
  | key, .obj members, flat => by
    cases opened : opens shapeOf key members with
    | true => rw [visitMember, if_pos opened, leavesOf_of_opens opened, visit_eq_insertAll members]
    | false =>
      rw [visitMember, if_neg (by simp [opened]),
        leavesOf_of_keptWhole (keptWhole_of_not_opens opened)]
      rfl
  | key, .null, flat | key, .bool _, flat | key, .num _, flat | key, .str _, flat
  | key, .arr _, flat => rfl

end

private theorem isStructured_iff {o : Object} :
    isStructured o = true ↔ ∃ m ∈ valueMarkers, m ∈ Assoc.keys o := by
  simp [isStructured, Assoc.contains_iff_mem_keys]

/-- Two objects that are sections under the same keys. -/
structure OpenAlike (a b : Object) : Prop where
  empty : a = [] ↔ b = []
  marked : ∀ m ∈ valueMarkers, m ∈ Assoc.keys a ↔ m ∈ Assoc.keys b

private theorem OpenAlike.opens_eq {a b : Object} (h : OpenAlike a b) (key : String) :
    opens shapeOf key a = opens shapeOf key b := by
  have empty : a.isEmpty = b.isEmpty := by
    rw [Bool.eq_iff_iff, List.isEmpty_iff, List.isEmpty_iff, h.empty]
  have structured : isStructured a = isStructured b := by
    rw [Bool.eq_iff_iff, isStructured_iff, isStructured_iff]
    exact exists_congr fun m => and_congr_right (h.marked m)
  rw [opens, opens, empty, structured]

/-- A change of an object's own members or of those of one section below it. Members that flattening
does not open are values, and nothing inside them is changed. -/
inductive InSection (shapeOf : String → Option Shape) (Change : Object → Object → Prop) :
    Object → Object → Prop
  | here {a b : Object} (change : Change a b) : InSection shapeOf Change a b
  | inside (before : Object) {key : String} {members members' : Object} (after : Object)
      (opened : opens shapeOf key members = true)
      (change : InSection shapeOf Change members members') :
      InSection shapeOf Change (before ++ (key, .obj members) :: after)
        (before ++ (key, .obj members') :: after)

namespace InSection

variable {Change Same : Object → Object → Prop} {a b : Object}

private theorem openAlike (h : InSection shapeOf Change a b)
    (alike : ∀ {a b}, Change a b → OpenAlike a b) : OpenAlike a b := by
  cases h with
  | here change => exact alike change
  | inside before after opened change =>
    constructor
    · simp
    · simp

theorem leaves (h : InSection shapeOf Change a b)
    (alike : ∀ {a b}, Change a b → OpenAlike a b)
    (same : ∀ {a b}, Change a b → Same (leaves shapeOf a) (leaves shapeOf b))
    (among : ∀ before {a b} after, Same a b →
      Same (before ++ (a ++ after)) (before ++ (b ++ after))) :
    Same (WorkflowGraph.leaves shapeOf a) (WorkflowGraph.leaves shapeOf b) := by
  induction h with
  | here change => exact same change
  | @inside before key members members' after opened change ih =>
    -- with other markers, or without members, the section would have become a value
    have opened' : opens shapeOf key members' = true := by
      rw [← (change.openAlike alike).opens_eq key, opened]
    rw [leaves_append, leaves_append, leaves_cons, leaves_cons, leavesOf_of_opens opened,
      leavesOf_of_opens opened']
    exact among _ _ ih

end InSection

/-- A run of members goes into a new section under a key of its own. -/
inductive Wraps (shapeOf : String → Option Shape) : Object → Object → Prop
  | run (before run after : Object) (key : String) (inhabited : run ≠ [])
      (unmarked : ∀ m ∈ valueMarkers, m ∉ Assoc.keys run) (undeclared : shapeOf key = none)
      (keyUnmarked : key ∉ valueMarkers) (fresh : key ∉ Assoc.keys (before ++ after)) :
      Wraps shapeOf (before ++ run ++ after) (before ++ (key, .obj run) :: after)

/-- Runs of members go into new sections, one run after another and at any depth. -/
def Sectioned (shapeOf : String → Option Shape) : Object → Object → Prop :=
  Relation.ReflTransGen (InSection shapeOf (Wraps shapeOf))

namespace Wraps

variable {a b : Object}

private theorem openAlike (h : Wraps shapeOf a b) : OpenAlike a b := by
  cases h with
  | run before run after key inhabited unmarked undeclared keyUnmarked fresh =>
    constructor
    · simp [inhabited]
    · intro m hm
      have other : m ≠ key := fun same => keyUnmarked (same ▸ hm)
      simp [unmarked m hm, other]

private theorem leaves (h : Wraps shapeOf a b) :
    WorkflowGraph.leaves shapeOf a = WorkflowGraph.leaves shapeOf b := by
  cases h with
  | run before run after key inhabited unmarked undeclared keyUnmarked fresh =>
    have plain : isStructured run = false := by
      rw [← Bool.not_eq_true, isStructured_iff]
      rintro ⟨m, hm, h⟩
      exact unmarked m hm h
    have opened : opens shapeOf key run = true := by simp [opens, undeclared, plain, inhabited]
    rw [List.append_assoc, leaves_append, leaves_append, leaves_append, leaves_cons,
      leavesOf_of_opens opened]

end Wraps

private theorem Sectioned.leaves {a b : Object} (h : Sectioned shapeOf a b) :
    WorkflowGraph.leaves shapeOf a = WorkflowGraph.leaves shapeOf b := by
  induction h with
  | refl => rfl
  | tail _ step ih =>
    exact ih.trans (step.leaves Wraps.openAlike Wraps.leaves fun _ _ _ _ same => same ▸ rfl)

/-- Flattening visits the leaves depth first in the order of the document. So the flat map has the
ids of the leaves in the order in which they came first, each with the value that came last, and
putting runs of members into new sections leaves it as it is. -/
theorem sections_unseen (shapeOf : String → Option Shape) (o : Object) :
    flattenDeclared shapeOf o = visit shapeOf o [] ∧
      Assoc.keys (flattenDeclared shapeOf o) = (Assoc.keys (leaves shapeOf o)).eraseDups ∧
      (∀ id, Assoc.get? id (flattenDeclared shapeOf o) =
        Assoc.get? id (leaves shapeOf o).reverse) ∧
      ∀ o', Sectioned shapeOf o o' → flattenDeclared shapeOf o' = flattenDeclared shapeOf o := by
  refine ⟨(visit_eq_insertAll o []).symm, Assoc.keys_ofList _, fun id => get?_flattenDeclared id o,
    ?_⟩
  intro o' h
  rw [flattenDeclared, flattenDeclared, h.leaves]

def flatSampling : Object := [("cfg", .ofNat 5), ("shift", .ofNat 8), ("seed", .ofNat 42)]

/-- The first two of them in a section, and the second in a section of its own there. -/
def sectionedSampling : Object :=
  [("sampling", .obj [("cfg", .ofNat 5), ("advanced", .obj [("shift", .ofNat 8)])]),
    ("seed", .ofNat 42)]

theorem sampling_sections_unseen :
    Sectioned (fun _ => none) flatSampling sectionedSampling ∧
      flatten sectionedSampling = flatSampling := by
  have outer : Wraps (fun _ => none) flatSampling
      [("sampling", .obj [("cfg", .ofNat 5), ("shift", .ofNat 8)]), ("seed", .ofNat 42)] :=
    .run [] [("cfg", .ofNat 5), ("shift", .ofNat 8)] [("seed", .ofNat 42)] "sampling"
      (by simp) (by decide) rfl (by decide) (by decide)
  have inner : Wraps (fun _ => none) [("cfg", .ofNat 5), ("shift", .ofNat 8)]
      [("cfg", .ofNat 5), ("advanced", .obj [("shift", .ofNat 8)])] :=
    .run [("cfg", .ofNat 5)] [("shift", .ofNat 8)] [] "advanced"
      (by simp) (by decide) rfl (by decide) (by decide)
  have sectioned : Sectioned (fun _ => none) flatSampling sectionedSampling :=
    (Relation.ReflTransGen.single (.here outer)).tail
      (.inside [] [("seed", .ofNat 42)] (by decide) (.here inner))
  exact ⟨sectioned, (sections_unseen (fun _ => none) flatSampling).2.2.2 _ sectioned⟩

end WorkflowGraph
