/- What becomes of each axis that is gathered into the write of a two-dimensional widget. -/

import WorkflowGraph.Proofs.ActionBlocks

set_option autoImplicit false
set_option relaxedAutoImplicit false

/-!
A node has one write, with one value and one list of slots for each axis. Gathering an axis replaces
both, so of the fields that share an axis of a node the last one with a value decides. The slots of
an earlier one are in the write as far as the last one lists them too.
-/

namespace WorkflowGraph

def VectorWrite.part (w : VectorWrite) (a : Axis) : Option Value × List Nat :=
  (w.value? a, w.indices a)

namespace VectorMapping

/-- What an axis with a value puts into the write of its node. -/
def part (q : VectorMapping × Value) : Option Value × List Nat := (some q.2, q.1.indices)

def held (groups : List (NodeId × VectorWrite)) (node : NodeId) : VectorWrite :=
  (Assoc.get? node groups).getD (blank node)

def sharing (node : NodeId) (a : Axis) (axes : List (VectorMapping × Value)) :
    List (VectorMapping × Value) :=
  axes.filter fun q => q.1.nodeId = node ∧ q.1.axis = a

@[simp] theorem sharing_append (node : NodeId) (a : Axis) (p q : List (VectorMapping × Value)) :
    sharing node a (p ++ q) = sharing node a p ++ sharing node a q :=
  List.filter_append p q

private theorem sharing_cons (node : NodeId) (a : Axis) (q : VectorMapping × Value)
    (axes : List (VectorMapping × Value)) :
    sharing node a (q :: axes) =
      (if q.1.nodeId = node ∧ q.1.axis = a then [q] else []) ++ sharing node a axes := by
  by_cases own : q.1.nodeId = node ∧ q.1.axis = a <;> simp [sharing, own]

private theorem part_extend (q : VectorMapping × Value) (w : VectorWrite) (a : Axis) :
    (q.1.extend q.2 w).part a = if q.1.axis = a then part q else w.part a := by
  cases own : q.1.axis <;> cases a <;>
    simp [extend, own, VectorWrite.part, VectorWrite.value?, VectorWrite.indices, part]

private theorem held_gather_self (groups : List (NodeId × VectorWrite))
    (q : VectorMapping × Value) :
    held (gather groups q) q.1.nodeId = q.1.extend q.2 (held groups q.1.nodeId) := by
  rw [held, gather, Assoc.get?_insert_self]
  rfl

private theorem held_gather_of_ne (groups : List (NodeId × VectorWrite)) {q : VectorMapping × Value}
    {node : NodeId} (other : q.1.nodeId ≠ node) :
    held (gather groups q) node = held groups node := by
  rw [held, gather, Assoc.get?_insert_of_ne (Ne.symm other)]
  rfl

private theorem part_held_gather (groups : List (NodeId × VectorWrite)) (q : VectorMapping × Value)
    (node : NodeId) (a : Axis) :
    (held (gather groups q) node).part a =
      written ((sharing node a [q]).map part) ((held groups node).part a) := by
  rw [sharing_cons]
  by_cases here : q.1.nodeId = node
  · subst here
    rw [held_gather_self, part_extend]
    by_cases own : q.1.axis = a <;> simp [own, sharing]
  · rw [held_gather_of_ne groups here]
    simp [here, sharing]

private theorem part_held_foldl_gather (axes : List (VectorMapping × Value))
    (groups : List (NodeId × VectorWrite)) (node : NodeId) (a : Axis) :
    (held (axes.foldl gather groups) node).part a =
      written ((sharing node a axes).map part) ((held groups node).part a) := by
  induction axes generalizing groups with
  | nil => rfl
  | cons q axes ih =>
    have first : sharing node a (q :: axes) = sharing node a [q] ++ sharing node a axes :=
      sharing_append node a [q] axes
    rw [List.foldl_cons, ih, part_held_gather, first, List.map_append, written_append]

end VectorMapping

namespace Mappings

variable {m before after : Mappings} {flat inputs : Object} {f : String} {v : VectorMapping}
  {x : Value}

/-- The later fields with a value that share the axis of a field. -/
def sharers (after : Mappings) (flat : Object) (v : VectorMapping) :
    List (VectorMapping × Value) :=
  VectorMapping.sharing v.nodeId v.axis (after.axes flat)

private theorem axes_append (a b : Mappings) (flat : Object) :
    axes (a ++ b) flat = a.axes flat ++ b.axes flat :=
  List.filterMap_append

private theorem axes_split (split : m = before ++ (f, .vector v) :: after)
    (supplied : suppliedValue? flat f = some x) :
    m.axes flat = before.axes flat ++ (v, x) :: after.axes flat := by
  have own : axes [(f, .vector v)] flat = [(v, x)] := by simp [axes, supplied]
  rw [split, axes_append, axes_cons, own]
  rfl

private theorem modifyVector_mem_compile_iff (m : Mappings) (inputs : Object) (w : VectorWrite) :
    .modifyVector w ∈ m.compile inputs ↔ w ∈ m.vectorWrites (m.seen inputs) := by
  have parts : m.compile inputs = m.flatMap (block (m.seen inputs)) ++
      (m.vectorWrites (m.seen inputs)).map .modifyVector := by
    rw [← vectorActions_eq]
    rfl
  rw [parts, List.mem_append, List.mem_map_of_injective fun _ _ => Action.modifyVector.inj]
  refine or_iff_right fun inBlock => ?_
  obtain ⟨p, -, h⟩ := List.mem_flatMap.mp inBlock
  exact ne_modifyVector_of_mem_block h w rfl

private theorem mem_vectorWrites_iff (m : Mappings) (flat : Object) (w : VectorWrite)
    (node : NodeId) :
    w ∈ m.vectorWrites flat ∧ w.nodeId = node ↔
      Assoc.get? node ((m.axes flat).foldl VectorMapping.gather []) = some w := by
  have nodup : (Assoc.keys ((m.axes flat).foldl VectorMapping.gather [])).Nodup := by
    rw [← map_nodeId_vectorWrites]
    exact nodup_nodeIds_vectorWrites m flat
  have grouped := VectorMapping.grouped_foldl (m.axes flat)
  constructor
  · rintro ⟨hw, rfl⟩
    obtain ⟨p, hp, rfl⟩ := List.mem_map.mp hw
    rw [(grouped p hp).1]
    exact Assoc.get?_of_mem nodup hp
  · intro h
    have hp := Assoc.mem_of_get? h
    exact ⟨List.mem_map.mpr ⟨_, hp, rfl⟩, (grouped _ hp).1⟩

private theorem exists_mem_vectorWrites {q : VectorMapping × Value} (hq : q ∈ m.axes flat) :
    ∃ w ∈ m.vectorWrites flat, w.nodeId = q.1.nodeId := by
  have named : q.1.nodeId ∈ (m.vectorWrites flat).map VectorWrite.nodeId := by
    rw [nodeIds_vectorWrites, List.mem_eraseDups, ← map_nodeId_axes]
    exact List.mem_map_of_mem hq
  exact List.mem_map.mp named

/-- A field with an axis and a value has a write to its node, and one only. For the axis it holds
what the last of the later fields that share the axis puts there, or what the field itself does if
there is none. So the axis has a value in any case, and the write lists all slots of the field just
when the last such field lists them too. -/
theorem axis_slots_kept_iff (split : m = before ++ (f, .vector v) :: after)
    (supplied : suppliedValue? (m.seen inputs) f = some x) :
    ∃ w, (∀ w', (.modifyVector w' ∈ m.compile inputs ∧ w'.nodeId = v.nodeId) ↔ w' = w) ∧
      w.part v.axis =
        written ((after.sharers (m.seen inputs) v).map VectorMapping.part) (some x, v.indices) ∧
      (w.value? v.axis).isSome = true ∧
      (v.indices ⊆ w.indices v.axis ↔
        ∀ last, (after.sharers (m.seen inputs) v).getLast? = some last →
          v.indices ⊆ last.1.indices) := by
  have gathered := axes_split split supplied
  have present : (v, x) ∈ m.axes (m.seen inputs) := by
    rw [gathered]
    exact List.mem_append_right _ List.mem_cons_self
  obtain ⟨w, hw, own⟩ := exists_mem_vectorWrites present
  have stands := (mem_vectorWrites_iff m _ w v.nodeId).mp ⟨hw, own⟩
  have part : w.part v.axis =
      written ((after.sharers (m.seen inputs) v).map VectorMapping.part) (some x, v.indices) := by
    have run := VectorMapping.part_held_foldl_gather (m.axes (m.seen inputs)) [] v.nodeId v.axis
    rw [VectorMapping.held, stands, gathered, VectorMapping.sharing_append,
      VectorMapping.sharing_cons, if_pos ⟨rfl, rfl⟩, List.map_append, List.map_append,
      written_append, written_append] at run
    exact run
  refine ⟨w, fun w' => ?_, part, ?_⟩
  · rw [modifyVector_mem_compile_iff, mem_vectorWrites_iff, stands, Option.some_inj, eq_comm]
  · cases last : (after.sharers (m.seen inputs) v).getLast? with
    | none =>
      have kept : w.part v.axis = (some x, v.indices) := by
        rw [part, written, List.getLast?_map, last]
        rfl
      obtain ⟨value, slots⟩ := Prod.mk.inj kept
      rw [value, slots]
      exact ⟨rfl, fun _ _ => nofun, fun _ => List.Subset.refl _⟩
    | some q =>
      have replaced : w.part v.axis = VectorMapping.part q := by
        rw [part, written, List.getLast?_map, last]
        rfl
      obtain ⟨value, slots⟩ := Prod.mk.inj replaced
      rw [value, slots]
      refine ⟨rfl, fun listed last' h => ?_, fun listed => listed q rfl⟩
      cases h
      exact listed

/-- The first axis of a size, at the first slot of a node. -/
def widthAxis : VectorMapping := ⟨.small 60, .x, [0], none⟩

def squareAxis : VectorMapping := ⟨.small 60, .x, [2], none⟩

def squaring : Mappings := [("width", .vector widthAxis), ("size", .vector squareAxis)]

def squared : Object := [("width", .ofNat 512), ("size", .ofNat 512)]

theorem square_slot_kept :
    suppliedValue? (squaring.seen squared) "size" = some (.ofNat 512) ∧
      ∃ w, (∀ w', (.modifyVector w' ∈ squaring.compile squared ∧
          w'.nodeId = squareAxis.nodeId) ↔ w' = w) ∧
        w.value? .x = some (.ofNat 512) ∧ squareAxis.indices ⊆ w.indices .x := by
  have supplied : suppliedValue? (squaring.seen squared) "size" = some (.ofNat 512) := rfl
  have split : squaring = [("width", .vector widthAxis)] ++ [("size", .vector squareAxis)] := rfl
  obtain ⟨w, only, part, -, kept⟩ := axis_slots_kept_iff split supplied
  exact ⟨supplied, w, only, (Prod.mk.inj part).1, kept.mpr fun _ => nofun⟩

/-- The size comes after the width, so nothing is written to the slot of the width. -/
theorem width_slot_lost :
    (∀ p ∈ squaring, ∀ v, p.2 = .vector v → v.indices ≠ []) ∧
      ("width", .vector widthAxis) ∈ squaring ∧
      suppliedValue? (squaring.seen squared) "width" = some (.ofNat 512) ∧
      ¬ ∃ w, .modifyVector w ∈ squaring.compile squared ∧ w.nodeId = widthAxis.nodeId ∧
        widthAxis.indices ⊆ w.indices widthAxis.axis := by
  have all : squaring.compile squared =
      [.modifyVector ⟨.small 60, some (.ofNat 512), none, [2], [], none⟩] := rfl
  refine ⟨?_, List.mem_cons_self, rfl, ?_⟩
  · intro p hp v hv
    rcases List.mem_pair.mp hp with rfl | rfl <;> cases hv <;> exact nofun
  · rintro ⟨w, hw, -, slots⟩
    rw [all, List.mem_singleton] at hw
    cases hw
    have listed : 0 ∈ [2] := slots List.mem_cons_self
    exact absurd listed (by decide)

end Mappings

end WorkflowGraph
