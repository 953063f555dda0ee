/- The parts of a compilation: a block for each mapping, then the axes node by node. -/

import WorkflowGraph.Proofs.LoraEntries
import WorkflowGraph.Proofs.Gating

set_option autoImplicit false
set_option relaxedAutoImplicit false

/-!
The block of a mapping is made of the value of its own field. The writes of two-dimensional widgets
are gathered from many fields, but an axis changes the write of its own node alone. So gathering
commutes with leaving nodes out, and two inputs that differ in one field have the same writes once
the nodes that this field names are left out.
-/

namespace WorkflowGraph

namespace Mapping

def vector? : Mapping → Option VectorMapping
  | .vector v => some v
  | _ => none

private theorem actions_of_vector? {m : Mapping} {w : VectorMapping} (h : m.vector? = some w)
    (v : Value) :
    m.actions v = [] := by
  cases m with
  | vector w => rfl
  | _ => exact nomatch h

private theorem ne_modifyVector_of_mem_actions {m : Mapping} {v : Value} {a : Action}
    (h : a ∈ m.actions v) (w : VectorWrite) : a ≠ .modifyVector w := by
  rcases cases_of_mem_actions h with ⟨_, rfl⟩ | ⟨_, rfl⟩ | ⟨_, _, -, rfl⟩ <;>
    exact Action.noConfusion

end Mapping

namespace VectorMapping

variable (keep : NodeId → Bool)

private theorem filter_gather (groups : List (NodeId × VectorWrite)) (q : VectorMapping × Value) :
    (gather groups q).filter (fun p => keep p.1) =
      if keep q.1.nodeId then gather (groups.filter fun p => keep p.1) q
      else groups.filter fun p => keep p.1 := by
  rw [gather, Assoc.filter_insert]
  cases kept : keep q.1.nodeId with
  | true =>
    have old := Assoc.get?_filter keep q.1.nodeId groups
    rw [if_pos kept] at old
    rw [if_pos rfl, if_pos rfl, gather, old]
  | false => rfl

private theorem filter_foldl_gather (axes : List (VectorMapping × Value))
    (groups : List (NodeId × VectorWrite)) :
    (axes.foldl gather groups).filter (fun p => keep p.1) =
      (axes.filter fun q => keep q.1.nodeId).foldl gather (groups.filter fun p => keep p.1) := by
  induction axes generalizing groups with
  | nil => rfl
  | cons q axes ih =>
    rw [List.foldl_cons, ih, filter_gather]
    cases kept : keep q.1.nodeId with
    | true =>
      have first : (q :: axes).filter (fun q => keep q.1.nodeId) =
          q :: axes.filter fun q => keep q.1.nodeId := List.filter_cons_of_pos kept
      rw [first, List.foldl_cons, if_pos rfl]
    | false =>
      have left : (q :: axes).filter (fun q => keep q.1.nodeId) =
          axes.filter fun q => keep q.1.nodeId := List.filter_cons_of_neg (by simp [kept])
      rw [left, if_neg Bool.false_ne_true]

end VectorMapping

namespace Mappings

variable {m : Mappings} {flat flat' : Object} {id : String}

def blockEntries (m : Mappings) : Mappings := m.filter fun p => p.2.vector?.isNone

/-- The nodes of the axes that have a value, in the order of the mappings. -/
def axisNodes (m : Mappings) (flat : Object) : List NodeId :=
  m.filterMap fun p =>
    if (suppliedValue? flat p.1).isSome then p.2.vector?.map VectorMapping.nodeId else none

def axisNodesOf (m : Mappings) (id : String) : List NodeId :=
  m.filterMap fun p => if p.1 = id then p.2.vector?.map VectorMapping.nodeId else none

def vectorWrites (m : Mappings) (flat : Object) : List VectorWrite :=
  ((m.axes flat).foldl VectorMapping.gather []).map Prod.snd

theorem vectorActions_eq (m : Mappings) (flat : Object) :
    m.vectorActions flat = (m.vectorWrites flat).map .modifyVector := by
  rw [vectorActions, vectorWrites, List.map_map]
  rfl

private theorem block_of_vector? {p : String × Mapping} {w : VectorMapping}
    (h : p.2.vector? = some w) (flat : Object) : block flat p = [] := by
  rw [List.eq_nil_iff_forall_not_mem]
  intro a ha
  obtain ⟨v, -, ha⟩ := exists_of_mem_block ha
  rw [Mapping.actions_of_vector? h] at ha
  exact List.not_mem_nil ha

private theorem flatMap_block_blockEntries (m : Mappings) (flat : Object) :
    m.blockEntries.flatMap (block flat) = m.flatMap (block flat) := by
  induction m with
  | nil => rfl
  | cons p m ih =>
    cases h : p.2.vector? with
    | none =>
      have kept : blockEntries (p :: m) = p :: blockEntries m := by simp [blockEntries, h]
      rw [kept, List.flatMap_cons, List.flatMap_cons, ih]
    | some w =>
      have left : blockEntries (p :: m) = blockEntries m := by simp [blockEntries, h]
      rw [left, ih, List.flatMap_cons, block_of_vector? h, List.nil_append]

theorem ne_modifyVector_of_mem_block {p : String × Mapping} {a : Action} (h : a ∈ block flat p)
    (w : VectorWrite) : a ≠ .modifyVector w := by
  obtain ⟨v, -, h⟩ := exists_of_mem_block h
  exact Mapping.ne_modifyVector_of_mem_actions h w

theorem map_nodeId_axes (m : Mappings) (flat : Object) :
    (m.axes flat).map (fun q => q.1.nodeId) = m.axisNodes flat := by
  rw [axes, List.map_filterMap]
  refine List.filterMap_congr fun p _ => ?_
  cases hp : p.2 with
  | vector v => cases suppliedValue? flat p.1 <;> simp [Mapping.vector?]
  | _ => simp [Mapping.vector?]

theorem map_nodeId_vectorWrites (m : Mappings) (flat : Object) :
    (m.vectorWrites flat).map VectorWrite.nodeId =
      Assoc.keys ((m.axes flat).foldl VectorMapping.gather []) := by
  rw [vectorWrites, List.map_map]
  exact List.map_congr_left fun p hp => (VectorMapping.grouped_foldl _ p hp).1

theorem nodeIds_vectorWrites (m : Mappings) (flat : Object) :
    (m.vectorWrites flat).map VectorWrite.nodeId = (m.axisNodes flat).eraseDups := by
  have arrival := Assoc.keys_foldl_insert (fun q : VectorMapping × Value => q.1.nodeId)
    (fun groups q => q.1.extend q.2
      ((Assoc.get? q.1.nodeId groups).getD (VectorMapping.blank q.1.nodeId))) (m.axes flat)
  rw [map_nodeId_axes] at arrival
  rw [map_nodeId_vectorWrites]
  exact arrival

theorem nodup_nodeIds_vectorWrites (m : Mappings) (flat : Object) :
    ((m.vectorWrites flat).map VectorWrite.nodeId).Nodup := by
  rw [map_nodeId_vectorWrites]
  exact List.foldlRecOn (motive := fun groups => (Assoc.keys groups).Nodup) (m.axes flat)
    VectorMapping.gather List.nodup_nil fun _ nodup _ _ => Assoc.nodup_keys_insert nodup _

private theorem filter_vectorWrites (m : Mappings) (flat : Object) (keep : NodeId → Bool) :
    (m.vectorWrites flat).filter (fun w => keep w.nodeId) =
      (((m.axes flat).filter fun q => keep q.1.nodeId).foldl VectorMapping.gather []).map
        Prod.snd := by
  have gathered := VectorMapping.filter_foldl_gather keep (m.axes flat) []
  rw [List.filter_nil] at gathered
  rw [← gathered, vectorWrites, List.filter_map]
  refine congrArg (List.map Prod.snd) (List.filter_congr fun p hp => ?_)
  exact congrArg keep (VectorMapping.grouped_foldl _ p hp).1

private theorem block_congr {p : String × Mapping}
    (same : suppliedValue? flat p.1 = suppliedValue? flat' p.1) : block flat p = block flat' p := by
  rw [block, block, same]

private theorem filter_axes_congr
    (same : ∀ other, other ≠ id → suppliedValue? flat other = suppliedValue? flat' other) :
    (m.axes flat).filter (fun q => q.1.nodeId ∉ m.axisNodesOf id) =
      (m.axes flat').filter fun q => q.1.nodeId ∉ m.axisNodesOf id := by
  rw [axes, axes, List.filter_filterMap, List.filter_filterMap]
  refine List.filterMap_congr fun p hp => ?_
  by_cases own : p.1 = id
  · -- an axis of the field is left out with its node, whatever its value
    cases hv : p.2 with
    | vector v =>
      have named : v.nodeId ∈ m.axisNodesOf id :=
        List.mem_filterMap.mpr ⟨p, hp, by simp [own, hv, Mapping.vector?]⟩
      have left : ∀ x : Option Value, ((x.map fun x => (v, x)).filter
          fun q => decide (q.1.nodeId ∉ m.axisNodesOf id)) = none := by
        intro x
        cases x <;> simp [Option.filter, named]
      simp only [left]
    | _ => rfl
  · rw [same p.1 own]

/-- The actions for inputs are those of the mappings that have blocks of their own, block by block,
and then one for each node of which an axis has a value, in the order in which the mappings first
name them. Two inputs that differ in the value of one field, or in having one, differ in the block
of that field and in what is written to the nodes of its axes, and in nothing else. -/
theorem compile_blocks_then_vectors (m : Mappings) (inputs : Object) :
    m.compile inputs = m.blockEntries.flatMap (block (m.seen inputs)) ++
        (m.vectorWrites (m.seen inputs)).map .modifyVector ∧
      (∀ a ∈ m.blockEntries.flatMap (block (m.seen inputs)), ∀ w, a ≠ .modifyVector w) ∧
      ((m.vectorWrites (m.seen inputs)).map VectorWrite.nodeId).Nodup ∧
      (m.vectorWrites (m.seen inputs)).map VectorWrite.nodeId =
        (m.axisNodes (m.seen inputs)).eraseDups ∧
      ∀ inputs' id, (∀ other, other ≠ id →
          Assoc.get? other (m.seen inputs) = Assoc.get? other (m.seen inputs')) →
        (∀ p ∈ m.blockEntries, p.1 ≠ id →
          block (m.seen inputs) p = block (m.seen inputs') p) ∧
        (m.vectorWrites (m.seen inputs)).filter (fun w => w.nodeId ∉ m.axisNodesOf id) =
          (m.vectorWrites (m.seen inputs')).filter fun w => w.nodeId ∉ m.axisNodesOf id := by
  refine ⟨?_, ?_, nodup_nodeIds_vectorWrites m _, nodeIds_vectorWrites m _, ?_⟩
  · rw [flatMap_block_blockEntries, ← vectorActions_eq]
    rfl
  · intro a ha w
    obtain ⟨p, -, ha⟩ := List.mem_flatMap.mp ha
    exact ne_modifyVector_of_mem_block ha w
  · intro inputs' id same
    have supplied : ∀ other, other ≠ id →
        suppliedValue? (m.seen inputs) other = suppliedValue? (m.seen inputs') other :=
      fun other differs => suppliedValue?_congr (same other differs)
    refine ⟨fun p _ differs => block_congr (supplied p.1 differs), ?_⟩
    rw [filter_vectorWrites m _ fun node => node ∉ m.axisNodesOf id,
      filter_vectorWrites m _ fun node => node ∉ m.axisNodesOf id, filter_axes_congr supplied]

def sizeNode : NodeId := .small 7

def scaleNode : NodeId := .small 8

/-- A widget and two two-dimensional widgets, with the axes of the size around that of the scale. -/
def resizing : Mappings := [
  ("width", .vector ⟨sizeNode, .x, [0], none⟩),
  ("cfg", .widget ⟨some (.small 9), [], [0], none, [], none, none, none⟩),
  ("scale", .vector ⟨scaleNode, .x, [0], none⟩),
  ("height", .vector ⟨sizeNode, .y, [1], none⟩)]

def unsized : Object := [("height", .ofNat 768), ("scale", .ofNat 2), ("cfg", .ofNat 5)]

def sized : Object := ("width", .ofNat 512) :: unsized

/-- Without a width the size is written after the scale, and all else is as with it. -/
theorem width_confined :
    (resizing.vectorWrites (resizing.seen sized)).map VectorWrite.nodeId = [sizeNode, scaleNode] ∧
      (resizing.vectorWrites (resizing.seen unsized)).map VectorWrite.nodeId =
        [scaleNode, sizeNode] ∧
      resizing.blockEntries.flatMap (block (resizing.seen sized)) =
        resizing.blockEntries.flatMap (block (resizing.seen unsized)) ∧
      (resizing.vectorWrites (resizing.seen sized)).filter (fun w => w.nodeId ∉ [sizeNode]) =
        (resizing.vectorWrites (resizing.seen unsized)).filter fun w => w.nodeId ∉ [sizeNode] := by
  obtain ⟨-, -, -, nodes, confined⟩ := compile_blocks_then_vectors resizing sized
  obtain ⟨-, -, -, nodes', -⟩ := compile_blocks_then_vectors resizing unsized
  have same : ∀ other, other ≠ "width" →
      Assoc.get? other (resizing.seen sized) = Assoc.get? other (resizing.seen unsized) :=
    fun other differs => Assoc.get?_cons_of_ne differs (resizing.seen unsized)
  obtain ⟨blocks, vectors⟩ := confined unsized "width" same
  refine ⟨nodes, nodes', ?_, vectors⟩
  have unnamed : ∀ p ∈ resizing.blockEntries, p.1 ≠ "width" := by decide
  exact List.flatMap_congr fun p hp => blocks p hp (unnamed p hp)

end Mappings

end WorkflowGraph
