/- Documents of node mappings: what is written of a mapping reads as the mapping. -/

import WorkflowGraph.Proofs.OptionalMembers
import WorkflowGraph.Proofs.ParsedDocuments
import WorkflowGraph.Proofs.SchemaRules

set_option autoImplicit false
set_option relaxedAutoImplicit false

/-!
Every member of a mapping is written, an absent one as null. All readers of mappings take null for
an absent member, so a mapping reads back whenever its positions are numbers of 64 bits, as those of
every mapping that was read are. The rules of the schema do not take null for a node id.
-/

namespace WorkflowGraph

private theorem Mapping.nodup_keys_toValue (m : Mapping) :
    (Assoc.keys (("action_type", .str m.kind) :: m.members)).Nodup := by
  cases m <;>
    simp [members, WidgetMapping.members, ToggleMapping.members, LoraMapping.members,
      VectorMapping.members]

private theorem Mapping.nodup_keys_members (m : Mapping) : (Assoc.keys m.members).Nodup :=
  (List.nodup_cons.mp m.nodup_keys_toValue).2

open Record.Assembles (closed_eq_ok)
open Record.Slot.Yields (require require_first orElse orElse_first)

namespace WidgetMapping

private theorem read_members {w : WidgetMapping} (words : ∀ n ∈ w.indices, InNat64 n) :
    read (.obj w.members) = .ok w :=
  closed_eq_ok (Mapping.widget w).nodup_keys_members <|
    .take (orElse rfl (Record.nullable_ofNodeId? w.nodeId)) <|
    .take (orElse rfl (Record.list_ofNodeIds w.nodeIds)) <|
    .take (orElse rfl (Record.list_ofNats words)) <|
    .take (orElse rfl (Record.nullable_ofText? w.field)) <|
    .take (orElse rfl (Record.list_ofTexts w.fields)) <|
    .take (orElse rfl (Record.nullable_ofText? w.nodeKind)) <|
    .take (orElse rfl (Record.nullable_ofNodeId? w.highNodeId)) <|
    .take (orElse rfl (Record.nullable_ofNodeId? w.lowNodeId)) <|
    .rest rfl

private theorem words_of_read {v : Value} {w : WidgetMapping} (h : read v = .ok w) :
    ∀ n ∈ w.indices, InNat64 n := by
  obtain ⟨doc, -, made⟩ := Record.exists_of_closed h
  obtain ⟨_, -, made⟩ := Record.bind_eq_ok made
  obtain ⟨_, -, made⟩ := Record.bind_eq_ok made
  obtain ⟨indices, hindices, made⟩ := Record.bind_eq_ok made
  obtain ⟨_, -, made⟩ := Record.bind_eq_ok made
  obtain ⟨_, -, made⟩ := Record.bind_eq_ok made
  obtain ⟨_, -, made⟩ := Record.bind_eq_ok made
  obtain ⟨_, -, made⟩ := Record.bind_eq_ok made
  obtain ⟨_, -, made⟩ := Record.bind_eq_ok made
  cases made
  exact Record.words_of_listOr hindices

end WidgetMapping

namespace ToggleMapping

private theorem read_members (t : ToggleMapping) : read (.obj t.members) = .ok t :=
  closed_eq_ok (Mapping.toggle t).nodup_keys_members <|
    .take (orElse rfl (Record.nullable_ofNodeId? t.nodeId)) <|
    .take (orElse rfl (Record.list_ofNodeIds t.nodeIds)) <|
    .take (orElse rfl t.enabledMode.read_toValue) <|
    .take (orElse rfl t.disabledMode.read_toValue) <|
    .take (orElse_first rfl rfl (by simp [members]) (Record.nullable_ofNodeId? t.saveNodeId)) <|
    .rest rfl

end ToggleMapping

namespace LoraMapping

private theorem read_members (l : LoraMapping) : read (.obj l.members) = .ok l :=
  closed_eq_ok (Mapping.lora l).nodup_keys_members <|
    .take (require_first rfl rfl (by simp [members]) l.highNodeId.read_toValue) <|
    .take (require_first rfl rfl (by simp [members]) l.lowNodeId.read_toValue) <|
    .rest rfl

end LoraMapping

namespace VectorMapping

private theorem read_members {v : VectorMapping} (words : ∀ n ∈ v.indices, InNat64 n) :
    read (.obj v.members) = .ok v :=
  have axis : Record.enumeration Axis.choices none saysNothing (.str v.axis.name) =
      .ok v.axis := by cases v.axis <;> rfl
  closed_eq_ok (Mapping.vector v).nodup_keys_members <|
    .take (require rfl v.nodeId.read_toValue) <|
    .take (require rfl axis) <|
    .take (orElse rfl (Record.list_ofNats words)) <|
    .take (orElse rfl (Record.nullable_ofText? v.nodeKind)) <|
    .rest rfl

private theorem words_of_read {v : Value} {m : VectorMapping} (h : read v = .ok m) :
    ∀ n ∈ m.indices, InNat64 n := by
  obtain ⟨doc, -, made⟩ := Record.exists_of_closed h
  obtain ⟨_, -, made⟩ := Record.bind_eq_ok made
  obtain ⟨_, -, made⟩ := Record.bind_eq_ok made
  obtain ⟨indices, hindices, made⟩ := Record.bind_eq_ok made
  obtain ⟨_, -, made⟩ := Record.bind_eq_ok made
  cases made
  exact Record.words_of_listOr hindices

end VectorMapping

namespace Mapping

/-- The positions of a mapping are numbers of 64 bits. -/
def Words : Mapping → Prop
  | widget w => ∀ n ∈ w.indices, InNat64 n
  | vector v => ∀ n ∈ v.indices, InNat64 n
  | _ => True

theorem words_of_read {v : Value} {m : Mapping} (h : read v = .ok m) : m.Words := by
  obtain ⟨word, reader, rest, chosen, made⟩ := Record.exists_of_tagged h
  simp only [List.mem_cons, List.not_mem_nil, or_false, Option.some.injEq, Prod.mk.injEq] at chosen
  rcases chosen with (⟨-, rfl⟩ | ⟨-, rfl⟩ | ⟨-, rfl⟩ | ⟨-, rfl⟩) | rfl
  · obtain ⟨w, hw, rfl⟩ := Record.map_eq_ok made
    exact WidgetMapping.words_of_read hw
  · obtain ⟨t, -, rfl⟩ := Record.map_eq_ok made
    exact trivial
  · obtain ⟨l, -, rfl⟩ := Record.map_eq_ok made
    exact trivial
  · obtain ⟨w, hw, rfl⟩ := Record.map_eq_ok made
    exact VectorMapping.words_of_read hw
  · unfold readUnrecognized at made
    split at made
    next => exact nomatch made
    next =>
      cases made
      exact trivial

theorem read_toValue {m : Mapping} (words : m.Words) : read m.toValue = .ok m := by
  rw [toValue, read, Record.tagged_cons (List.nodup_cons.mp m.nodup_keys_toValue).1]
  cases m with
  | widget w => exact congrArg (Except.map widget) (WidgetMapping.read_members words)
  | toggle t => exact congrArg (Except.map toggle) t.read_members
  | lora l => exact congrArg (Except.map lora) l.read_members
  | vector v => exact congrArg (Except.map vector) (VectorMapping.read_members words)
  | unrecognized => rfl

/-- The node ids that the schema knows are all there, not null. -/
def NamesNodes : Mapping → Prop
  | widget w => w.nodeId.isSome ∧ w.highNodeId.isSome ∧ w.lowNodeId.isSome
  | toggle t => t.nodeId.isSome
  | _ => True

instance : (m : Mapping) → Decidable m.NamesNodes
  | widget _ => inferInstanceAs (Decidable (_ ∧ _ ∧ _))
  | toggle t => inferInstanceAs (Decidable (t.nodeId.isSome = true))
  | lora _ => inferInstanceAs (Decidable True)
  | vector _ => inferInstanceAs (Decidable True)
  | unrecognized => inferInstanceAs (Decidable True)

private theorem kind_ne_empty (m : Mapping) : m.kind ≠ "" := by
  cases m <;> simp [kind]

private theorem obeysAll_mode (m : NodeMode) : Schema.ObeysAll m.toValue Schema.countRules :=
  Schema.obeysAll_countRules ⟨Int.natCast_nonneg _, by omega⟩

/-- What is written of a mapping obeys the schema exactly when no node id in it is null. -/
theorem obeysAll_toValue_iff {m : Mapping} (words : m.Words) :
    Schema.ObeysAll m.toValue Schema.mappingRules ↔ m.NamesNodes := by
  have tag := (Schema.obeysAll_nameRules_iff m.kind).mpr m.kind_ne_empty
  simp only [Schema.mappingRules, Schema.ObeysAll, Schema.Obeys, Schema.obeysNamed_iff, toValue,
    List.forall_mem_cons]
  cases m with
  | widget w =>
    have indices := Schema.obeysAll_indicesRules words
    simp [members, WidgetMapping.members, Assoc.get?, Assoc.contains, Schema.Kind.holds, tag,
      indices, Schema.obeysAll_ofNodeId?_iff, Schema.obeysAll_nodeIdsRules, NamesNodes]
  | toggle t =>
    simp [members, ToggleMapping.members, Assoc.get?, Assoc.contains, Schema.Kind.holds, tag,
      obeysAll_mode, Schema.obeysAll_ofNodeId?_iff, Schema.obeysAll_nodeIdsRules, NamesNodes]
  | lora l =>
    simp [members, LoraMapping.members, Assoc.get?, Assoc.contains, Schema.Kind.holds, tag,
      Schema.obeysAll_nodeIdRules, NamesNodes]
  | vector v =>
    have indices := Schema.obeysAll_indicesRules words
    simp [members, VectorMapping.members, Assoc.get?, Assoc.contains, Schema.Kind.holds, tag,
      indices, Schema.obeysAll_nodeIdRules, NamesNodes]
  | unrecognized =>
    simp [members, Assoc.get?, Assoc.contains, Schema.Kind.holds, tag, NamesNodes]

theorem within_toValue (n : Nat) (m : Mapping) : m.toValue.Within (n + 2) := by
  refine Value.within_obj_iff.mpr ⟨m.nodup_keys_toValue, ?_⟩
  cases m <;>
    simp [members, WidgetMapping.members, ToggleMapping.members, LoraMapping.members,
      VectorMapping.members, Value.within_str, Value.within_ofText?, Value.within_ofNodeId?,
      Value.within_nodeId, Value.within_nodeMode, Value.within_ofNodeIds, Value.within_ofNats,
      Value.within_ofTexts]

end Mapping

end WorkflowGraph
