/- Bindings of fields among the mappings of a config: binding a second time changes nothing. -/

import WorkflowGraph.Proofs.ConfigDocuments

set_option autoImplicit false
set_option relaxedAutoImplicit false

namespace WorkflowGraph

namespace Config

variable {fields : List Field} {m : Mappings} {f : Field}

/-- Mappings with the one that a field implies by its binding, unless one is given. -/
def bindField (m : Mappings) (f : Field) : Mappings :=
  if Assoc.contains f.id m then m
  else match f.binding.mapping? with
    | some mapping => Assoc.insert f.id mapping m
    | none => m

theorem bindFields_cons (f : Field) (fields : List Field) (m : Mappings) :
    bindFields (f :: fields) m = bindFields fields (bindField m f) := rfl

private theorem mem_bindField {p : String × Mapping} (h : p ∈ bindField m f) :
    p ∈ m ∨ f.binding.mapping? = some p.2 := by
  unfold bindField at h
  split at h
  next => exact Or.inl h
  next =>
    split at h
    next mapping found =>
      rcases Assoc.mem_insert h with rfl | old
      · exact Or.inr found
      · exact Or.inl old
    next => exact Or.inl h

private theorem nodup_bindField (h : (Assoc.keys m).Nodup) (f : Field) :
    (Assoc.keys (bindField m f)).Nodup := by
  unfold bindField
  split
  next => exact h
  next =>
    split
    next mapping _ => exact Assoc.nodup_keys_insert h mapping
    next => exact h

def Bound (m : Mappings) (f : Field) : Prop :=
  f.id ∈ Assoc.keys m ∨ f.binding.mapping? = none

private theorem bindField_of_bound (h : Bound m f) : bindField m f = m := by
  unfold bindField
  rcases h with given | unbound
  · rw [if_pos ((Assoc.contains_iff_mem_keys _ _).mpr given)]
  · simp [unbound]

private theorem keys_bindField (m : Mappings) (f : Field) :
    Assoc.keys m ⊆ Assoc.keys (bindField m f) := by
  unfold bindField
  split
  next => exact List.Subset.refl _
  next absent =>
    split
    next mapping _ =>
      rw [Assoc.keys_insert_of_not_contains (Bool.eq_false_iff.mpr absent)]
      exact List.subset_append_left _ _
    next => exact List.Subset.refl _

private theorem bound_bindField (m : Mappings) (f : Field) : Bound (bindField m f) f := by
  unfold bindField
  split
  next given => exact Or.inl ((Assoc.contains_iff_mem_keys _ _).mp given)
  next absent =>
    split
    next mapping _ =>
      refine Or.inl ?_
      rw [Assoc.keys_insert_of_not_contains (Bool.eq_false_iff.mpr absent)]
      exact List.mem_append_right _ (List.mem_singleton_self _)
    next unbound => exact Or.inr unbound

private theorem mem_bindFields {p : String × Mapping} (h : p ∈ bindFields fields m) :
    p ∈ m ∨ ∃ f ∈ fields, f.binding.mapping? = some p.2 := by
  induction fields generalizing m with
  | nil => exact Or.inl h
  | cons f fields ih =>
    rw [bindFields_cons] at h
    rcases ih h with old | ⟨g, hg, bound⟩
    · exact (mem_bindField old).imp_right fun bound => ⟨f, List.mem_cons_self, bound⟩
    · exact Or.inr ⟨g, List.mem_cons_of_mem f hg, bound⟩

theorem nodup_bindFields (fields : List Field) (h : (Assoc.keys m).Nodup) :
    (Assoc.keys (bindFields fields m)).Nodup := by
  induction fields generalizing m with
  | nil => exact h
  | cons f fields ih => exact ih (nodup_bindField h f)

private theorem bindFields_of_bound (h : ∀ f ∈ fields, Bound m f) : bindFields fields m = m := by
  induction fields with
  | nil => rfl
  | cons f fields ih =>
    rw [bindFields_cons, bindField_of_bound (h f List.mem_cons_self)]
    exact ih fun g hg => h g (List.mem_cons_of_mem f hg)

private theorem keys_bindFields (fields : List Field) (m : Mappings) :
    Assoc.keys m ⊆ Assoc.keys (bindFields fields m) := by
  induction fields generalizing m with
  | nil => exact List.Subset.refl _
  | cons f fields ih => exact List.Subset.trans (keys_bindField m f) (ih (bindField m f))

private theorem bound_bindFields (fields : List Field) (m : Mappings) :
    ∀ f ∈ fields, Bound (bindFields fields m) f := by
  induction fields generalizing m with
  | nil => exact fun _ h => absurd h List.not_mem_nil
  | cons f fields ih =>
    intro g hg
    rcases List.mem_cons.mp hg with rfl | hg
    · exact (bound_bindField m g).imp_left fun given => keys_bindFields fields _ given
    · exact ih (bindField m f) g hg

theorem perm_orderMappings (ids : List String) (m : Mappings) : (orderMappings ids m).Perm m :=
  List.mergeSort_perm m _

private theorem orderMappings_orderMappings (ids : List String) (m : Mappings) :
    orderMappings ids (orderMappings ids m) = orderMappings ids m := by
  apply List.mergeSort_of_pairwise
  apply List.pairwise_mergeSort
  · intro a b c hab hbc
    simp only [decide_eq_true_eq] at *
    exact Nat.le_trans hab hbc
  · intro a b
    simpa using Nat.le_total _ _

theorem bind_bind (c : Config) : c.bind.bind = c.bind := by
  have keys : ∀ k, k ∈ Assoc.keys (orderMappings (c.inputs.map Field.id)
      (bindFields c.inputs c.mappings)) ↔ k ∈ Assoc.keys (bindFields c.inputs c.mappings) :=
    fun k => ((perm_orderMappings _ _).map Prod.fst).mem_iff
  have settled : bindFields c.bind.inputs c.bind.mappings = c.bind.mappings := by
    apply bindFields_of_bound
    intro f hf
    exact (bound_bindFields c.inputs c.mappings f hf).imp_left (keys f.id).mpr
  have ordered : orderMappings (c.bind.inputs.map Field.id) c.bind.mappings = c.bind.mappings :=
    orderMappings_orderMappings _ _
  conv_lhs => rw [bind, settled, ordered]

private theorem words_of_mapping? {b : Binding} {mapping : Mapping}
    (words : ∀ k ∈ b.indices, InNat64 k) (h : b.mapping? = some mapping) : mapping.Words := by
  unfold Binding.mapping? at h
  dsimp only at h
  split at h
  · cases h
    exact words
  · exact nomatch h

theorem Readable.bind {n : Nat} {c : Config} (h : c.Readable n) : c.bind.Readable n where
  inputs := h.inputs
  outputs := h.outputs
  layout := h.layout
  nodup := by
    have order := (perm_orderMappings (c.inputs.map Field.id)
      (bindFields c.inputs c.mappings)).map Prod.fst
    exact order.nodup_iff.mpr (nodup_bindFields c.inputs h.nodup)
  mappings := by
    intro p hp
    have given : p ∈ bindFields c.inputs c.mappings := (perm_orderMappings _ _).mem_iff.mp hp
    rcases mem_bindFields given with old | ⟨f, hf, bound⟩
    · exact h.mappings p old
    · exact words_of_mapping? (h.inputs f hf).indices bound

theorem Sound.bind {n : Nat} {c : Config} (h : c.Sound n) : c.bind.Sound n where
  toReadable := h.toReadable.bind
  name := h.name
  workflowFile := h.workflowFile
  namedInputs := h.namedInputs
  namedOutputs := h.namedOutputs
  layoutKind := h.layoutKind

end Config

end WorkflowGraph
