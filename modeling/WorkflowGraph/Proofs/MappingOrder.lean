/- The mappings of a parsed config: given ones and those of bindings, in the order of the fields. -/

import WorkflowGraph.Proofs.WrittenConfigs

set_option autoImplicit false
set_option relaxedAutoImplicit false

/-!
Fields are bound one after another, and a mapping that is there by then stays. So the mapping of a
key is the given one or else the one of the first field that has this id and names a node and a
widget. Sorting compares the places of keys among the fields. The sort is stable and all other keys
share one place, so that these keep the order of the document behind the keys of fields.
-/

namespace WorkflowGraph

namespace Binding

def Complete (b : Binding) : Prop :=
  (b.nodeId ≠ none ∨ b.nodeIds ≠ []) ∧ (b.indices ≠ [] ∨ b.field ≠ none ∨ b.fields ≠ [])

instance : DecidablePred Complete := fun b =>
  inferInstanceAs (Decidable ((b.nodeId ≠ none ∨ b.nodeIds ≠ []) ∧
    (b.indices ≠ [] ∨ b.field ≠ none ∨ b.fields ≠ [])))

def widget (b : Binding) : WidgetMapping :=
  ⟨b.nodeId, b.nodeIds, b.indices, b.field, b.fields, none, none, none⟩

private theorem mapping?_eq_some_iff {b : Binding} {mapping : Mapping} :
    b.mapping? = some mapping ↔ b.Complete ∧ mapping = .widget b.widget := by
  have named : ((b.nodeId.isSome || !b.nodeIds.isEmpty) &&
      (!b.indices.isEmpty || b.field.isSome || !b.fields.isEmpty)) = true ↔ b.Complete := by
    simp [Complete, Option.isSome_iff_ne_none, or_assoc]
  rw [mapping?]
  split
  next complete => simp [named.mp complete, widget, eq_comm]
  next partial_ => simp [mt named.mpr partial_]

end Binding

namespace Config

variable {fields : List Field} {ids : List String}

/-- The mapping that the first complete binding of a field id stands for. -/
def implied? (fields : List Field) (id : String) : Option Mapping :=
  fields.findSome? fun f => if f.id = id then f.binding.mapping? else none

private theorem implied?_cons (f : Field) (fields : List Field) (id : String) :
    implied? (f :: fields) id =
      (if f.id = id then f.binding.mapping? else none).or (implied? fields id) := by
  rw [implied?, List.findSome?_cons]
  split <;> simp [*, implied?]

private theorem implied?_of_not_mem {id : String} (absent : id ∉ fields.map Field.id) :
    implied? fields id = none := by
  rw [implied?, List.findSome?_eq_none_iff]
  intro f hf
  exact if_neg fun same => absent (List.mem_map.mpr ⟨f, hf, same⟩)

private theorem implied?_of_mem (nodup : (fields.map Field.id).Nodup) {f : Field}
    (hf : f ∈ fields) :
    implied? fields f.id = f.binding.mapping? := by
  induction fields with
  | nil => exact absurd hf List.not_mem_nil
  | cons g fields ih =>
    obtain ⟨fresh, nodup⟩ := List.nodup_cons.mp nodup
    rw [implied?_cons]
    rcases List.mem_cons.mp hf with rfl | hf
    · rw [if_pos rfl, implied?_of_not_mem fresh, Option.or_none]
    · have other : g.id ≠ f.id := fun same => fresh (List.mem_map.mpr ⟨f, hf, same.symm⟩)
      rw [if_neg other, Option.none_or, ih nodup hf]

private theorem implied?_eq_some_iff (nodup : (fields.map Field.id).Nodup) {id : String}
    {mapping : Mapping} : implied? fields id = some mapping ↔
      ∃ f ∈ fields, f.id = id ∧ f.binding.Complete ∧ mapping = .widget f.binding.widget := by
  by_cases declared : id ∈ fields.map Field.id
  · obtain ⟨f, hf, rfl⟩ := List.mem_map.mp declared
    rw [implied?_of_mem nodup hf, Binding.mapping?_eq_some_iff]
    refine ⟨fun bound => ⟨f, hf, rfl, bound⟩, ?_⟩
    rintro ⟨g, hg, same, bound⟩
    obtain rfl : g = f := List.inj_on_of_nodup_map nodup hg hf same
    exact bound
  · rw [implied?_of_not_mem declared]
    refine iff_of_false nofun ?_
    rintro ⟨f, hf, rfl, -⟩
    exact declared (List.mem_map.mpr ⟨f, hf, rfl⟩)

private theorem get?_bindField (m : Mappings) (f : Field) (id : String) :
    Assoc.get? id (bindField m f) =
      (Assoc.get? id m).or (if f.id = id then f.binding.mapping? else none) := by
  unfold bindField
  by_cases own : f.id = id
  · subst own
    rw [if_pos rfl, Assoc.contains]
    cases given : Assoc.get? f.id m with
    | some mapping => simp [given]
    | none =>
      cases bound : f.binding.mapping? with
      | some mapping => simp [Assoc.get?_insert_self]
      | none => simp [given]
  · rw [if_neg own, Option.or_none]
    split
    next => rfl
    next =>
      split
      next mapping _ => exact Assoc.get?_insert_of_ne (Ne.symm own) mapping m
      next => rfl

private theorem get?_bindFields (fields : List Field) (m : Mappings) (id : String) :
    Assoc.get? id (bindFields fields m) = (Assoc.get? id m).or (implied? fields id) := by
  induction fields generalizing m with
  | nil => simp [bindFields, implied?]
  | cons f fields ih => rw [bindFields_cons, ih, get?_bindField, Option.or_assoc, implied?_cons]

private theorem keys_bindFields_filter (fields : List Field) (m : Mappings)
    (declared : ∀ f ∈ fields, f.id ∈ ids) :
    (Assoc.keys (bindFields fields m)).filter (· ∉ ids) = (Assoc.keys m).filter (· ∉ ids) := by
  induction fields generalizing m with
  | nil => rfl
  | cons f fields ih =>
    rw [bindFields_cons, ih _ fun g hg => declared g (List.mem_cons_of_mem f hg), bindField]
    split
    next => rfl
    next absent =>
      split
      next mapping _ =>
        rw [Assoc.keys_insert_of_not_contains (Bool.eq_false_iff.mpr absent)]
        simp [declared f List.mem_cons_self]
      next => rfl

private theorem findIdx?_reverse_of_not_mem {id : String} (absent : id ∉ ids) :
    ids.reverse.findIdx? (· = id) = none := by
  rw [List.findIdx?_eq_none_iff]
  intro x hx
  simpa using fun same : x = id => absent (same ▸ List.mem_reverse.mp hx)

private theorem place_append_cons {before after : List String} {id : String} (last : id ∉ after) :
    place (before ++ id :: after) id = before.length := by
  have found : (before ++ id :: after).reverse.findIdx? (· = id) = some after.length := by
    simp [List.findIdx?_append, List.findIdx?_cons, findIdx?_reverse_of_not_mem last]
  rw [place, found]
  simp only [List.length_append, List.length_cons]
  omega

private theorem place_of_not_mem {id : String} (absent : id ∉ ids) : place ids id = ids.length := by
  rw [place, findIdx?_reverse_of_not_mem absent]

private theorem place_getElem (nodup : ids.Nodup) {i : Nat} (h : i < ids.length) :
    place ids ids[i] = i := by
  have split : ids.take i ++ ids[i] :: ids.drop (i + 1) = ids := by simp
  have last : ids[i] ∉ ids.drop (i + 1) := by
    have parts : (ids.take i ++ ids[i] :: ids.drop (i + 1)).Nodup := split.symm ▸ nodup
    exact (List.nodup_cons.mp (List.nodup_append.mp parts).2.1).1
  have placed : place (ids.take i ++ ids[i] :: ids.drop (i + 1)) ids[i] = (ids.take i).length :=
    place_append_cons last
  rwa [split, List.length_take_of_le h.le] at placed

private theorem pairwise_place_lt (nodup : ids.Nodup) :
    ids.Pairwise fun a b => place ids a < place ids b := by
  rw [List.pairwise_iff_getElem]
  intro i j hi hj lt
  rwa [place_getElem nodup hi, place_getElem nodup hj]

private theorem place_lt_of_mem (nodup : ids.Nodup) {id : String} (h : id ∈ ids) :
    place ids id < ids.length := by
  obtain ⟨i, hi, rfl⟩ := List.getElem_of_mem h
  rwa [place_getElem nodup hi]

private theorem place_injOn (nodup : ids.Nodup) {a b : String} (ha : a ∈ ids)
    (same : place ids a = place ids b) (hb : b ∈ ids) : a = b := by
  obtain ⟨i, hi, rfl⟩ := List.getElem_of_mem ha
  obtain ⟨j, hj, rfl⟩ := List.getElem_of_mem hb
  rw [place_getElem nodup hi, place_getElem nodup hj] at same
  subst same
  rfl

private theorem eq_filter_append_filter {α : Type} {P : α → Prop} [DecidablePred P] {l : List α}
    (h : l.Pairwise fun a b => P b → P a) : l = l.filter P ++ l.filter (¬ P ·) := by
  induction l with
  | nil => rfl
  | cons a l ih =>
    obtain ⟨first, rest⟩ := List.pairwise_cons.mp h
    by_cases ha : P a
    · simpa [ha] using ih rest
    · have none_ : ∀ b ∈ l, ¬ P b := fun b hb hp => ha (first b hb hp)
      rw [List.filter_cons_of_neg (by simpa using ha), List.filter_cons_of_pos (by simpa using ha),
        List.filter_eq_nil_iff.mpr (by simpa using none_),
        List.filter_eq_self.mpr (by simpa using none_), List.nil_append]

/-- Keys sorted by their places: the ids among them in the order of the ids, then all others in
their own order. -/
theorem mergeSort_place (nodup : ids.Nodup) {keys : List String} (distinct : keys.Nodup) :
    keys.mergeSort (fun a b => place ids a ≤ place ids b) =
      ids.filter (· ∈ keys) ++ keys.filter (· ∉ ids) := by
  have trans : ∀ a b c : String, decide (place ids a ≤ place ids b) = true →
      decide (place ids b ≤ place ids c) = true → decide (place ids a ≤ place ids c) = true := by
    simpa using fun a b c => Nat.le_trans
  have total : ∀ a b : String,
      (decide (place ids a ≤ place ids b) || decide (place ids b ≤ place ids a)) = true := by
    simpa using fun a b => Nat.le_total _ _
  let sorted := keys.mergeSort fun a b => place ids a ≤ place ids b
  have perm : sorted.Perm keys := List.mergeSort_perm _ _
  have ordered : sorted.Pairwise fun a b => place ids a ≤ place ids b := by
    simpa using List.pairwise_mergeSort trans total keys
  have declaredFirst : sorted.Pairwise fun a b => b ∈ ids → a ∈ ids := by
    refine ordered.imp fun {a b} le hb => ?_
    by_contra ha
    have last := place_lt_of_mem nodup hb
    rw [place_of_not_mem ha] at le
    omega
  have declared : sorted.filter (· ∈ ids) = ids.filter (· ∈ keys) := by
    have antisymm : ∀ a b, a ∈ sorted.filter (· ∈ ids) → b ∈ ids.filter (· ∈ keys) →
        place ids a ≤ place ids b → place ids b ≤ place ids a → a = b := by
      intro a b ha hb le ge
      exact place_injOn nodup (by simpa using (List.mem_filter.mp ha).2) (Nat.le_antisymm le ge)
        (List.mem_filter.mp hb).1
    have same : (sorted.filter (· ∈ ids)).Perm (ids.filter (· ∈ keys)) := by
      rw [List.perm_ext_iff_of_nodup ((perm.nodup_iff.mpr distinct).filter _) (nodup.filter _)]
      intro a
      simp [perm.mem_iff, and_comm]
    exact same.eq_of_pairwise antisymm (ordered.filter _)
      (((pairwise_place_lt nodup).imp Nat.le_of_lt).filter _)
  have others : sorted.filter (· ∉ ids) = keys.filter (· ∉ ids) := by
    -- the others share one place, so the sort leaves them as they stand
    have level : (keys.filter (· ∉ ids)).Pairwise fun a b =>
        decide (place ids a ≤ place ids b) = true := by
      refine List.pairwise_of_forall_mem_list fun a ha b hb => ?_
      rw [place_of_not_mem (by simpa using (List.mem_filter.mp ha).2),
        place_of_not_mem (by simpa using (List.mem_filter.mp hb).2)]
      exact decide_eq_true le_rfl
    have kept := List.sublist_mergeSort trans total level List.filter_sublist
    have within := kept.filter (· ∉ ids)
    rw [List.filter_filter] at within
    simp only [Bool.and_self] at within
    exact (within.eq_of_length (perm.filter _).length_eq.symm).symm
  calc sorted = sorted.filter (· ∈ ids) ++ sorted.filter (· ∉ ids) :=
        eq_filter_append_filter declaredFirst
    _ = ids.filter (· ∈ keys) ++ keys.filter (· ∉ ids) := by rw [declared, others]

private theorem keys_orderMappings (nodup : ids.Nodup) {m : Mappings}
    (distinct : (Assoc.keys m).Nodup) :
    Assoc.keys (orderMappings ids m) =
      ids.filter (· ∈ Assoc.keys m) ++ (Assoc.keys m).filter (· ∉ ids) := by
  rw [← mergeSort_place nodup distinct, Assoc.keys, orderMappings, List.map_mergeSort]
  · rfl
  · intros
    rfl

section Bound

variable {c : Config}

private theorem nodup_keys_bind (distinct : (Assoc.keys c.mappings).Nodup) :
    (Assoc.keys c.bind.mappings).Nodup :=
  ((perm_orderMappings _ _).map Prod.fst).nodup_iff.mpr (nodup_bindFields c.inputs distinct)

private theorem get?_bind (distinct : (Assoc.keys c.mappings).Nodup) (id : String) :
    Assoc.get? id c.bind.mappings = (Assoc.get? id c.mappings).or (implied? c.inputs id) := by
  rw [← get?_bindFields]
  exact Assoc.get?_perm (perm_orderMappings _ _) (nodup_keys_bind distinct) id

private theorem keys_bind (distinct : (Assoc.keys c.mappings).Nodup)
    (nodup : (c.inputs.map Field.id).Nodup) :
    Assoc.keys c.bind.mappings =
      (c.inputs.map Field.id).filter (· ∈ Assoc.keys c.bind.mappings) ++
        (Assoc.keys c.mappings).filter (· ∉ c.inputs.map Field.id) := by
  have declared : ∀ f ∈ c.inputs, f.id ∈ c.inputs.map Field.id :=
    fun f hf => List.mem_map.mpr ⟨f, hf, rfl⟩
  have same : ∀ k, k ∈ Assoc.keys c.bind.mappings ↔
      k ∈ Assoc.keys (bindFields c.inputs c.mappings) :=
    fun k => ((perm_orderMappings _ _).map Prod.fst).mem_iff
  have ordered := keys_orderMappings nodup (nodup_bindFields c.inputs distinct)
  rw [keys_bindFields_filter c.inputs c.mappings declared] at ordered
  simp only [same]
  exact ordered

private theorem mem_keys_bind_iff (distinct : (Assoc.keys c.mappings).Nodup)
    (nodup : (c.inputs.map Field.id).Nodup) (k : String) :
    k ∈ Assoc.keys c.bind.mappings ↔
      k ∈ Assoc.keys c.mappings ∨ ∃ f ∈ c.inputs, f.id = k ∧ f.binding.Complete := by
  have bound : (implied? c.inputs k).isSome = true ↔
      ∃ f ∈ c.inputs, f.id = k ∧ f.binding.Complete := by
    simp only [Option.isSome_iff_exists, implied?_eq_some_iff nodup]
    constructor
    · rintro ⟨_, f, hf, same, complete, -⟩
      exact ⟨f, hf, same, complete⟩
    · rintro ⟨f, hf, same, complete⟩
      exact ⟨_, f, hf, same, complete, rfl⟩
  rw [← bound, ← Assoc.contains_iff_mem_keys, ← Assoc.contains_iff_mem_keys, Assoc.contains,
    get?_bind distinct, Option.isSome_or, Bool.or_eq_true, Assoc.contains]

end Bound

/-- The mappings of a parsed config are those of its document and those that complete bindings
stand for. A given mapping is kept, whatever the field of its key names. The keys of fields come
first, in the order of the fields, and then all others in the order of the document. -/
theorem mappings_of_parsed {text : String} {form : Notation} {c : Config}
    (parsed : parse text form = .ok c) (nodup : (c.inputs.map Field.id).Nodup) :
    ∃ document d, form.document text = .ok document ∧ read document = .ok d ∧
      c = { d with mappings := c.mappings } ∧
      (∀ k, k ∈ Assoc.keys c.mappings ↔
        k ∈ Assoc.keys d.mappings ∨ ∃ f ∈ c.inputs, f.id = k ∧ f.binding.Complete) ∧
      (∀ k ∈ Assoc.keys d.mappings, Assoc.get? k c.mappings = Assoc.get? k d.mappings) ∧
      (∀ f ∈ c.inputs, f.id ∉ Assoc.keys d.mappings → f.binding.Complete →
        Assoc.get? f.id c.mappings = some (.widget f.binding.widget)) ∧
      (Assoc.keys c.mappings).Nodup ∧
      Assoc.keys c.mappings = (c.inputs.map Field.id).filter (· ∈ Assoc.keys c.mappings) ++
        (Assoc.keys d.mappings).filter (· ∉ c.inputs.map Field.id) := by
  obtain ⟨document, read_, accepted⟩ := exists_of_parse parsed
  obtain ⟨-, d, typed, rfl⟩ := ofDocument_eq_ok_iff.mp accepted
  obtain ⟨n, room, readable⟩ :=
    exists_readable_of_read (Notation.distinct_of_document read_) typed
  have distinct : (Assoc.keys d.mappings).Nodup := readable.nodup
  have fields : d.bind.inputs = d.inputs := rfl
  rw [fields] at nodup ⊢
  refine ⟨document, d, read_, typed, rfl, mem_keys_bind_iff distinct nodup, ?_, ?_,
    nodup_keys_bind distinct, keys_bind distinct nodup⟩
  · intro k given
    obtain ⟨mapping, found⟩ : ∃ mapping, Assoc.get? k d.mappings = some mapping :=
      Option.isSome_iff_exists.mp ((Assoc.contains_iff_mem_keys k _).mpr given)
    rw [get?_bind distinct, found, Option.some_or]
  · intro f hf absent complete
    rw [get?_bind distinct, (Assoc.get?_eq_none_iff f.id _).mpr absent, Option.none_or,
      implied?_eq_some_iff nodup]
    exact ⟨f, hf, rfl, complete, rfl⟩

def widgetOfNode (node : Nat) : Value :=
  .obj [("action_type", .str "modify_widget"), ("node_id", .ofNat node),
    ("widget_indices", .ofNats [0])]

/-- Two of three fields are bound to nodes, one of these has a mapping as well, and the first
mapping is that of no field. -/
def clipDocument : Value := .obj [
  ("name", .str "Clip"), ("workflow_file", .str "clip.json"),
  ("inputs", .arr [
    .obj [("id", .str "prompt"), ("type", .str "textarea")],
    .obj [("id", .str "fps"), ("type", .str "slider"), ("node_id", .ofNat 40),
      ("field", .str "frame_rate")],
    .obj [("id", .str "cfg"), ("type", .str "slider"), ("node_id", .ofNat 1),
      ("widget_indices", .ofNats [0])]]),
  ("node_mapping", .obj [
    ("legacy", widgetOfNode 9), ("cfg", widgetOfNode 85), ("prompt", widgetOfNode 6)])]

theorem clip_mappings_ordered : ∃ c d,
    parse clipDocument.pretty .json = .ok c ∧ (c.inputs.map Field.id).Nodup ∧
      read clipDocument = .ok d ∧ Assoc.keys d.mappings = ["legacy", "cfg", "prompt"] ∧
      Assoc.keys c.mappings = ["prompt", "fps", "cfg", "legacy"] ∧
      Assoc.get? "cfg" c.mappings = Assoc.get? "cfg" d.mappings := by
  have within : clipDocument.Within 4 := by
    simp [clipDocument, widgetOfNode, Value.within_obj_iff, Value.within_arr_iff, Value.within_str,
      Value.within_ofNat, Value.within_ofNats]
  have shallow : clipDocument.depth ≤ Json.maxDepth := by decide
  have survives : clipDocument.Survives := by decide +kernel
  have object : ∃ o, clipDocument = .obj o := ⟨_, rfl⟩
  obtain ⟨c, parsed, facts⟩ := exists_parse_pretty object within.distinct survives shallow
    (P := fun c => c.inputs.map Field.id = ["prompt", "fps", "cfg"] ∧
      ∃ f ∈ c.inputs, f.id = "fps" ∧ f.binding.Complete) (by decide +kernel)
  obtain ⟨ids, fps⟩ := of_decide_eq_true facts
  have nodup : (c.inputs.map Field.id).Nodup := by
    rw [ids]
    decide
  obtain ⟨document, d, read_, typed, -, mapped, given, -, -, order⟩ :=
    mappings_of_parsed parsed nodup
  obtain rfl : document = clipDocument := by
    rw [Notation.document,
      (Json.parse?_pretty_eq_self_iff within.distinct).mpr ⟨shallow, survives⟩] at read_
    exact (Except.ok.inj read_).symm
  have keys : Assoc.keys d.mappings = ["legacy", "cfg", "prompt"] := by
    have accepted : (read clipDocument).toOption.any (fun d =>
        Assoc.keys d.mappings = ["legacy", "cfg", "prompt"]) = true := by decide +kernel
    rw [typed] at accepted
    simpa [Except.toOption] using accepted
  have all : ∀ k ∈ ["prompt", "fps", "cfg"], k ∈ Assoc.keys c.mappings := by
    simp only [List.forall_mem_cons, mapped, keys]
    exact ⟨Or.inl (by decide), Or.inr fps, Or.inl (by decide), fun _ h => absurd h List.not_mem_nil⟩
  rw [ids, keys, List.filter_eq_self.mpr fun k hk => decide_eq_true (all k hk)] at order
  exact ⟨c, d, parsed, nodup, typed, keys, order, given "cfg" (by simp [keys])⟩

end Config

end WorkflowGraph
