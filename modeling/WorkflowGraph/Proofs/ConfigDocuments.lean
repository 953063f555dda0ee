/- Documents of configs: what is written of a config reads as the config. -/

import WorkflowGraph.Proofs.FieldDocuments

set_option autoImplicit false
set_option relaxedAutoImplicit false

namespace WorkflowGraph

open Record.Assembles (closed_eq_ok)
open Record.Slot.Yields (require orElse unlessNull)

namespace Config

/-- The members of a config's document, with the layout that it may lack. -/
def slots (c : Config) : List (String × Option Value) := [
  ("id", some (.str c.id)), ("name", some (.str c.name)), ("version", some (.str c.version)),
  ("description", some (.str c.description)), ("category", some (.str c.category)),
  ("workflow_file", some (.str c.workflowFile)),
  ("inputs", some (.arr (c.inputs.map Field.toValue))),
  ("outputs", some (.arr (c.outputs.map Output.toValue))),
  ("layout", if c.layout.isNull then none else some c.layout),
  ("node_mapping", some c.mappings.toValue)]

theorem toValue_eq (c : Config) : c.toValue = .obj (Record.written c.slots) := by
  unfold toValue slots
  cases c.layout.isNull <;> rfl

/-- A config that is written within a nesting and reads back. -/
structure Readable (n : Nat) (c : Config) : Prop where
  inputs : ∀ f ∈ c.inputs, f.Readable n
  outputs : ∀ o ∈ c.outputs, o.Readable n
  layout : c.layout.Within (n + 2)
  nodup : (Assoc.keys c.mappings).Nodup
  mappings : ∀ p ∈ c.mappings, p.2.Words

/-- A config that moreover was read from what the schema accepts. -/
structure Sound (n : Nat) (c : Config) : Prop extends Readable n c where
  name : c.name ≠ ""
  workflowFile : c.workflowFile ≠ ""
  namedInputs : ∀ f ∈ c.inputs, f.Named
  namedOutputs : ∀ o ∈ c.outputs, o.id ≠ ""
  layoutKind : Schema.ObeysAll c.layout [.kinds [.array, .null, .object]]

private theorem nodup_names_slots (c : Config) : (c.slots.map Prod.fst).Nodup := by
  simp [slots]

private theorem get?_slots (c : Config) {name : String} {value : Option Value}
    (h : (Assoc.get? name c.slots).join = value) :
    Assoc.get? name (Record.written c.slots) = value :=
  (Record.get?_written c.nodup_names_slots name).trans h

variable {n : Nat} {c : Config}

theorem read_toValue (h : c.Readable n) : read c.toValue = .ok c := by
  have inputs := Record.items_map fun f hf => Field.read_toValue (h.inputs f hf)
  have outputs := Record.items_map fun o ho => Output.read_toValue (h.outputs o ho)
  have mappings := Record.entries_map fun p hp => Mapping.read_toValue (h.mappings p hp)
  have nodup : (Assoc.keys (Record.written c.slots)).Nodup :=
    c.nodup_names_slots.sublist (Record.keys_written_sublist c.slots)
  rw [toValue_eq]
  exact closed_eq_ok nodup <|
    .take (orElse (c.get?_slots rfl) rfl) <|
    .take (require (c.get?_slots rfl) rfl) <|
    .take (orElse (c.get?_slots rfl) rfl) <|
    .take (orElse (c.get?_slots rfl) rfl) <|
    .take (orElse (c.get?_slots rfl) rfl) <|
    .take (require (c.get?_slots rfl) rfl) <|
    .take (orElse (c.get?_slots rfl) inputs) <|
    .take (orElse (c.get?_slots rfl) outputs) <|
    .take (unlessNull (c.get?_slots rfl)) <|
    .take (orElse (c.get?_slots rfl) mappings) <|
    .rest rfl

private theorem within_mappings (room : 0 < n) (h : c.Readable n) :
    c.mappings.toValue.Within (n + 2) := by
  obtain ⟨k, rfl⟩ := Nat.exists_eq_succ_of_ne_zero room.ne'
  have keys : Assoc.keys (c.mappings.map fun p => (p.1, p.2.toValue)) = Assoc.keys c.mappings := by
    simp [Assoc.keys]
  refine Value.within_obj_iff.mpr ⟨keys ▸ h.nodup, fun p hp => ?_⟩
  obtain ⟨q, -, rfl⟩ := List.mem_map.mp hp
  exact q.2.within_toValue k

theorem within_toValue (room : 0 < n) (h : c.Readable n) : c.toValue.Within (n + 3) := by
  rw [toValue_eq]
  refine Value.within_obj_iff.mpr
    ⟨c.nodup_names_slots.sublist (Record.keys_written_sublist c.slots),
      Record.forall_mem_written ?_⟩
  have text (s : String) := Value.within_str (n + 2) s
  have inputs : (Value.arr (c.inputs.map Field.toValue)).Within (n + 2) := by
    refine Value.within_arr_iff.mpr fun v hv => ?_
    obtain ⟨f, hf, rfl⟩ := List.mem_map.mp hv
    exact Field.within_toValue room (h.inputs f hf)
  have outputs : (Value.arr (c.outputs.map Output.toValue)).Within (n + 2) := by
    refine Value.within_arr_iff.mpr fun v hv => ?_
    obtain ⟨o, ho, rfl⟩ := List.mem_map.mp hv
    exact Output.within_toValue (h.outputs o ho)
  simp only [slots, List.forall_mem_cons]
  refine ⟨Record.forall_some (text _), Record.forall_some (text _), Record.forall_some (text _),
    Record.forall_some (text _), Record.forall_some (text _), Record.forall_some (text _),
    Record.forall_some inputs, Record.forall_some outputs, ?_,
    Record.forall_some (within_mappings room h), fun _ h => absurd h List.not_mem_nil⟩
  intro v hv
  split at hv
  · exact nomatch hv
  · exact Option.some.inj hv ▸ h.layout

/-- No node id that the schema knows is null in what is written of the mappings. -/
def NamesNodes (c : Config) : Prop := ∀ p ∈ c.mappings, p.2.NamesNodes

instance (c : Config) : Decidable c.NamesNodes :=
  inferInstanceAs (Decidable (∀ p ∈ c.mappings, p.2.NamesNodes))

private theorem obeysAll_mappings_iff (h : c.Readable n) :
    Schema.ObeysAll c.mappings.toValue [.kinds [.object], .members Schema.mappingRules] ↔
      c.NamesNodes := by
  have each : ∀ p ∈ c.mappings,
      (Schema.ObeysAll p.2.toValue Schema.mappingRules ↔ p.2.NamesNodes) :=
    fun p hp => Mapping.obeysAll_toValue_iff (h.mappings p hp)
  simp only [Schema.ObeysAll, Schema.Obeys, Mappings.toValue, Value.obj.injEq, forall_eq']
  constructor
  · rintro ⟨-, obeys, -⟩ p hp
    exact (each p hp).mp (obeys _ (List.mem_map_of_mem hp))
  · intro named
    refine ⟨⟨.object, List.mem_singleton_self _, rfl⟩, fun q hq => ?_, trivial⟩
    obtain ⟨p, hp, rfl⟩ := List.mem_map.mp hq
    exact (each p hp).mpr (named p hp)

/-- What is written of a config obeys the schema exactly when no node id in its mappings is null:
nothing else that the program writes is refused. -/
theorem obeysAll_toValue_iff (h : c.Sound n) :
    Schema.ObeysAll c.toValue Schema.configRules ↔ c.NamesNodes := by
  have get? (name : String) : Assoc.get? name (Record.written c.slots) =
    (Assoc.get? name c.slots).join := c.get?_slots rfl
  rw [toValue_eq]
  constructor
  · intro obeys
    apply (obeysAll_mappings_iff h.toReadable).mp
    exact obeys.member ((get? "node_mapping").trans rfl) (.tail _ (.tail _ (.head _)))
      (by simp)
  · intro named
    refine ⟨⟨.object, List.mem_singleton_self _, rfl⟩, ?_, ?_, trivial⟩
    · rintro _ ⟨⟩
      simp only [List.forall_mem_cons, Assoc.contains, get?]
      exact ⟨rfl, rfl, rfl, fun _ h => absurd h List.not_mem_nil⟩
    · rintro _ ⟨⟩
      have text (s : String) := Schema.obeysAll_textRules s
      have name {s : String} (given : s ≠ "") := (Schema.obeysAll_nameRules_iff s).mpr given
      simp only [Schema.obeysNamed_iff, List.forall_mem_cons, get?]
      refine ⟨Record.forall_some (text _), Record.forall_some (name h.name),
        Record.forall_some ⟨⟨.string, by simp, rfl⟩, trivial⟩, Record.forall_some (text _),
        Record.forall_some (text _), Record.forall_some (name h.workflowFile),
        Record.forall_some ⟨⟨.array, by simp, rfl⟩, ?_, trivial⟩,
        Record.forall_some ⟨⟨.array, by simp, rfl⟩, ?_, trivial⟩, ?_,
        Record.forall_some ((obeysAll_mappings_iff h.toReadable).mpr named),
        fun _ h => absurd h List.not_mem_nil⟩
      · rintro _ ⟨⟩ v hv
        obtain ⟨f, hf, rfl⟩ := List.mem_map.mp hv
        exact Field.obeysAll_toValue (h.inputs f hf) (h.namedInputs f hf)
      · rintro _ ⟨⟩ v hv
        obtain ⟨o, ho, rfl⟩ := List.mem_map.mp hv
        exact Output.obeysAll_toValue (h.outputs o ho) (h.namedOutputs o ho)
      · intro v hv
        change (if c.layout.isNull then none else some c.layout) = some v at hv
        split at hv
        · cases hv
        · exact Option.some.inj hv ▸ h.layoutKind

/-- What a config takes from the document that it was read from, as far as reading it back asks. -/
structure ReadFrom (c : Config) (doc : Object) : Prop where
  name : nameSlot.require doc = .ok c.name
  workflowFile : workflowFileSlot.require doc = .ok c.workflowFile
  inputs : inputsSlot.listOr doc = .ok c.inputs
  outputs : outputsSlot.listOr doc = .ok c.outputs
  layout : layoutSlot.orElse .null doc = .ok c.layout
  mappings : mappingsSlot.listOr doc = .ok c.mappings

private theorem readFrom_of_read {v : Value} (h : read v = .ok c) :
    ∃ doc, Record.DocumentOf v doc ∧ c.ReadFrom doc := by
  obtain ⟨doc, source, made⟩ := Record.exists_of_closed h
  obtain ⟨id, -, made⟩ := Record.bind_eq_ok made
  obtain ⟨name, hname, made⟩ := Record.bind_eq_ok made
  obtain ⟨version, -, made⟩ := Record.bind_eq_ok made
  obtain ⟨description, -, made⟩ := Record.bind_eq_ok made
  obtain ⟨category, -, made⟩ := Record.bind_eq_ok made
  obtain ⟨workflowFile, hfile, made⟩ := Record.bind_eq_ok made
  obtain ⟨inputs, hinputs, made⟩ := Record.bind_eq_ok made
  obtain ⟨outputs, houtputs, made⟩ := Record.bind_eq_ok made
  obtain ⟨layout, hlayout, made⟩ := Record.bind_eq_ok made
  obtain ⟨mappings, hmappings, made⟩ := Record.bind_eq_ok made
  cases made
  exact ⟨doc, source, hname, hfile, hinputs, houtputs, hlayout, hmappings⟩

theorem readable_of_read {v : Value} (h : read v = .ok c) (room : 0 < n)
    (within : v.Within (n + 3)) : c.Readable n := by
  obtain ⟨doc, source, from_⟩ := readFrom_of_read h
  have inside {name : String} {w : Value} (there : Assoc.get? name doc = some w) :
      w.Within (n + 2) := source.within within _ (Assoc.mem_of_get? there)
  constructor
  case inputs =>
    refine Record.forall_of_listOr from_.inputs fun vs there v hv f made => ?_
    exact Field.readable_of_read made room (Value.within_arr_iff.mp (inside there) v hv)
  case outputs =>
    refine Record.forall_of_listOr from_.outputs fun vs there v hv o made => ?_
    exact Output.readable_of_read made (Value.within_arr_iff.mp (inside there) v hv)
  case layout =>
    rcases Record.get?_of_orElse from_.layout with ⟨-, none⟩ | ⟨w, there, hw⟩
    · exact none ▸ Value.within_null _
    · obtain same : w = c.layout := Except.ok.inj hw
      exact same ▸ inside there
  case nodup =>
    rcases Record.get?_of_orElse from_.mappings with ⟨-, none⟩ | ⟨w, there, hw⟩
    · exact none ▸ List.nodup_nil
    · obtain ⟨o, rfl, ho⟩ := Record.exists_of_table hw
      rw [Record.keys_of_entries ho]
      exact (Value.within_obj_iff.mp (inside there)).1
  case mappings =>
    rcases Record.get?_of_orElse from_.mappings with ⟨-, none⟩ | ⟨w, there, hw⟩
    · exact none ▸ fun _ hp => absurd hp List.not_mem_nil
    · obtain ⟨o, rfl, ho⟩ := Record.exists_of_table hw
      intro p hp
      obtain ⟨m, -, -, made⟩ := exists_of_mem_right (Record.forall₂_of_entries ho) hp
      exact Mapping.words_of_read made

theorem sound_of_read {v : Value} (h : read v = .ok c) (room : 0 < n)
    (within : v.Within (n + 3)) (obeys : Schema.ObeysAll v Schema.configRules) : c.Sound n := by
  obtain ⟨o, rfl⟩ := Schema.exists_obj_of_obeysAll obeys List.mem_cons_self
  obtain ⟨doc, source, from_⟩ := readFrom_of_read h
  obtain rfl := source.eq_of_obj
  constructor
  case toReadable => exact readable_of_read h room within
  case name =>
    exact Schema.ne_empty_of_require from_.name fun w there =>
      obeys.member there (.tail _ (.tail _ (.head _))) (by simp)
  case workflowFile =>
    exact Schema.ne_empty_of_require from_.workflowFile fun w there =>
      obeys.member there (.tail _ (.tail _ (.head _))) (by simp)
  case namedInputs =>
    refine Record.forall_of_listOr from_.inputs fun vs there v hv f made => ?_
    have rules : Schema.ObeysAll (.arr vs) [.kinds [.array], .items Schema.fieldRules] :=
      obeys.member there (.tail _ (.tail _ (.head _))) (by simp)
    exact Field.named_of_read made (rules.2.1 vs rfl v hv)
  case namedOutputs =>
    refine Record.forall_of_listOr from_.outputs fun vs there v hv o made => ?_
    have rules : Schema.ObeysAll (.arr vs) [.kinds [.array], .items Schema.outputRules] :=
      obeys.member there (.tail _ (.tail _ (.head _))) (by simp)
    exact Output.id_ne_empty made (rules.2.1 vs rfl v hv)
  case layoutKind =>
    rcases Record.get?_of_orElse from_.layout with ⟨-, none⟩ | ⟨w, there, hw⟩
    · exact none ▸ ⟨⟨.null, by simp, rfl⟩, trivial⟩
    · obtain same : w = c.layout := Except.ok.inj hw
      exact same ▸ obeys.member there (.tail _ (.tail _ (.head _))) (by simp)

end Config

end WorkflowGraph
