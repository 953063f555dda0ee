/- Documents of input fields and outputs: what is written of them reads as what they were. -/

import WorkflowGraph.Proofs.MappingDocuments

set_option autoImplicit false
set_option relaxedAutoImplicit false

/-!
A field leaves out the members that it has no value for. Whatever it was read from, it is written
as what reads as the field again: the values that are kept as they are have distinct keys and their
place within the nesting. For the schema to accept what is written, texts that may not be empty are
not, which the schema has made sure of if it has accepted what was read.
-/

namespace WorkflowGraph

theorem Record.DocumentOf.within {v : Value} {doc : Object} (h : DocumentOf v doc) {n : Nat}
    (inside : v.Within (n + 1)) : ∀ p ∈ doc, p.2.Within n := by
  rcases h with rfl | ⟨vs, rfl, items⟩
  · exact (Value.within_obj_iff.mp inside).2
  · exact fun p hp => Value.within_arr_iff.mp inside p.2 (items p hp)

private theorem Record.DocumentOf.pos {v : Value} {doc : Object} (h : DocumentOf v doc) {n : Nat}
    (inside : v.Within n) : 0 < n := by
  rcases h with rfl | ⟨vs, rfl, -⟩
  · exact Nat.lt_of_lt_of_le (Nat.succ_pos _) inside.depth
  · exact Nat.lt_of_lt_of_le (Nat.succ_pos _) inside.depth

theorem Record.DocumentOf.eq_of_obj {o doc : Object} (h : DocumentOf (.obj o) doc) : o = doc := by
  rcases h with same | ⟨vs, same, -⟩
  · exact Value.obj.inj same
  · exact nomatch same

theorem Schema.ne_empty_of_require {name s : String} {doc : Object}
    (h : (Record.Slot.named name Record.text).require doc = .ok s)
    (rules : ∀ w, Assoc.get? name doc = some w → ObeysAll w nameRules) : s ≠ "" := by
  obtain ⟨w, there, hw⟩ := Record.get?_of_require h
  obtain rfl := Record.str_of_text hw
  exact (obeysAll_nameRules_iff s).mp (rules _ there)

namespace FieldType

private theorem read_name (t : FieldType) : read (.str t.name) = .ok t := by
  cases t <;> rfl

private theorem name_ne_empty (t : FieldType) : t.name ≠ "" := by
  cases t <;> simp [name]

end FieldType

open Record.Assembles (checked_eq_ok closed_eq_ok open_eq_ok)
open Record.Slot.Yields (require orElse listOr optional unlessNull)

namespace Dependency

private theorem read_toValue (d : Dependency) : read d.toValue = .ok d :=
  closed_eq_ok (by simp) <| .take (require rfl rfl) <| .take (require rfl rfl) <| .rest rfl

def rules : List Schema.Rule := [
  .kinds [.object], .required ["field", "value"], .properties [("field", Schema.nameRules)]]

private theorem obeysAll_toValue (d : Dependency) (named : d.field ≠ "") :
    Schema.ObeysAll d.toValue rules := by
  have field := (Schema.obeysAll_nameRules_iff d.field).mpr named
  simp [toValue, rules, Schema.ObeysAll, Schema.Obeys, Schema.obeysNamed_iff, Schema.Kind.holds,
    Assoc.contains, Assoc.get?, field]

private theorem readFrom_of_read {v : Value} {d : Dependency} (h : read v = .ok d) :
    ∃ doc, Record.DocumentOf v doc ∧ fieldSlot.require doc = .ok d.field ∧
      valueSlot.require doc = .ok d.value := by
  obtain ⟨doc, source, made⟩ := Record.exists_of_closed h
  obtain ⟨field, hfield, made⟩ := Record.bind_eq_ok made
  obtain ⟨value, hvalue, made⟩ := Record.bind_eq_ok made
  cases made
  exact ⟨doc, source, hfield, hvalue⟩

private theorem field_ne_empty {v : Value} {d : Dependency} (h : read v = .ok d)
    (obeys : Schema.ObeysAll v rules) : d.field ≠ "" := by
  obtain ⟨o, rfl⟩ := Schema.exists_obj_of_obeysAll obeys List.mem_cons_self
  obtain ⟨doc, source, field, -⟩ := readFrom_of_read h
  obtain rfl := source.eq_of_obj
  exact Schema.ne_empty_of_require field fun w there =>
    obeys.member there (.tail _ (.tail _ (.head _))) (.head _)

private theorem within_toValue {v : Value} {d : Dependency} (h : read v = .ok d) {n : Nat}
    (within : v.Within n) : d.toValue.Within n := by
  obtain ⟨doc, source, -, value⟩ := readFrom_of_read h
  obtain ⟨w, there, hw⟩ := Record.get?_of_require value
  obtain rfl : w = d.value := Except.ok.inj hw
  obtain ⟨k, rfl⟩ := Nat.exists_eq_succ_of_ne_zero (source.pos within).ne'
  have inside := source.within within _ (Assoc.mem_of_get? there)
  refine Value.within_obj_iff.mpr ⟨by simp, ?_⟩
  simp only [List.forall_mem_cons]
  exact ⟨Value.within_str _ _, inside, fun _ h => absurd h List.not_mem_nil⟩

end Dependency

namespace Field

private theorem given_eq_written {α : Type} (name : String) (write : α → Value) (x? : Option α) :
    given name write x? = Record.written [(name, x?.map write)] := by
  cases x? <;> rfl

private theorem givenList_eq_written {α : Type} (name : String) (write : List α → Value)
    (xs : List α) :
    givenList name write xs = Record.written [(name, Record.unlessEmpty write xs)] := by
  cases xs <;> rfl

def slots (f : Field) : List (String × Option Value) := [
  ("id", some (.str f.id)), ("section", some (.str f.section_)), ("type", some (.str f.type.name)),
  ("label", f.label?.map .str),
  ("description", if f.description = "" then none else some (.str f.description)),
  ("required", some (.bool f.required)), ("default", f.default?.map fun v => v),
  ("min", f.min?.map .ofDouble), ("max", f.max?.map .ofDouble), ("step", f.step?.map .ofDouble),
  ("max_length", f.maxLength?.map .ofNat), ("max_items", f.maxItems?.map .ofNat),
  ("options", Record.unlessEmpty .arr f.options),
  ("depends_on", f.dependsOn?.map Dependency.toValue), ("shape", f.shape?.map fun s => .str s.name),
  ("node_id", f.binding.nodeId.map NodeId.toValue),
  ("node_ids", Record.unlessEmpty .ofNodeIds f.binding.nodeIds),
  ("field", f.binding.field.map .str), ("fields", Record.unlessEmpty .ofTexts f.binding.fields),
  ("widget_indices", Record.unlessEmpty .ofNats f.binding.indices)]

private theorem toValue_eq (f : Field) : f.toValue = .obj (Record.written f.slots) := by
  have description : (if f.description = "" then [] else [("description", .str f.description)]) =
      Record.written [("description",
        if f.description = "" then none else some (.str f.description))] := by
    split <;> rfl
  unfold toValue
  simp only [given_eq_written, givenList_eq_written, description]
  have first : [("id", Value.str f.id), ("section", .str f.section_),
    ("type", .str f.type.name)] = Record.written [("id", some (.str f.id)),
      ("section", some (.str f.section_)), ("type", some (.str f.type.name))] := rfl
  have required : [("required", Value.bool f.required)] =
    Record.written [("required", some (.bool f.required))] := rfl
  rw [first, required]
  simp only [← Record.written_append, List.cons_append, List.nil_append]
  rfl

/-- A field that is written within a nesting and reads back. -/
structure Readable (n : Nat) (f : Field) : Prop where
  default : ∀ v, f.default? = some v → v.isNull = false ∧ v.Within n
  maxLength : ∀ k, f.maxLength? = some k → InNat64 k
  maxItems : ∀ k, f.maxItems? = some k → InNat64 k
  options : (Value.arr f.options).Within n
  dependsOn : ∀ d, f.dependsOn? = some d → d.toValue.Within n
  indices : ∀ k ∈ f.binding.indices, InNat64 k

structure Named (f : Field) : Prop where
  id : f.id ≠ ""
  dependsOn : ∀ d, f.dependsOn? = some d → d.field ≠ ""

private theorem nodup_names_slots (f : Field) : (f.slots.map Prod.fst).Nodup := by
  simp [slots]

private theorem get?_slots (f : Field) {name : String} {value : Option Value}
    (h : (Assoc.get? name f.slots).join = value) :
    Assoc.get? name (Record.written f.slots) = value :=
  (Record.get?_written f.nodup_names_slots name).trans h

private theorem nodup_keys_slots (f : Field) : (Assoc.keys (Record.written f.slots)).Nodup :=
  f.nodup_names_slots.sublist (Record.keys_written_sublist f.slots)

private theorem readMembers_slots {f : Field} (words : ∀ k ∈ f.binding.indices, InNat64 k) :
    Binding.readMembers (Record.written f.slots) = .ok f.binding :=
  checked_eq_ok f.nodup_keys_slots <|
    .take (optional (f.get?_slots rfl) fun id _ => Record.nullable_nodeId id) <|
    .take (listOr (f.get?_slots rfl) (Record.list_ofNodeIds _)) <|
    .take (optional (f.get?_slots rfl) fun s _ => Record.nullable_text s) <|
    .take (listOr (f.get?_slots rfl) (Record.list_ofTexts _)) <|
    .take (listOr (f.get?_slots rfl) (Record.list_ofNats words)) <|
    .rest rfl

theorem read_toValue {n : Nat} {f : Field} (h : f.Readable n) : read f.toValue = .ok f := by
  have description : descriptionSlot.Yields (Record.written f.slots)
      (descriptionSlot.orElse "" (Record.written f.slots)) f.description := by
    have found : Assoc.get? "description" (Record.written f.slots) =
      if f.description = "" then none else some (.str f.description) := f.get?_slots rfl
    by_cases empty : f.description = ""
    · rw [if_pos empty] at found
      rw [empty]
      exact .default found
    · rw [if_neg empty] at found
      exact orElse found rfl
  have double (d : Double) : Record.nullable Record.double (.ofDouble d) = .ok (some d) := rfl
  rw [toValue_eq]
  exact open_eq_ok f.nodup_keys_slots <|
    .take (require (f.get?_slots rfl) rfl) <|
    .take (orElse (f.get?_slots rfl) rfl) <|
    .take (require (f.get?_slots rfl) f.type.read_name) <|
    .take (optional (f.get?_slots rfl) fun s _ => Record.nullable_text s) <|
    .take description <|
    .take (orElse (f.get?_slots rfl) rfl) <|
    .take (optional (f.get?_slots rfl) fun v hv => Record.nullable_of_some (h.default v hv).1 rfl) <|
    .take (optional (f.get?_slots rfl) fun d _ => double d) <|
    .take (optional (f.get?_slots rfl) fun d _ => double d) <|
    .take (optional (f.get?_slots rfl) fun d _ => double d) <|
    .take (optional (f.get?_slots rfl) fun k hk => Record.nullable_word (h.maxLength k hk)) <|
    .take (optional (f.get?_slots rfl) fun k hk => Record.nullable_word (h.maxItems k hk)) <|
    .take (listOr (f.get?_slots rfl) (Record.items_any f.options)) <|
    .take (optional (f.get?_slots rfl) fun d _ => Record.nullable_of_some rfl d.read_toValue) <|
    .take (optional (f.get?_slots rfl) fun s _ => by cases s <;> rfl) <|
    .rest (by rw [readMembers_slots h.indices]; rfl)

theorem within_toValue {n : Nat} (room : 0 < n) {f : Field} (h : f.Readable n) :
    f.toValue.Within (n + 1) := by
  obtain ⟨k, rfl⟩ := Nat.exists_eq_succ_of_ne_zero room.ne'
  rw [toValue_eq]
  refine Value.within_obj_iff.mpr ⟨f.nodup_keys_slots, Record.forall_mem_written ?_⟩
  have text (s : String) := Value.within_str (k + 1) s
  have number (d : Double) := Value.within_num (k + 1) (.double d)
  simp only [slots, List.forall_mem_cons]
  refine ⟨Record.forall_some (text _), Record.forall_some (text _), Record.forall_some (text _),
    Record.forall_map fun _ _ => text _, ?_, Record.forall_some (Value.within_bool _ _),
    Record.forall_map fun v hv => (h.default v hv).2, Record.forall_map fun _ _ => number _,
    Record.forall_map fun _ _ => number _, Record.forall_map fun _ _ => number _,
    Record.forall_map fun _ _ => Value.within_ofNat _ _,
    Record.forall_map fun _ _ => Value.within_ofNat _ _, Record.forall_unlessEmpty h.options,
    Record.forall_map h.dependsOn, Record.forall_map fun _ _ => text _,
    Record.forall_map fun _ _ => Value.within_num _ _,
    Record.forall_unlessEmpty (Value.within_ofNodeIds k _), Record.forall_map fun _ _ => text _,
    Record.forall_unlessEmpty (Value.within_ofTexts k _),
    Record.forall_unlessEmpty (Value.within_ofNats k _), fun _ h => absurd h List.not_mem_nil⟩
  intro v hv
  split at hv
  · exact nomatch hv
  · exact Option.some.inj hv ▸ text _

theorem obeysAll_toValue {n : Nat} {f : Field} (h : f.Readable n) (named : f.Named) :
    Schema.ObeysAll f.toValue Schema.fieldRules := by
  have get? (name : String) : Assoc.get? name (Record.written f.slots) =
    (Assoc.get? name f.slots).join := f.get?_slots rfl
  have name {s : String} (given : s ≠ "") := (Schema.obeysAll_nameRules_iff s).mpr given
  rw [toValue_eq]
  refine ⟨⟨.object, List.mem_singleton_self _, rfl⟩, ?_, ?_, trivial⟩
  · rintro _ ⟨⟩
    simp only [List.forall_mem_cons, Assoc.contains, get?]
    exact ⟨rfl, rfl, fun _ h => absurd h List.not_mem_nil⟩
  · rintro _ ⟨⟩
    simp only [Schema.obeysNamed_iff, List.forall_mem_cons, get?]
    refine ⟨Record.forall_some (name named.id), Record.forall_some (name f.type.name_ne_empty),
      Record.forall_some (Schema.obeysAll_textRules _),
      Record.forall_map fun _ _ => Schema.obeysAll_textRules _,
      Record.forall_some (Schema.obeysAll_kind rfl),
      Record.forall_map fun _ _ => Schema.obeysAll_kind rfl,
      Record.forall_map fun _ _ => Schema.obeysAll_kind rfl,
      Record.forall_map fun _ _ => Schema.obeysAll_kind rfl,
      Record.forall_map fun k hk => Schema.obeysAll_countRules (h.maxLength k hk),
      Record.forall_map fun k hk => Schema.obeysAll_countRules (h.maxItems k hk),
      Record.forall_unlessEmpty (Schema.obeysAll_kind rfl), ?_,
      Record.forall_map fun _ _ => Schema.obeysAll_nodeIdRules _,
      Record.forall_unlessEmpty (Schema.obeysAll_nodeIdsRules _),
      Record.forall_unlessEmpty (Schema.obeysAll_indicesRules h.indices),
      Record.forall_map fun d hd => d.obeysAll_toValue (named.dependsOn d hd),
      fun _ h => absurd h List.not_mem_nil⟩
    refine Record.forall_map fun s _ => ⟨⟨s.name, ?_, rfl⟩, trivial⟩
    cases s <;> simp [Shape.name]

/-- What a field takes from the document that it was read from, as far as reading it back asks. -/
structure ReadFrom (f : Field) (doc : Object) : Prop where
  id : idSlot.require doc = .ok f.id
  default : defaultSlot.optional doc = .ok f.default?
  maxLength : maxLengthSlot.optional doc = .ok f.maxLength?
  maxItems : maxItemsSlot.optional doc = .ok f.maxItems?
  options : optionsSlot.listOr doc = .ok f.options
  dependsOn : dependsOnSlot.optional doc = .ok f.dependsOn?
  indices : Binding.indicesSlot.listOr doc = .ok f.binding.indices

private theorem indices_of_readMembers {doc : Object} {b : Binding}
    (h : Binding.readMembers doc = .ok b) :
    Binding.indicesSlot.listOr doc = .ok b.indices := by
  obtain ⟨_, -, made⟩ := Record.bind_eq_ok h
  obtain ⟨nodeId, -, made⟩ := Record.bind_eq_ok made
  obtain ⟨nodeIds, -, made⟩ := Record.bind_eq_ok made
  obtain ⟨field, -, made⟩ := Record.bind_eq_ok made
  obtain ⟨fields, -, made⟩ := Record.bind_eq_ok made
  obtain ⟨indices, hindices, made⟩ := Record.bind_eq_ok made
  cases made
  exact hindices

private theorem readFrom_of_read {v : Value} {f : Field} (h : read v = .ok f) :
    ∃ doc, v = .obj doc ∧ f.ReadFrom doc := by
  obtain ⟨doc, rfl, made⟩ := Record.exists_of_open h
  obtain ⟨id, hid, made⟩ := Record.bind_eq_ok made
  obtain ⟨section_, -, made⟩ := Record.bind_eq_ok made
  obtain ⟨type, -, made⟩ := Record.bind_eq_ok made
  obtain ⟨label?, -, made⟩ := Record.bind_eq_ok made
  obtain ⟨description, -, made⟩ := Record.bind_eq_ok made
  obtain ⟨required, -, made⟩ := Record.bind_eq_ok made
  obtain ⟨default?, hdefault, made⟩ := Record.bind_eq_ok made
  obtain ⟨min?, -, made⟩ := Record.bind_eq_ok made
  obtain ⟨max?, -, made⟩ := Record.bind_eq_ok made
  obtain ⟨step?, -, made⟩ := Record.bind_eq_ok made
  obtain ⟨maxLength?, hmaxLength, made⟩ := Record.bind_eq_ok made
  obtain ⟨maxItems?, hmaxItems, made⟩ := Record.bind_eq_ok made
  obtain ⟨options, hoptions, made⟩ := Record.bind_eq_ok made
  obtain ⟨dependsOn?, hdependsOn, made⟩ := Record.bind_eq_ok made
  obtain ⟨shape?, -, made⟩ := Record.bind_eq_ok made
  obtain ⟨binding, hbinding, made⟩ := Record.bind_eq_ok made
  cases made
  exact ⟨doc, rfl, hid, hdefault, hmaxLength, hmaxItems, hoptions, hdependsOn,
    indices_of_readMembers hbinding⟩

theorem readable_of_read {v : Value} {f : Field} (h : read v = .ok f) {n : Nat} (room : 0 < n)
    (within : v.Within (n + 1)) : f.Readable n := by
  obtain ⟨doc, rfl, from_⟩ := readFrom_of_read h
  have inside {name : String} {w : Value} (there : Assoc.get? name doc = some w) : w.Within n :=
    (Value.within_obj_iff.mp within).2 _ (Assoc.mem_of_get? there)
  constructor
  case default =>
    intro v given
    obtain ⟨w, there, notNull, hw⟩ := Record.get?_of_optional (given ▸ from_.default)
    obtain rfl : w = v := Except.ok.inj hw
    exact ⟨notNull, inside there⟩
  case maxLength =>
    intro k given
    obtain ⟨w, -, -, hw⟩ := Record.get?_of_optional (given ▸ from_.maxLength)
    exact Record.word_of_natural hw
  case maxItems =>
    intro k given
    obtain ⟨w, -, -, hw⟩ := Record.get?_of_optional (given ▸ from_.maxItems)
    exact Record.word_of_natural hw
  case options =>
    rcases Record.get?_of_orElse from_.options with ⟨-, none⟩ | ⟨w, there, hw⟩
    · rw [none]
      exact ⟨trivial, room⟩
    · obtain ⟨vs, rfl, hvs⟩ := Record.exists_of_list hw
      obtain same : vs = f.options := Except.ok.inj ((Record.items_any vs).symm.trans hvs)
      exact same ▸ inside there
  case dependsOn =>
    intro d given
    obtain ⟨w, there, -, hw⟩ := Record.get?_of_optional (given ▸ from_.dependsOn)
    exact Dependency.within_toValue hw (inside there)
  case indices => exact Record.words_of_listOr from_.indices

theorem named_of_read {v : Value} {f : Field} (h : read v = .ok f)
    (obeys : Schema.ObeysAll v Schema.fieldRules) : f.Named := by
  obtain ⟨doc, rfl, from_⟩ := readFrom_of_read h
  constructor
  case id =>
    exact Schema.ne_empty_of_require from_.id fun w there =>
      obeys.member there (.tail _ (.tail _ (.head _))) (.head _)
  case dependsOn =>
    intro d given
    obtain ⟨w, there, -, hw⟩ := Record.get?_of_optional (given ▸ from_.dependsOn)
    have rules : Schema.ObeysAll w Dependency.rules :=
      obeys.member there (.tail _ (.tail _ (.head _))) (by simp [Dependency.rules])
    exact Dependency.field_ne_empty hw rules

end Field

namespace Output

def slots (o : Output) : List (String × Option Value) := [
  ("id", some (.str o.id)), ("type", some (.str o.type)), ("label", o.label?.map .str),
  ("node_id", o.nodeId.map NodeId.toValue)]

private theorem toValue_eq (o : Output) : o.toValue = .obj (Record.written o.slots ++ o.extra) := by
  unfold toValue
  simp only [Field.given_eq_written]
  have first : [("id", Value.str o.id), ("type", .str o.type)] =
    Record.written [("id", some (.str o.id)), ("type", some (.str o.type))] := rfl
  rw [first]
  simp only [← Record.written_append, List.cons_append, List.nil_append]
  rfl

private theorem keys_slots_sublist (o : Output) :
    (Assoc.keys (Record.written o.slots)).Sublist names := Record.keys_written_sublist o.slots

/-- An output that is written within a nesting and reads back. -/
structure Readable (n : Nat) (o : Output) : Prop where
  extras : Record.Extras names o.extra
  within : ∀ p ∈ o.extra, p.2.Within n

variable {n : Nat} {o : Output}

private theorem get?_slots (extras : Record.Extras names o.extra) {name : String}
    (known : name ∈ names) {value : Option Value} (h : (Assoc.get? name o.slots).join = value) :
    Assoc.get? name (Record.written o.slots ++ o.extra) = value := by
  rw [extras.get?_append_of_mem known, ← h]
  exact Record.get?_written (by simp [slots]) name

theorem read_toValue (h : o.Readable n) : read o.toValue = .ok o := by
  have find {name : String} (known : name ∈ names) {value : Option Value}
      (slot : (Assoc.get? name o.slots).join = value) := get?_slots h.extras known slot
  have whole : { o with
      extra := (Record.written o.slots ++ o.extra).filter fun p => p.1 ∉ names } = o := by
    rw [h.extras.filter_append o.keys_slots_sublist]
  rw [toValue_eq]
  exact open_eq_ok (h.extras.nodup_append o.keys_slots_sublist (by decide)) <|
    .take (require (find (by decide) rfl) rfl) <|
    .take (orElse (find (by decide) rfl) rfl) <|
    .take (optional (find (by decide) rfl) fun s _ => Record.nullable_text s) <|
    .take (optional (find (by decide) rfl) fun id _ => Record.nullable_nodeId id) <|
    .rest (congrArg Except.ok whole)

theorem within_toValue (h : o.Readable n) : o.toValue.Within (n + 1) := by
  rw [toValue_eq]
  have known : ∀ p ∈ Record.written o.slots, p.2.Within n := by
    apply Record.forall_mem_written
    simp only [slots, List.forall_mem_cons]
    exact ⟨Record.forall_some (Value.within_str _ _), Record.forall_some (Value.within_str _ _),
      Record.forall_map fun _ _ => Value.within_str _ _,
      Record.forall_map fun _ _ => Value.within_num _ _, fun _ h => absurd h List.not_mem_nil⟩
  refine Value.within_obj_iff.mpr
    ⟨h.extras.nodup_append o.keys_slots_sublist (by decide), fun p hp => ?_⟩
  exact (List.mem_append.mp hp).elim (known p) (h.within p)

theorem obeysAll_toValue (h : o.Readable n) (id : o.id ≠ "") :
    Schema.ObeysAll o.toValue Schema.outputRules := by
  have there : Assoc.get? "id" (Record.written o.slots ++ o.extra) = some (.str o.id) :=
    get?_slots h.extras (by decide) rfl
  have named := (Schema.obeysAll_nameRules_iff o.id).mpr id
  rw [toValue_eq]
  simp [Schema.outputRules, Schema.ObeysAll, Schema.Obeys, Schema.obeysNamed_iff,
    Schema.Kind.holds, Assoc.contains, there, named]

private theorem readFrom_of_read {v : Value} (h : read v = .ok o) :
    ∃ doc, v = .obj doc ∧ idSlot.require doc = .ok o.id ∧
      o.extra = doc.filter fun p => p.1 ∉ names := by
  obtain ⟨doc, rfl, made⟩ := Record.exists_of_open h
  obtain ⟨id, hid, made⟩ := Record.bind_eq_ok made
  obtain ⟨type, -, made⟩ := Record.bind_eq_ok made
  obtain ⟨label?, -, made⟩ := Record.bind_eq_ok made
  obtain ⟨nodeId, -, made⟩ := Record.bind_eq_ok made
  cases made
  exact ⟨doc, rfl, hid, rfl⟩

theorem readable_of_read {v : Value} (h : read v = .ok o) (within : v.Within (n + 1)) :
    o.Readable n := by
  obtain ⟨doc, rfl, -, extra⟩ := readFrom_of_read h
  obtain ⟨nodup, inside⟩ := Value.within_obj_iff.mp within
  constructor
  case extras => exact extra ▸ .filter nodup
  case within => exact extra ▸ fun p hp => inside p (List.mem_filter.mp hp).1

theorem id_ne_empty {v : Value} (h : read v = .ok o)
    (obeys : Schema.ObeysAll v Schema.outputRules) : o.id ≠ "" := by
  obtain ⟨doc, rfl, id, -⟩ := readFrom_of_read h
  exact Schema.ne_empty_of_require id fun w there =>
    obeys.member there (.tail _ (.tail _ (.head _))) (.head _)

end Output

end WorkflowGraph
