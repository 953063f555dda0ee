/- Documents of nodes: what is written of a node that was read, and that it reads as the node. -/

import WorkflowGraph.Proofs.Records

set_option autoImplicit false
set_option relaxedAutoImplicit false

/-!
A node that was read is written as its document in a settled form: its id is an integer, a member
with a default is there, and a member that says nothing is left out. What is written of a node whose
extras stand under foreign names reads as that node.
-/

namespace WorkflowGraph

open Record.Assembles (open_eq_ok)
open Record.Slot.Yields (require orElse unlessNull)

/-- The document of an id in its settled form: a text becomes the integer that it spells. -/
def NodeId.settled : Value → Value
  | .str s => (int64OfText? (Text.trimChars s.toList)).elim (.str s) Value.ofInt
  | v => v

private theorem NodeId.toValue_of_ofInt? {i : Int} {id : NodeId} (h : ofInt? i = some id) :
    id.toValue = Value.ofInt i := by
  unfold ofInt? at h
  split at h
  · cases h
    rw [toValue, Value.ofInt_of_fits]
  · cases h

private theorem NodeId.settled_of_read {v : Value} {id : NodeId} (h : read v = .ok id) :
    settled v = id.toValue := by
  cases v with
  | num n =>
    cases n with
    | double d => cases h
    | int i fits =>
      by_cases small : InInt64 i
      · have value : (Number.int i fits).int64?.bind ofInt? = some ⟨i, small⟩ := by
          simp [Number.int64?, small, ofInt?]
        simp only [read, value] at h
        cases h
        rfl
      · simp [read, Number.int64?, small] at h
  | str s =>
    cases spelled : int64OfText? (Text.trimChars s.toList) with
    | none => simp [read, spelled] at h
    | some i =>
      cases hid : ofInt? i with
      | none => simp [read, spelled, hid] at h
      | some id' =>
        obtain rfl : id' = id := by simpa [read, spelled, hid] using h
        rw [settled, spelled]
        exact (toValue_of_ofInt? hid).symm
  | _ => cases h

private theorem NodeMode.toValue_of_read {v : Value} {m : NodeMode} (h : read v = .ok m) :
    v = m.toValue := by
  rw [read_eq] at h
  obtain ⟨n, hn, h⟩ := Record.bind_eq_ok h
  by_cases small : n < 256
  · rw [dif_pos small] at h
    cases h
    exact Record.toValue_of_natural hn
  · rw [dif_neg small] at h
    exact nomatch h

namespace Node

def known (n : Node) : Object :=
  [("id", n.id.toValue), ("type", .str n.kind), ("mode", n.mode.toValue)] ++
    (if n.widgets.isNull then [] else [("widgets_values", n.widgets)]) ++
    (match n.properties with | some p => [("properties", .obj p)] | none => [])

private theorem toValue_eq (n : Node) : n.toValue = .obj (n.known ++ n.extra) := rfl

private theorem get?_widgets_known (n : Node) :
    Assoc.get? "widgets_values" n.known = if n.widgets.isNull then none else some n.widgets := by
  unfold known
  cases n.properties <;> cases n.widgets.isNull <;> simp [Assoc.get?]

private theorem get?_properties_known (n : Node) :
    Assoc.get? "properties" n.known = n.properties.map Value.obj := by
  unfold known
  cases n.properties <;> cases n.widgets.isNull <;> simp [Assoc.get?]

private theorem keys_known_sublist (n : Node) : (Assoc.keys n.known).Sublist names := by
  unfold known
  cases n.properties <;> cases n.widgets.isNull <;> simp [Assoc.keys, names]

private theorem nodup_names : names.Nodup := by decide

/-- What reading a node says of its document. -/
structure ReadFrom (n : Node) (doc : Object) : Prop where
  id : idSlot.require doc = .ok n.id
  kind : kindSlot.require doc = .ok n.kind
  mode : modeSlot.orElse NodeMode.enabled doc = .ok n.mode
  widgets : widgetsSlot.orElse .null doc = .ok n.widgets
  properties : propertiesSlot.orElse none doc = .ok n.properties
  extra : n.extra = doc.filter fun p => p.1 ∉ names

private theorem readFrom_of_read {v : Value} {n : Node} (h : read v = .ok n) :
    ∃ doc, v = .obj doc ∧ n.ReadFrom doc := by
  obtain ⟨doc, rfl, made⟩ := Record.exists_of_open h
  obtain ⟨id, hid, made⟩ := Record.bind_eq_ok made
  obtain ⟨kind, hkind, made⟩ := Record.bind_eq_ok made
  obtain ⟨mode, hmode, made⟩ := Record.bind_eq_ok made
  obtain ⟨widgets, hwidgets, made⟩ := Record.bind_eq_ok made
  obtain ⟨properties, hproperties, made⟩ := Record.bind_eq_ok made
  cases made
  exact ⟨doc, rfl, hid, hkind, hmode, hwidgets, hproperties, rfl⟩

theorem read_toValue {n : Node} (extras : Record.Extras names n.extra) :
    read n.toValue = .ok n := by
  have find : ∀ k ∈ names, Assoc.get? k (n.known ++ n.extra) = Assoc.get? k n.known :=
    fun k hk => extras.get?_append_of_mem hk
  have whole : { n with extra := (n.known ++ n.extra).filter fun p => p.1 ∉ names } = n := by
    rw [extras.filter_append n.keys_known_sublist]
  have properties : propertiesSlot.Yields (n.known ++ n.extra)
      (propertiesSlot.orElse none (n.known ++ n.extra)) n.properties := by
    have found := (find "properties" (by decide)).trans n.get?_properties_known
    cases hp : n.properties with
    | none =>
      rw [hp] at found
      exact .default found
    | some p =>
      rw [hp] at found
      exact orElse found rfl
  exact open_eq_ok (extras.nodup_append n.keys_known_sublist nodup_names) <|
    .take (require (find "id" (by decide)) n.id.read_toValue) <|
    .take (require (find "type" (by decide)) rfl) <|
    .take (orElse (find "mode" (by decide)) n.mode.read_toValue) <|
    .take (unlessNull ((find "widgets_values" (by decide)).trans n.get?_widgets_known)) <|
    .take properties <|
    .rest (congrArg Except.ok whole)

def settledMember (name : String) (v : Value) : Option Value :=
  if name = "id" then some (NodeId.settled v)
  else if (name = "widgets_values" ∨ name = "properties") ∧ v.isNull then none
  else some v

/-- The members of a node that are written even where the document leaves them out. -/
def defaults : Object := [("mode", .ofNat 0)]

def settled : Value → Value
  | .obj doc => .obj (Record.settle settledMember defaults doc)
  | v => v

private theorem ReadFrom.get?_known {n : Node} {doc : Object} (h : n.ReadFrom doc)
    (nodup : (Assoc.keys doc).Nodup) {k : String} (hk : k ∈ names) :
    Assoc.get? k n.known = Assoc.get? k (Record.settle settledMember defaults doc) := by
  have named : k = "id" ∨ k = "type" ∨ k = "mode" ∨ k = "widgets_values" ∨ k = "properties" := by
    simpa [names] using hk
  rw [Record.get?_settle nodup]
  rcases named with rfl | rfl | rfl | rfl | rfl
  · obtain ⟨v, there, hv⟩ := Record.get?_of_require h.id
    rw [there]
    exact congrArg some (NodeId.settled_of_read hv).symm
  · obtain ⟨v, there, hv⟩ := Record.get?_of_require h.kind
    rw [there, Record.str_of_text hv]
    rfl
  · have written : Assoc.get? "mode" n.known = some n.mode.toValue := rfl
    rcases Record.get?_of_orElse h.mode with ⟨absent, enabled⟩ | ⟨v, there, hv⟩
    · rw [absent, written, enabled]
      rfl
    · simp [there, written, NodeMode.toValue_of_read hv, settledMember]
  · rw [get?_widgets_known]
    rcases Record.get?_of_orElse h.widgets with ⟨absent, null⟩ | ⟨v, there, hv⟩
    · rw [absent, null]
      rfl
    · obtain rfl : v = n.widgets := Except.ok.inj hv
      simp [there, settledMember]
  · rw [get?_properties_known]
    rcases Record.get?_of_orElse h.properties with ⟨absent, none⟩ | ⟨v, there, hv⟩
    · rw [absent, none]
      rfl
    · rw [there, Record.ofOption_of_nullable_object hv]
      cases n.properties <;> rfl

private theorem settledMember_of_not_mem {k : String} (hk : k ∉ names) (v : Value) :
    settledMember k v = some v := by
  simp only [names, List.mem_cons, List.not_mem_nil, or_false, not_or] at hk
  simp [settledMember, hk]

theorem alike_settled {v : Value} {n : Node} (h : read v = .ok n) (distinct : v.Distinct) :
    n.toValue.Alike (settled v) := by
  obtain ⟨doc, rfl, made⟩ := readFrom_of_read h
  have nodup : (Assoc.keys doc).Nodup := distinct.1
  rw [toValue_eq, settled, made.extra]
  apply Value.alike_of_perm
  exact Record.Extras.perm_settle nodup nodup_names n.keys_known_sublist (by decide)
    (fun k hk => made.get?_known nodup hk) fun k hk => settledMember_of_not_mem hk

theorem extras_of_read {v : Value} {n : Node} (h : read v = .ok n) (distinct : v.Distinct) :
    Record.Extras names n.extra := by
  obtain ⟨doc, rfl, made⟩ := readFrom_of_read h
  exact made.extra ▸ .filter distinct.1

/-- The id of a node and what is not interpreted of it. -/
def uninterpreted (v : Value) : Option Value × Object :=
  ((v.member? "id").map NodeId.settled, Record.foreign names v)

theorem uninterpreted_of_read {v : Value} {n : Node} (h : read v = .ok n) :
    uninterpreted v = (some n.id.toValue, n.extra) := by
  obtain ⟨doc, rfl, made⟩ := readFrom_of_read h
  obtain ⟨w, there, hw⟩ := Record.get?_of_require made.id
  rw [uninterpreted, Value.member?, there, Option.map_some, NodeId.settled_of_read hw, made.extra]
  rfl

end Node

namespace ApiNode

def known (n : ApiNode) : Object := [("class_type", .str n.kind), ("inputs", .obj n.inputs)]

private theorem toValue_eq (n : ApiNode) : n.toValue = .obj (n.known ++ n.extra) := rfl

/-- What reading a keyed node says of its document. -/
structure ReadFrom (n : ApiNode) (doc : Object) : Prop where
  kind : kindSlot.require doc = .ok n.kind
  inputs : inputsSlot.orElse [] doc = .ok n.inputs
  extra : n.extra = doc.filter fun p => p.1 ∉ names

private theorem readFrom_of_read {v : Value} {n : ApiNode} (h : read v = .ok n) :
    ∃ doc, v = .obj doc ∧ n.ReadFrom doc := by
  obtain ⟨doc, rfl, made⟩ := Record.exists_of_open h
  obtain ⟨kind, hkind, made⟩ := Record.bind_eq_ok made
  obtain ⟨inputs, hinputs, made⟩ := Record.bind_eq_ok made
  cases made
  exact ⟨doc, rfl, hkind, hinputs, rfl⟩

theorem read_toValue {n : ApiNode} (extras : Record.Extras names n.extra) :
    read n.toValue = .ok n := by
  have find : ∀ k ∈ names, Assoc.get? k (n.known ++ n.extra) = Assoc.get? k n.known :=
    fun k hk => extras.get?_append_of_mem hk
  have sub : (Assoc.keys n.known).Sublist names := .refl names
  have whole : { n with extra := (n.known ++ n.extra).filter fun p => p.1 ∉ names } = n := by
    rw [extras.filter_append sub]
  exact open_eq_ok (extras.nodup_append sub (by decide)) <|
    .take (require (find "class_type" (by decide)) rfl) <|
    .take (orElse (find "inputs" (by decide)) rfl) <|
    .rest (congrArg Except.ok whole)

def defaults : Object := [("inputs", .obj [])]

def settled : Value → Value
  | .obj doc => .obj (Record.settle (fun _ => some) defaults doc)
  | v => v

private theorem ReadFrom.get?_known {n : ApiNode} {doc : Object} (h : n.ReadFrom doc)
    (nodup : (Assoc.keys doc).Nodup) {k : String} (hk : k ∈ names) :
    Assoc.get? k n.known = Assoc.get? k (Record.settle (fun _ => some) defaults doc) := by
  have named : k = "class_type" ∨ k = "inputs" := by simpa [names] using hk
  rw [Record.get?_settle nodup]
  rcases named with rfl | rfl
  · obtain ⟨v, there, hv⟩ := Record.get?_of_require h.kind
    rw [there, Record.str_of_text hv]
    rfl
  · rcases Record.get?_of_orElse h.inputs with ⟨absent, empty⟩ | ⟨v, there, hv⟩
    · rw [absent, known, empty]
      rfl
    · rw [there, Record.obj_of_object hv]
      rfl

theorem alike_settled {v : Value} {n : ApiNode} (h : read v = .ok n) (distinct : v.Distinct) :
    n.toValue.Alike (settled v) := by
  obtain ⟨doc, rfl, made⟩ := readFrom_of_read h
  have nodup : (Assoc.keys doc).Nodup := distinct.1
  rw [toValue_eq, settled, made.extra]
  apply Value.alike_of_perm
  exact Record.Extras.perm_settle nodup (by decide) (.refl names) (by decide)
    (fun k hk => made.get?_known nodup hk) fun _ _ _ => rfl

theorem extras_of_read {v : Value} {n : ApiNode} (h : read v = .ok n) (distinct : v.Distinct) :
    Record.Extras names n.extra := by
  obtain ⟨doc, rfl, made⟩ := readFrom_of_read h
  exact made.extra ▸ .filter distinct.1

/-- The key of a node and what is not interpreted of it. -/
def uninterpreted (m : String × Value) : Option Value × Object :=
  (some (.str m.1), Record.foreign names m.2)

theorem uninterpreted_of_read {m : String × Value} {p : String × ApiNode} (key : m.1 = p.1)
    (h : read m.2 = .ok p.2) : uninterpreted m = (some (.str p.1), p.2.extra) := by
  obtain ⟨doc, there, made⟩ := readFrom_of_read h
  rw [uninterpreted, key, there, made.extra]
  rfl

end ApiNode

end WorkflowGraph
