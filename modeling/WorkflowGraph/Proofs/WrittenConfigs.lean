/- Written configs: what a config is written as reads as this very config. -/

import WorkflowGraph.Proofs.PrintedConfigs

set_option autoImplicit false
set_option relaxedAutoImplicit false

/-!
Writing goes back on nothing that reading has made of a document. Other names of a member, numbers
for a version, names of alternatives that are not known and positions in a list are all read as what
has one way of being written, and that way is read again without the schema.
-/

namespace WorkflowGraph

namespace Config

variable {c : Config}

theorem exists_readable_of_read {v : Value} (distinct : v.Distinct) (h : read v = .ok c) :
    ∃ n, 0 < n ∧ c.Readable n := by
  have within : v.Within (v.depth + 1 + 3) := ⟨distinct, by omega⟩
  exact ⟨v.depth + 1, Nat.succ_pos _, readable_of_read h (Nat.succ_pos _) within⟩

private theorem exists_readable_of_parse {text : String} {form : Notation}
    (h : parse text form = .ok c) :
    ∃ n, 0 < n ∧ c.Readable n := by
  obtain ⟨v, document, accepted⟩ := exists_of_parse h
  obtain ⟨-, c', read, rfl⟩ := ofDocument_eq_ok_iff.mp accepted
  obtain ⟨n, room, readable⟩ :=
    exists_readable_of_read (Notation.distinct_of_document document) read
  exact ⟨n, room, readable.bind⟩

/-- A config is written as a value in which no object has a key twice, and which reads as the very
config: one read from any value, and one parsed from any text and bound. -/
theorem written_reads_back :
    (∀ (v : Value) (c : Config), v.Distinct → read v = .ok c →
      c.toValue.Distinct ∧ read c.toValue = .ok c) ∧
    ∀ (text : String) (form : Notation) (c : Config), parse text form = .ok c →
      c.toValue.Distinct ∧ read c.toValue = .ok c := by
  have back : ∀ c : Config, (∃ n, 0 < n ∧ c.Readable n) →
      c.toValue.Distinct ∧ read c.toValue = .ok c := by
    rintro c ⟨n, room, readable⟩
    exact ⟨(within_toValue room readable).distinct, read_toValue readable⟩
  constructor
  · intro v c distinct h
    exact back c (exists_readable_of_read distinct h)
  · intro text form c h
    exact back c (exists_readable_of_parse h)

def paintingDocument : Value := .obj [
  ("name", .str "Painting"), ("version", .ofNat 2),
  ("workflow_file", .str "painting.json"),
  ("inputs", .arr [.obj [("id", .str "brush"), ("type", .str "dial"), ("default", .null),
    ("min", .ofNat 1), ("node_id", .str " 7 "), ("field", .str "size")]]),
  ("outputs", .arr [.obj [("format", .str "png"), ("id", .str "image")]]),
  ("node_mapping", .obj [
    ("glow", .obj [("action_type", .str "blur"), ("radius", .str "wide")]),
    ("offset", .obj [("vector_key", .str "X"), ("node_id", .str "5"),
      ("action_type", .str "modify_vector_widget")]),
    ("save", .obj [("action_type", .str "toggle_node_mode"), ("node_id", .str "4"),
      ("save_node", .str "9")])])]

theorem painting_reads_back : paintingDocument.Distinct ∧
    (∃ c, read paintingDocument = .ok c ∧ c.version = "2" ∧
      Assoc.keys c.mappings = ["glow", "offset", "save"] ∧ read c.toValue = .ok c) ∧
    ∃ c, parse paintingDocument.pretty .json = .ok c ∧ c.version = "2" ∧
      read c.toValue = .ok c := by
  have within : paintingDocument.Within 4 := by
    simp [paintingDocument, Value.within_obj_iff, Value.within_arr_iff, Value.within_str,
      Value.within_ofNat, Value.within_null]
  have distinct := within.distinct
  refine ⟨distinct, ?_, ?_⟩
  · have accepted : (read paintingDocument).toOption.any (fun c => c.version = "2" ∧
        Assoc.keys c.mappings = ["glow", "offset", "save"]) = true := by decide +kernel
    obtain ⟨c, made, facts⟩ := exists_ok_of_any accepted
    obtain ⟨version, keys⟩ := of_decide_eq_true facts
    exact ⟨c, made, version, keys, (written_reads_back.1 _ c distinct made).2⟩
  · obtain ⟨c, parsed, version⟩ := exists_parse_pretty ⟨_, rfl⟩ distinct
      (by decide +kernel) (by decide) (P := fun c => c.version = "2") (by decide +kernel)
    exact ⟨c, parsed, of_decide_eq_true version, (written_reads_back.2 _ _ c parsed).2⟩

end Config

end WorkflowGraph
