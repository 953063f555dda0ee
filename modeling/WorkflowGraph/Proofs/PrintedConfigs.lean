/- Printed configs: when what is shown of a config is a document of the same config. -/

import WorkflowGraph.Proofs.Bindings

set_option autoImplicit false
set_option relaxedAutoImplicit false

namespace WorkflowGraph

namespace Config

theorem ofDocument_eq_ok_iff {v : Value} {c : Config} :
    ofDocument v = .ok c ↔
      Schema.ObeysAll v Schema.configRules ∧ ∃ c', read v = .ok c' ∧ c'.bind = c := by
  have rules : Schema.configViolations v = [] ↔ Schema.ObeysAll v Schema.configRules :=
    Schema.violations_eq_nil_iff [] v Schema.configRules
  rw [← rules, ofDocument, Schema.accept]
  cases Schema.configViolations v with
  | cons violation rest => simp [Bind.bind, Except.bind]
  | nil =>
    cases read v with
    | ok c' => simp [Bind.bind, Except.bind, pure, Except.pure]
    | error fault =>
      cases named : fault.missingName? <;> simp [Bind.bind, Except.bind, named]

theorem exists_of_parse {text : String} {form : Notation} {c : Config}
    (h : parse text form = .ok c) : ∃ v, form.document text = .ok v ∧ ofDocument v = .ok c := by
  unfold parse at h
  split at h
  · exact nomatch h
  · cases read : form.document text with
    | error fault =>
      rw [read] at h
      exact nomatch h
    | ok v =>
      rw [read] at h
      exact ⟨v, rfl, h⟩

private theorem not_isBlankText_pretty {v : Value} (object : ∃ o, v = .obj o) :
    Text.isBlankText v.pretty = false := by
  obtain ⟨o, rfl⟩ := object
  rw [Text.isBlankText, Value.pretty, String.toList_ofList]
  rcases o with _ | ⟨⟨k, w⟩, o⟩ <;> rfl

private theorem parse_pretty {v : Value} (object : ∃ o, v = .obj o) (distinct : v.Distinct) :
    parse v.pretty .json =
      (if v.depth ≤ Json.maxDepth then v.reread? else none).elim (.error .json) ofDocument := by
  rw [parse, not_isBlankText_pretty object, if_neg Bool.false_ne_true, Notation.document,
    Json.parse?_pretty distinct]
  cases if v.depth ≤ Json.maxDepth then v.reread? else none with
  | none => rfl
  | some w => rfl

theorem parse_pretty_of_survives {v : Value} (object : ∃ o, v = .obj o) (distinct : v.Distinct)
    (survives : v.Survives) (shallow : v.depth ≤ Json.maxDepth) :
    parse v.pretty .json = ofDocument v := by
  rw [parse_pretty object distinct, if_pos shallow, Value.reread?_eq_self_iff.mpr survives,
    Option.elim_some]

theorem exists_ok_of_any {ε α : Type} {r : Except ε α} {P : α → Bool}
    (h : r.toOption.any P = true) : ∃ x, r = .ok x ∧ P x = true := by
  cases r with
  | error fault => exact nomatch h
  | ok x => exact ⟨x, rfl, h⟩

theorem exists_parse_pretty {v : Value} (object : ∃ o, v = .obj o) (distinct : v.Distinct)
    (survives : v.Survives) (shallow : v.depth ≤ Json.maxDepth) {P : Config → Bool}
    (accepted : (ofDocument v).toOption.any P = true) :
    ∃ c, parse v.pretty .json = .ok c ∧ P c = true := by
  rw [parse_pretty_of_survives object distinct survives shallow]
  exact exists_ok_of_any accepted

variable {c : Config}

private theorem ofDocument_toValue_eq_ok_iff {n : Nat} (h : c.Sound n) (bound : c.bind = c)
    (c' : Config) : ofDocument c.toValue = .ok c' ↔ c.NamesNodes ∧ c' = c := by
  rw [ofDocument_eq_ok_iff, obeysAll_toValue_iff h, read_toValue h.toReadable]
  constructor
  · rintro ⟨named, d, hd, rfl⟩
    obtain rfl : c = d := Except.ok.inj hd
    exact ⟨named, bound⟩
  · rintro ⟨named, rfl⟩
    exact ⟨named, c', rfl, bound⟩

/-- What a text gives is sound, bound, and nested no deeper than its document, given room for what
every config has. -/
theorem sound_of_parse {text : String} {form : Notation} (h : parse text form = .ok c) :
    ∃ n v, form.document text = .ok v ∧ 0 < n ∧ n + 3 = max 4 v.depth ∧ c.Sound n ∧ c.bind = c := by
  obtain ⟨v, document, accepted⟩ := exists_of_parse h
  obtain ⟨obeys, c', read, rfl⟩ := ofDocument_eq_ok_iff.mp accepted
  have size : (max 4 v.depth - 3) + 3 = max 4 v.depth := by omega
  have within : v.Within (max 4 v.depth - 3 + 3) :=
    ⟨Notation.distinct_of_document document, by omega⟩
  have room : 0 < max 4 v.depth - 3 := by omega
  exact ⟨_, v, document, room, size, (sound_of_read read room within obeys).bind, bind_bind c'⟩

private theorem parse_printed {text : String} {form : Notation} (parsed : parse text form = .ok c) :
    parse c.toValue.pretty .json = (if c.toValue.depth ≤ Json.maxDepth then c.toValue.reread?
      else none).elim (.error .json) ofDocument := by
  obtain ⟨n, v, -, room, -, sound, -⟩ := sound_of_parse parsed
  exact parse_pretty ⟨_, c.toValue_eq⟩ (within_toValue room sound.toReadable).distinct

private theorem parse_printed_eq_ok_iff {text : String} {form : Notation}
    (parsed : parse text form = .ok c) (survives : c.toValue.Survives) (c' : Config) :
    parse c.toValue.pretty .json = .ok c' ↔
      (c.NamesNodes ∧ c.toValue.depth ≤ Json.maxDepth) ∧ c' = c := by
  obtain ⟨n, v, -, -, -, sound, bound⟩ := sound_of_parse parsed
  rw [parse_printed parsed]
  by_cases fits : c.toValue.depth ≤ Json.maxDepth
  · rw [if_pos fits, Value.reread?_eq_self_iff.mpr survives, Option.elim_some,
      ofDocument_toValue_eq_ok_iff sound bound]
    tauto
  · rw [if_neg fits, Option.elim_none]
    exact iff_of_false nofun fun h => fits h.1.2

private theorem depth_le_of_parse_json {text : String} (parsed : parse text .json = .ok c) :
    c.toValue.depth ≤ Json.maxDepth := by
  obtain ⟨n, v, document, room, size, sound, -⟩ := sound_of_parse parsed
  have fits := (Json.fits_of_parse? (Notation.parse?_of_document document)).depth
  have depth := (within_toValue room sound.toReadable).depth
  have limit : 4 ≤ Json.maxDepth := by decide
  omega

/-- What is printed of a config is a document of it in which the numbers are what their texts read
as. Where this changes none, the document is one of this very config exactly when no node id in it
is null and, if the config came from YAML, the values that it keeps are nested no more deeply than
JSON texts may be; and it is never one of another config. -/
theorem printed_reads_back_iff {text : String} {form : Notation} (parsed : parse text form = .ok c) :
    parse c.toValue.pretty .json = (if c.toValue.depth ≤ Json.maxDepth then c.toValue.reread?
      else none).elim (.error .json) ofDocument ∧
    (c.toValue.Survives →
      (parse c.toValue.pretty .json = .ok c ↔
        c.NamesNodes ∧ (form = .yaml → c.toValue.depth ≤ Json.maxDepth)) ∧
      ∀ c', parse c.toValue.pretty .json = .ok c' → c' = c) := by
  refine ⟨parse_printed parsed, fun survives => ?_⟩
  have reads := parse_printed_eq_ok_iff parsed survives
  refine ⟨?_, fun c' h => ((reads c').mp h).2⟩
  rw [reads c]
  cases form with
  | json => simp [depth_le_of_parse_json parsed]
  | yaml => simp

def scaleDocument (nodes : List (String × Nat)) : Value := .obj [
  ("name", .str "Scale"), ("workflow_file", .str "scale.json"), ("inputs", .arr []),
  ("node_mapping", .obj [("cfg", .obj (("action_type", .str "modify_widget") ::
    ("widget_indices", .ofNats [0]) :: nodes.map fun p => (p.1, .ofNat p.2)))])]

private theorem within_scaleDocument {nodes : List (String × Nat)}
    (nodup : ("action_type" :: "widget_indices" :: Assoc.keys nodes).Nodup) :
    (scaleDocument nodes).Within 4 := by
  have numbers : ∀ p ∈ nodes.map fun p => (p.1, Value.ofNat p.2), p.2.Within 1 := by
    intro p hp
    obtain ⟨q, -, rfl⟩ := List.mem_map.mp hp
    dsimp only
    exact Value.within_ofNat 1 q.2
  have keys : Assoc.keys (nodes.map fun p => (p.1, Value.ofNat p.2)) = Assoc.keys nodes := by
    simp [Assoc.keys]
  have mapping : (Value.obj (("action_type", .str "modify_widget") ::
      ("widget_indices", .ofNats [0]) :: nodes.map fun p => (p.1, .ofNat p.2))).Within 2 := by
    simp only [Value.within_obj_iff, List.forall_mem_cons, Assoc.keys_cons, keys]
    exact ⟨nodup, Value.within_str _ _, Value.within_ofNats _ _, numbers⟩
  have mappings : (Value.obj [("cfg", .obj (("action_type", .str "modify_widget") ::
      ("widget_indices", .ofNats [0]) :: nodes.map fun p => (p.1, .ofNat p.2)))]).Within 3 :=
    Value.within_obj_iff.mpr ⟨by simp, by simpa using mapping⟩
  have inputs : (Value.arr []).Within 3 := by simp [Value.within_arr_iff]
  refine Value.within_obj_iff.mpr ⟨by simp, ?_⟩
  simp only [List.forall_mem_cons]
  exact ⟨Value.within_str _ _, Value.within_str _ _, inputs, mappings,
    fun _ h => absurd h List.not_mem_nil⟩

private theorem exists_parse_scaleDocument (nodes : List (String × Nat))
    (nodup : ("action_type" :: "widget_indices" :: Assoc.keys nodes).Nodup)
    (survives : (scaleDocument nodes).Survives) {P : Config → Bool}
    (accepted : (ofDocument (scaleDocument nodes)).toOption.any P = true) :
    ∃ c, parse (scaleDocument nodes).pretty .json = .ok c ∧ P c = true := by
  have within := within_scaleDocument nodup
  have limit : 4 ≤ Json.maxDepth := by decide
  exact exists_parse_pretty ⟨_, rfl⟩ within.distinct survives (within.depth.trans limit) accepted

theorem printed_with_pair_reads_back :
    let text := (scaleDocument [("node_id", 7), ("high_node_id", 8), ("low_node_id", 9)]).pretty
    ∃ c, parse text .json = .ok c ∧ c.mappings.length = 1 ∧
      parse c.toValue.pretty .json = .ok c := by
  obtain ⟨c, parsed, facts⟩ := exists_parse_scaleDocument
    [("node_id", 7), ("high_node_id", 8), ("low_node_id", 9)]
    (P := fun c => c.mappings.length = 1 ∧ c.NamesNodes ∧ c.toValue.Survives) (by decide)
    (by decide +kernel) (by decide +kernel)
  obtain ⟨one, named, survives⟩ := of_decide_eq_true facts
  have exactly := (printed_reads_back_iff parsed).2 survives
  exact ⟨c, parsed, one, exactly.1.mpr ⟨named, nofun⟩⟩

/-- A mapping to a single node is printed with null for the nodes of a model pair, and the schema
refuses this. -/
theorem printed_without_pair_refused :
    let text := (scaleDocument [("node_id", 7)]).pretty
    ∃ c, parse text .json = .ok c ∧ ∀ c', parse c.toValue.pretty .json ≠ .ok c' := by
  obtain ⟨c, parsed, facts⟩ := exists_parse_scaleDocument [("node_id", 7)]
    (P := fun c => ¬c.NamesNodes ∧ c.toValue.Survives) (by decide) (by decide +kernel)
    (by decide +kernel)
  obtain ⟨unnamed, survives⟩ := of_decide_eq_true facts
  have reads := parse_printed_eq_ok_iff parsed survives
  exact ⟨c, parsed, fun c' read => unnamed ((reads c').mp read).1.1⟩

end Config

end WorkflowGraph
