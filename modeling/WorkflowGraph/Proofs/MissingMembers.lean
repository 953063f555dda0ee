/- Reports of missing members: when a config document that they are about lacks one. -/

import WorkflowGraph.Proofs.Faults
import WorkflowGraph.Proofs.PrintedConfigs
import WorkflowGraph.Proofs.Wordings

set_option autoImplicit false
set_option relaxedAutoImplicit false

/-!
Each kind of record in a config document has members that it cannot do without. The readings follow
the nesting of the records, so that a member that a reading misses is one that some object in the
document lacks. A report of a missing member is made of the words of the fault, though, and words
that repeat a text of the document may read like one.
-/

namespace WorkflowGraph

/-- The records of a config document. -/
inductive RecordKind where
  | config
  | input
  | condition
  | output
  | mapping
  /-- The members of a mapping that names two loaders. -/
  | loaders
  /-- The members of a mapping that names an axis. -/
  | axis

namespace RecordKind

/-- The members that a record has to have, by their accepted names. -/
def required : RecordKind → List (List String)
  | config => [["name"], ["workflow_file"]]
  | input => [["id"], ["type"]]
  | condition => [["field"], ["value"]]
  | output => [["id"]]
  | mapping => [["action_type"]]
  | loaders => [["high_node_id", "high_noise_node_id"], ["low_node_id", "low_noise_node_id"]]
  | axis => [["node_id"], ["vector_key"]]

end RecordKind

/-- An object in a value that is read as a record lacks a member that is required there, under all
of its names. -/
inductive Lacks : RecordKind → Value → String → Prop
  | here {kind : RecordKind} {o : Object} {name : String} {others : List String} :
      name :: others ∈ kind.required → (∀ n ∈ name :: others, Assoc.get? n o = none) →
      Lacks kind (.obj o) name
  | input {o : Object} {items : List Value} {v : Value} {name : String} :
      Assoc.get? "inputs" o = some (.arr items) → v ∈ items → Lacks .input v name →
      Lacks .config (.obj o) name
  | output {o : Object} {items : List Value} {v : Value} {name : String} :
      Assoc.get? "outputs" o = some (.arr items) → v ∈ items → Lacks .output v name →
      Lacks .config (.obj o) name
  | mapping {o members : Object} {p : String × Value} {name : String} :
      Assoc.get? "node_mapping" o = some (.obj members) → p ∈ members → Lacks .mapping p.2 name →
      Lacks .config (.obj o) name
  | condition {o : Object} {v : Value} {name : String} :
      Assoc.get? "depends_on" o = some v → Lacks .condition v name → Lacks .input (.obj o) name
  | loaders {o : Object} {name : String} :
      Assoc.get? "action_type" o = some (.str "add_lora_pair") → Lacks .loaders (.obj o) name →
      Lacks .mapping (.obj o) name
  | axis {o : Object} {name : String} :
      Assoc.get? "action_type" o = some (.str "modify_vector_widget") → Lacks .axis (.obj o) name →
      Lacks .mapping (.obj o) name

def requiredNames : List String :=
  ["name", "workflow_file", "id", "type", "field", "value", "action_type", "high_node_id",
    "low_node_id", "node_id", "vector_key"]

private theorem Lacks.mem_requiredNames {kind : RecordKind} {v : Value} {name : String}
    (h : Lacks kind v name) : name ∈ requiredNames := by
  induction h with
  | @here kind o name others among absent =>
    have all : ∀ names ∈ kind.required, names.headD "" ∈ requiredNames := by
      cases kind <;> decide
    exact all _ among
  | input _ _ _ ih => exact ih
  | output _ _ _ ih => exact ih
  | mapping _ _ _ ih => exact ih
  | condition _ _ ih => exact ih
  | loaders _ _ ih => exact ih
  | axis _ _ ih => exact ih

open Record

private theorem lacks_name {α : Type} {s : Slot α} {kind : RecordKind} {doc : Object}
    (among : s.names ∈ kind.required) (named : s.names ≠ [])
    (absent : ∀ n ∈ s.names, Assoc.get? n doc = none) : Lacks kind (.obj doc) s.name := by
  obtain ⟨name, others, names⟩ := List.exists_cons_of_ne_nil named
  have first : s.name = name := by rw [Slot.name, names, List.headD_cons]
  rw [names] at among absent
  rw [first]
  exact .here among absent

variable (doc : Object)

namespace Dependency

private theorem accounts_read :
    Accounts (.obj doc) (Lacks .condition (.obj doc)) (read (.obj doc)) := by
  have field : fieldSlot.Accounted doc (Lacks .condition (.obj doc)) := .of_plain .text
  have value : valueSlot.Accounted doc (Lacks .condition (.obj doc)) := .of_plain .any
  apply Accounts.closed
  · simp only [List.forall_mem_cons]
    exact ⟨field.member, value.member, List.forall_mem_nil _⟩
  · refine .bind (.require field (lacks_name ?_ ?_)) fun _ =>
      .bind (.require value (lacks_name ?_ ?_)) fun _ => .ok _
    all_goals decide

end Dependency

namespace Binding

private theorem accounts_readMembers (lacks : String → Prop) :
    Accounts (.obj doc) lacks (readMembers doc) := by
  have id : idSlot.Accounted doc lacks := .of_plain (.nullable .nodeId)
  have ids : idsSlot.Accounted doc lacks := .of_plain (.list .nodeId)
  have field : fieldSlot.Accounted doc lacks := .of_plain (.nullable .text)
  have fields : fieldsSlot.Accounted doc lacks := .of_plain (.list .text)
  have indices : indicesSlot.Accounted doc lacks := .of_plain (.list .natural)
  refine .bind (.check ?_) fun _ => .bind (.orElse id _) fun _ => .bind (.orElse ids _) fun _ =>
    .bind (.orElse field _) fun _ => .bind (.orElse fields _) fun _ =>
    .bind (.orElse indices _) fun _ => .ok _
  simp only [List.forall_mem_cons]
  exact ⟨id.member, ids.member, field.member, fields.member, indices.member, List.forall_mem_nil _⟩

end Binding

namespace Field

private theorem accounted_dependsOn (rules : Schema.ObeysAll (.obj doc) Schema.fieldRules) :
    dependsOnSlot.Accounted doc (Lacks .input (.obj doc)) := by
  intro n hn w there
  obtain rfl := List.mem_singleton.mp hn
  have below : Schema.ObeysAll w Dependency.rules :=
    rules.member there (.tail _ (.tail _ (.head _))) (by simp [Dependency.rules])
  obtain ⟨d, rfl⟩ := Schema.exists_obj_of_obeysAll below List.mem_cons_self
  exact (Accounts.nullable (Dependency.accounts_read d)).mono
    (fun _ => .member (Assoc.mem_of_get? there)) fun _ => .condition there

private theorem accounts_read (rules : Schema.ObeysAll (.obj doc) Schema.fieldRules) :
    Accounts (.obj doc) (Lacks .input (.obj doc)) (read (.obj doc)) := by
  have plain {α : Type} (s : Slot α) (h : Plain s.read) :
      s.Accounted doc (Lacks .input (.obj doc)) := .of_plain h
  have dependsOn := accounted_dependsOn doc rules
  apply Accounts.open_
  · simp only [members, List.forall_mem_cons]
    exact ⟨(plain idSlot .text).member, (plain sectionSlot .text).member,
      (plain typeSlot (.enumeration _ _ _)).member, (plain labelSlot (.nullable .text)).member,
      (plain descriptionSlot .text).member, (plain requiredSlot .flag).member,
      (plain defaultSlot (.nullable .any)).member, (plain minSlot (.nullable .double)).member,
      (plain maxSlot (.nullable .double)).member, (plain stepSlot (.nullable .double)).member,
      (plain maxLengthSlot (.nullable .natural)).member,
      (plain maxItemsSlot (.nullable .natural)).member, (plain optionsSlot (.list .any)).member,
      dependsOn.member, (plain shapeSlot (.nullable (.enumeration _ _ _))).member,
      List.forall_mem_nil _⟩
  · refine .bind (.require (plain idSlot .text) (lacks_name ?_ ?_)) fun _ =>
      .bind (.orElse (plain sectionSlot .text) _) fun _ =>
      .bind (.require (plain typeSlot (.enumeration _ _ _)) (lacks_name ?_ ?_)) fun _ =>
      .bind (.orElse (plain labelSlot (.nullable .text)) _) fun _ =>
      .bind (.orElse (plain descriptionSlot .text) _) fun _ =>
      .bind (.orElse (plain requiredSlot .flag) _) fun _ =>
      .bind (.orElse (plain defaultSlot (.nullable .any)) _) fun _ =>
      .bind (.orElse (plain minSlot (.nullable .double)) _) fun _ =>
      .bind (.orElse (plain maxSlot (.nullable .double)) _) fun _ =>
      .bind (.orElse (plain stepSlot (.nullable .double)) _) fun _ =>
      .bind (.orElse (plain maxLengthSlot (.nullable .natural)) _) fun _ =>
      .bind (.orElse (plain maxItemsSlot (.nullable .natural)) _) fun _ =>
      .bind (.orElse (plain optionsSlot (.list .any)) _) fun _ =>
      .bind (.orElse dependsOn _) fun _ =>
      .bind (.orElse (plain shapeSlot (.nullable (.enumeration _ _ _))) _) fun _ =>
      .bind (Binding.accounts_readMembers doc _) fun _ => .ok _
    all_goals decide

end Field

namespace Output

private theorem accounts_read :
    Accounts (.obj doc) (Lacks .output (.obj doc)) (read (.obj doc)) := by
  have id : idSlot.Accounted doc (Lacks .output (.obj doc)) := .of_plain .text
  have type : typeSlot.Accounted doc (Lacks .output (.obj doc)) := .of_plain .text
  have label : labelSlot.Accounted doc (Lacks .output (.obj doc)) := .of_plain (.nullable .text)
  have node : nodeIdSlot.Accounted doc (Lacks .output (.obj doc)) := .of_plain (.nullable .nodeId)
  apply Accounts.open_
  · simp only [List.forall_mem_cons]
    exact ⟨id.member, type.member, label.member, node.member, List.forall_mem_nil _⟩
  · refine .bind (.require id (lacks_name ?_ ?_)) fun _ => .bind (.orElse type _) fun _ =>
      .bind (.orElse label _) fun _ => .bind (.orElse node _) fun _ => .ok _
    all_goals decide

end Output

private theorem WidgetMapping.accounts_read (lacks : String → Prop) :
    Accounts (.obj doc) lacks (read (.obj doc)) := by
  have id : idSlot.Accounted doc lacks := .of_plain (.nullable .nodeId)
  have ids : idsSlot.Accounted doc lacks := .of_plain (.list .nodeId)
  have indices : indicesSlot.Accounted doc lacks := .of_plain (.list .natural)
  have field : fieldSlot.Accounted doc lacks := .of_plain (.nullable .text)
  have fields : fieldsSlot.Accounted doc lacks := .of_plain (.list .text)
  have kind : kindSlot.Accounted doc lacks := .of_plain (.nullable .text)
  have high : highSlot.Accounted doc lacks := .of_plain (.nullable .nodeId)
  have low : lowSlot.Accounted doc lacks := .of_plain (.nullable .nodeId)
  apply Accounts.closed
  · simp only [List.forall_mem_cons]
    exact ⟨id.member, ids.member, indices.member, field.member, fields.member, kind.member,
      high.member, low.member, List.forall_mem_nil _⟩
  · exact .bind (.orElse id _) fun _ => .bind (.orElse ids _) fun _ =>
      .bind (.orElse indices _) fun _ => .bind (.orElse field _) fun _ =>
      .bind (.orElse fields _) fun _ => .bind (.orElse kind _) fun _ =>
      .bind (.orElse high _) fun _ => .bind (.orElse low _) fun _ => .ok _

private theorem ToggleMapping.accounts_read (lacks : String → Prop) :
    Accounts (.obj doc) lacks (read (.obj doc)) := by
  have id : idSlot.Accounted doc lacks := .of_plain (.nullable .nodeId)
  have ids : idsSlot.Accounted doc lacks := .of_plain (.list .nodeId)
  have enabled : enabledModeSlot.Accounted doc lacks := .of_plain .nodeMode
  have disabled : disabledModeSlot.Accounted doc lacks := .of_plain .nodeMode
  have save : saveSlot.Accounted doc lacks := .of_plain (.nullable .nodeId)
  apply Accounts.closed
  · simp only [List.forall_mem_cons]
    exact ⟨id.member, ids.member, enabled.member, disabled.member, save.member,
      List.forall_mem_nil _⟩
  · exact .bind (.orElse id _) fun _ => .bind (.orElse ids _) fun _ =>
      .bind (.orElse enabled _) fun _ => .bind (.orElse disabled _) fun _ =>
      .bind (.orElse save _) fun _ => .ok _

private theorem LoraMapping.accounts_read :
    Accounts (.obj doc) (Lacks .loaders (.obj doc)) (read (.obj doc)) := by
  have high : highSlot.Accounted doc (Lacks .loaders (.obj doc)) := .of_plain .nodeId
  have low : lowSlot.Accounted doc (Lacks .loaders (.obj doc)) := .of_plain .nodeId
  apply Accounts.closed
  · simp only [List.forall_mem_cons]
    exact ⟨high.member, low.member, List.forall_mem_nil _⟩
  · refine .bind (.require high (lacks_name ?_ ?_)) fun _ =>
      .bind (.require low (lacks_name ?_ ?_)) fun _ => .ok _
    all_goals decide

private theorem VectorMapping.accounts_read :
    Accounts (.obj doc) (Lacks .axis (.obj doc)) (read (.obj doc)) := by
  have id : idSlot.Accounted doc (Lacks .axis (.obj doc)) := .of_plain .nodeId
  have axis : axisSlot.Accounted doc (Lacks .axis (.obj doc)) :=
    .of_plain (.enumeration _ _ _)
  have indices : indicesSlot.Accounted doc (Lacks .axis (.obj doc)) := .of_plain (.list .natural)
  have kind : kindSlot.Accounted doc (Lacks .axis (.obj doc)) := .of_plain (.nullable .text)
  apply Accounts.closed
  · simp only [List.forall_mem_cons]
    exact ⟨id.member, axis.member, indices.member, kind.member, List.forall_mem_nil _⟩
  · refine .bind (.require id (lacks_name ?_ ?_)) fun _ =>
      .bind (.require axis (lacks_name ?_ ?_)) fun _ => .bind (.orElse indices _) fun _ =>
      .bind (.orElse kind _) fun _ => .ok _
    all_goals decide

private theorem lacks_of_erase {kind : RecordKind} (beside : kind = .loaders ∨ kind = .axis)
    {name : String} (h : Lacks kind (.obj (Assoc.erase "action_type" doc)) name) :
    Lacks kind (.obj doc) name := by
  have others : ∀ names ∈ kind.required, ∀ n ∈ names, n ≠ "action_type" := by
    rcases beside with rfl | rfl <;> decide
  cases h with
  | here among absent =>
    refine .here among fun n hn => ?_
    rw [← absent n hn, Assoc.get?_erase_of_ne (others _ among n hn)]
  | _ => exact absurd beside (by simp)

private theorem Mapping.accounts_read :
    Accounts (.obj doc) (Lacks .mapping (.obj doc)) (read (.obj doc)) := by
  apply Accounts.tagged
  · intro absent
    have among : ["action_type"] ∈ RecordKind.mapping.required := by decide
    exact .here among (by simpa using absent)
  · intro word read there chosen
    simp only [List.mem_cons, List.not_mem_nil, or_false, Prod.mk.injEq, Option.some.injEq]
      at chosen
    rcases chosen with (⟨rfl, rfl⟩ | ⟨rfl, rfl⟩ | ⟨rfl, rfl⟩ | ⟨rfl, rfl⟩) | rfl
    · exact (WidgetMapping.accounts_read _ _).map _
    · exact (ToggleMapping.accounts_read _ _).map _
    · apply ((LoraMapping.accounts_read _).map _).mono (fun _ => id)
      exact fun _ missed => .loaders there (lacks_of_erase doc (.inl rfl) missed)
    · apply ((VectorMapping.accounts_read _).map _).mono (fun _ => id)
      exact fun _ missed => .axis there (lacks_of_erase doc (.inr rfl) missed)
    · exact .ok _

namespace Config

private theorem accounted_version (rules : Schema.ObeysAll (.obj doc) Schema.configRules) :
    versionSlot.Accounted doc (Lacks .config (.obj doc)) := by
  intro n hn w there
  obtain rfl := List.mem_singleton.mp hn
  have below : Schema.ObeysAll w [.kinds [.number, .string]] :=
    rules.member there (.tail _ (.tail _ (.head _))) (by simp)
  cases w with
  | str s => exact .ok s
  | num n => exact .ok _
  | _ => simp [Schema.ObeysAll, Schema.Obeys, Schema.Kind.holds] at below

private theorem accounted_records {α : Type} {member : String} {below : List Schema.Rule}
    {kind : RecordKind} {readRecord : Reader α}
    (listed : ∀ w, Assoc.get? member doc = some w →
      Schema.ObeysAll w [.kinds [.array], .items below])
    (objects : Schema.Rule.kinds [.object] ∈ below)
    (record : ∀ o, Schema.ObeysAll (.obj o) below →
      Accounts (.obj o) (Lacks kind (.obj o)) (readRecord (.obj o)))
    (passedOn : ∀ vs v name, Assoc.get? member doc = some (.arr vs) → v ∈ vs →
      Lacks kind v name → Lacks .config (.obj doc) name) :
    (Slot.named member (Record.list readRecord)).Accounted doc (Lacks .config (.obj doc)) := by
  intro n hn w there
  obtain rfl := List.mem_singleton.mp hn
  have account : Accounts w (Lacks .config (.obj doc)) (Record.list readRecord w) := by
    apply Accounts.list
    rintro vs rfl v hv
    have each : Schema.ObeysAll v below := (listed _ there).2.1 vs rfl v hv
    obtain ⟨o, rfl⟩ := Schema.exists_obj_of_obeysAll each objects
    exact (record o each).mono (fun _ => .item hv) fun name => passedOn vs _ name there hv
  exact account.mono (fun _ => .member (Assoc.mem_of_get? there)) fun _ missed => missed

private theorem accounted_inputs (rules : Schema.ObeysAll (.obj doc) Schema.configRules) :
    inputsSlot.Accounted doc (Lacks .config (.obj doc)) := by
  have listed (w : Value) (there : Assoc.get? "inputs" doc = some w) :
      Schema.ObeysAll w [.kinds [.array], .items Schema.fieldRules] :=
    rules.member there (.tail _ (.tail _ (.head _))) (by simp)
  exact accounted_records doc listed List.mem_cons_self Field.accounts_read
    fun _ _ _ there hv => .input there hv

private theorem accounted_outputs (rules : Schema.ObeysAll (.obj doc) Schema.configRules) :
    outputsSlot.Accounted doc (Lacks .config (.obj doc)) := by
  have listed (w : Value) (there : Assoc.get? "outputs" doc = some w) :
      Schema.ObeysAll w [.kinds [.array], .items Schema.outputRules] :=
    rules.member there (.tail _ (.tail _ (.head _))) (by simp)
  exact accounted_records doc listed List.mem_cons_self (fun o _ => Output.accounts_read o)
    fun _ _ _ there hv => .output there hv

private theorem accounted_mappings (rules : Schema.ObeysAll (.obj doc) Schema.configRules) :
    mappingsSlot.Accounted doc (Lacks .config (.obj doc)) := by
  intro n hn w there
  obtain rfl := List.mem_singleton.mp hn
  have below : Schema.ObeysAll w [.kinds [.object], .members Schema.mappingRules] :=
    rules.member there (.tail _ (.tail _ (.head _))) (by simp)
  have account : Accounts w (Lacks .config (.obj doc)) (mappingsSlot.read w) := by
    apply Accounts.table
    rintro o rfl p hp
    have mapping : Schema.ObeysAll p.2 Schema.mappingRules := below.2.1 o rfl p hp
    obtain ⟨members, made⟩ := Schema.exists_obj_of_obeysAll mapping List.mem_cons_self
    have entry := Mapping.accounts_read members
    rw [← made] at entry
    exact entry.mono (fun _ => .member hp) fun _ => .mapping there hp
  exact account.mono (fun _ => .member (Assoc.mem_of_get? there)) fun _ missed => missed

private theorem accounts_read (rules : Schema.ObeysAll (.obj doc) Schema.configRules) :
    Accounts (.obj doc) (Lacks .config (.obj doc)) (read (.obj doc)) := by
  have plain {α : Type} (s : Slot α) (h : Plain s.read) :
      s.Accounted doc (Lacks .config (.obj doc)) := .of_plain h
  have version := accounted_version doc rules
  have inputs := accounted_inputs doc rules
  have outputs := accounted_outputs doc rules
  have mappings := accounted_mappings doc rules
  apply Accounts.closed
  · simp only [members, List.forall_mem_cons]
    exact ⟨(plain idSlot .text).member, (plain nameSlot .text).member, version.member,
      (plain descriptionSlot .text).member, (plain categorySlot .text).member,
      (plain workflowFileSlot .text).member, inputs.member, outputs.member,
      (plain layoutSlot .any).member, mappings.member, List.forall_mem_nil _⟩
  · refine .bind (.orElse (plain idSlot .text) _) fun _ =>
      .bind (.require (plain nameSlot .text) (lacks_name ?_ ?_)) fun _ =>
      .bind (.orElse version _) fun _ => .bind (.orElse (plain descriptionSlot .text) _) fun _ =>
      .bind (.orElse (plain categorySlot .text) _) fun _ =>
      .bind (.require (plain workflowFileSlot .text) (lacks_name ?_ ?_)) fun _ =>
      .bind (.orElse inputs _) fun _ => .bind (.orElse outputs _) fun _ =>
      .bind (.orElse (plain layoutSlot .any) _) fun _ => .bind (.orElse mappings _) fun _ => .ok _
    all_goals decide

end Config

private theorem Schema.obeysAll_of_accept {document : Value} (h : Schema.accept document = .ok ()) :
    Schema.ObeysAll document Schema.configRules := by
  rw [← Schema.violations_eq_nil_iff [] document]
  unfold Schema.accept at h
  split at h
  next none_found => exact none_found
  · cases h

/-- The words of a fault repeat a text of a document in which a name stands behind a mark. -/
def Fault.Misleads (document : Value) (name : String) : Fault → Prop
  | .invalidNodeId t => document.HasText t ∧ Marks t.toList name
  | .misplacedText t => document.HasText t ∧ Marks (Text.quoted t).toList name
  | .unknownWord t words => document.HasText t ∧
    Marks (t ++ ("`, expected one of `" ++ (Text.join "`, `" words ++ "`"))).toList name
  | _ => False

private theorem Fault.marks_message_iff {f : Fault} {document : Value} {lacks : String → Prop}
    (traced : f.Traced document lacks) (plain : ∀ member, lacks member → '`' ∉ member.toList)
    (name : String) :
    Marks f.message.toList name ↔
      (f = .missingMember name ∧ lacks name) ∨ f.Misleads document name := by
  cases f with
  | missingMember member =>
    rw [marks_missingMember_iff (plain member traced)]
    constructor
    · rintro rfl
      exact .inl ⟨rfl, traced⟩
    · rintro (⟨same, -⟩ | misled)
      · exact Fault.missingMember.inj same
      · exact misled.elim
  | invalidNodeId t =>
    rw [marks_invalidNodeId_iff]
    exact ⟨fun marked => .inr ⟨traced, marked⟩, fun h => (h.resolve_left (by simp)).2⟩
  | misplacedText t =>
    rw [marks_misplacedText_iff]
    exact ⟨fun marked => .inr ⟨traced, marked⟩, fun h => (h.resolve_left (by simp)).2⟩
  | unknownWord t words =>
    rw [marks_unknownWord_iff]
    exact ⟨fun marked => .inr ⟨traced, marked⟩, fun h => (h.resolve_left (by simp)).2⟩
  | invalidVersion found => exact traced.elim
  | unreadable =>
    constructor
    · intro marked
      exact absurd marked (not_marks_unreadable name)
    · rintro (⟨same, -⟩ | misled)
      · cases same
      · exact misled.elim

namespace Config

private theorem ofDocument_eq_missingField_iff {document : Value} {name : String} :
    ofDocument document = .error (.missingField name) ↔
      Schema.accept document = .ok () ∧
        ∃ fault, read document = .error fault ∧ fault.missingName? = some name := by
  rw [ofDocument, Schema.accept]
  cases Schema.configViolations document with
  | cons violation rest => simp [Bind.bind, Except.bind]
  | nil =>
    cases read document with
    | ok c => simp [Bind.bind, Except.bind, pure, Except.pure]
    | error fault =>
      cases named : fault.missingName? <;> simp [Bind.bind, Except.bind, named]

private theorem parse_eq_missingField_iff {text : String} {form : Notation} {name : String} :
    parse text form = .error (.missingField name) ↔
      Text.isBlankText text = false ∧ ∃ document, form.document text = .ok document ∧
        ofDocument document = .error (.missingField name) := by
  unfold parse
  cases Text.isBlankText text with
  | true => simp
  | false =>
    cases parsed : form.document text with
    | ok document => simp [Bind.bind, Except.bind]
    | error fault =>
      have syntactic : fault ≠ .missingField name := by
        rintro rfl
        cases form with
        | json =>
          rw [Notation.document] at parsed
          cases read : Json.parse? text <;> rw [read] at parsed <;> cases parsed
        | yaml =>
          rw [Notation.document] at parsed
          cases read : Yaml.parse? text <;> rw [read] at parsed <;> cases parsed
      simp [Bind.bind, Except.bind, syntactic]

/-- A config text is reported to miss a member just when its document obeys the schema and either
some object in it lacks the member, which the reading finds out, or the reading fails for another
reason and a text of the document that the fault repeats has the name behind a mark. -/
theorem missing_field_reported_iff {text : String} {form : Notation} {name : String} :
    parse text form = .error (.missingField name) ↔
      Text.isBlankText text = false ∧ ∃ document fault,
        form.document text = .ok document ∧ Schema.accept document = .ok () ∧
        read document = .error fault ∧
        ((fault = .missingMember name ∧ Lacks .config document name) ∨
          fault.Misleads document name) := by
  have plain : ∀ member ∈ requiredNames, '`' ∉ member.toList := by decide
  rw [parse_eq_missingField_iff]
  apply and_congr_right
  intro _
  apply exists_congr
  intro document
  rw [exists_and_left]
  apply and_congr_right
  intro _
  rw [ofDocument_eq_missingField_iff, exists_and_left]
  apply and_congr_right
  intro accepted
  apply exists_congr
  intro fault
  apply and_congr_right
  intro failed
  have rules := Schema.obeysAll_of_accept accepted
  obtain ⟨doc, rfl⟩ := Schema.exists_obj_of_obeysAll rules List.mem_cons_self
  rw [Fault.missingName?_eq_some_iff]
  exact Fault.marks_message_iff (accounts_read doc rules fault failed)
    (fun member missed => plain member missed.mem_requiredNames) name

/-- An input whose node id is a text with a mark in it. -/
def markedDocument : Value := .obj [
  ("name", .str "Demo"), ("workflow_file", .str "demo.json"),
  ("inputs", .arr [.obj [
    ("id", .str "a"), ("type", .str "text"), ("node_id", .str "missing field `seed`")]])]

/-- The node id spells no integer, and that is reported as a missing member that no record has. -/
theorem seed_reported_missing :
    Notation.json.document markedDocument.pretty = .ok markedDocument ∧
      read markedDocument = .error (.invalidNodeId "missing field `seed`") ∧
      ¬ Lacks .config markedDocument "seed" ∧
      parse markedDocument.pretty .json = .error (.missingField "seed") := by
  have within : markedDocument.Within 3 := by
    simp [markedDocument, Value.within_obj_iff, Value.within_arr_iff, Value.within_str]
  have shallow : markedDocument.depth ≤ Json.maxDepth := within.depth.trans (by decide)
  have survives : markedDocument.Survives := by decide
  have failed : read markedDocument = .error (.invalidNodeId "missing field `seed`") := rfl
  have marked : (Fault.invalidNodeId "missing field `seed`").missingName? = some "seed" := by
    decide +kernel
  refine ⟨?_, failed, fun missed => absurd missed.mem_requiredNames (by decide), ?_⟩
  · rw [Notation.document,
      (Json.parse?_pretty_eq_self_iff within.distinct).mpr ⟨shallow, survives⟩]
    rfl
  · have object : ∃ o, markedDocument = .obj o := ⟨_, rfl⟩
    rw [parse_pretty_of_survives object within.distinct survives shallow]
    exact ofDocument_eq_missingField_iff.mpr ⟨rfl, _, failed, marked⟩

end Config

end WorkflowGraph
