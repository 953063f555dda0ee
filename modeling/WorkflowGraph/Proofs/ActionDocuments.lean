/- Documents of actions: what is written of an action reads as the action. -/

import WorkflowGraph.CommandLine.Run
import WorkflowGraph.Proofs.ActionBlocks
import WorkflowGraph.Proofs.MappingDocuments

set_option autoImplicit false
set_option relaxedAutoImplicit false

/-!
Null stands for an axis that is not written, so an action that wrote null to an axis would not read
back, and neither would one with a position beyond 64 bits. No document reads as such an action, and
no compilation makes one: what actions write is what was supplied, which is never null. So the
actions listed of a generation lead from the template to the same graph.
-/

namespace WorkflowGraph

namespace Record

private theorem nullable_ofVariant? (variant : Option NoiseVariant) :
    nullable (enumeration NoiseVariant.choices none saysNothing)
      (.ofText? (variant.map NoiseVariant.name)) = .ok variant := by
  cases variant with
  | none => rfl
  | some half => cases half <;> rfl

private theorem present_ofOption {v? : Option Value} (given : ∀ v ∈ v?, v.isNull = false) :
    present (.ofOption v?) = .ok v? := by
  cases v? with
  | none => rfl
  | some v => exact nullable_of_some (given v rfl) rfl

private theorem given_of_present {name : String} {doc : Object} {v? : Option Value}
    (h : (Slot.named name present).optional doc = .ok v?) : ∀ v ∈ v?, v.isNull = false := by
  rintro v rfl
  obtain ⟨u, -, given, same⟩ := get?_of_optional h
  cases same
  exact given

end Record

private theorem Action.nodup_keys_toValue (a : Action) :
    (Assoc.keys (("action", .str a.kind) :: a.members)).Nodup := by
  cases a <;> simp [members]

private theorem Action.nodup_keys_members (a : Action) : (Assoc.keys a.members).Nodup :=
  (List.nodup_cons.mp a.nodup_keys_toValue).2

open Record.Assembles (closed_eq_ok)
open Record.Slot.Yields (require orElse)

namespace WidgetWrite

private theorem read_members {w : WidgetWrite} (words : ∀ n ∈ w.indices, InNat64 n) :
    read (.obj (Action.modifyWidget w).members) = .ok w :=
  closed_eq_ok (Action.modifyWidget w).nodup_keys_members <|
    .take (require rfl w.nodeId.read_toValue) <|
    .take (orElse rfl (Record.list_ofNats words)) <|
    .take (orElse rfl (Record.list_ofTexts w.names)) <|
    .take (require rfl rfl) <|
    .take (orElse rfl (Record.nullable_ofText? w.nodeKind)) <|
    .rest rfl

private theorem words_of_read {v : Value} {w : WidgetWrite} (h : read v = .ok w) :
    ∀ n ∈ w.indices, InNat64 n := by
  obtain ⟨doc, -, made⟩ := Record.exists_of_closed h
  obtain ⟨_, -, made⟩ := Record.bind_eq_ok made
  obtain ⟨indices, hindices, made⟩ := Record.bind_eq_ok made
  obtain ⟨_, -, made⟩ := Record.bind_eq_ok made
  obtain ⟨_, -, made⟩ := Record.bind_eq_ok made
  obtain ⟨_, -, made⟩ := Record.bind_eq_ok made
  cases made
  exact Record.words_of_listOr hindices

end WidgetWrite

namespace ModeToggle

private theorem read_members (t : ModeToggle) : read (.obj (Action.toggleMode t).members) = .ok t :=
  closed_eq_ok (Action.toggleMode t).nodup_keys_members <|
    .take (require rfl (Record.list_ofNodeIds t.nodeIds)) <|
    .take (require rfl rfl) <|
    .take (require rfl t.enabledMode.read_toValue) <|
    .take (require rfl t.disabledMode.read_toValue) <|
    .take (orElse rfl (Record.nullable_ofNodeId? t.saveNodeId)) <|
    .rest rfl

end ModeToggle

namespace LoraEntry

private theorem read_members (l : LoraEntry) : read (.obj (Action.addLora l).members) = .ok l :=
  closed_eq_ok (Action.addLora l).nodup_keys_members <|
    .take (require rfl l.highNodeId.read_toValue) <|
    .take (require rfl l.lowNodeId.read_toValue) <|
    .take (require rfl rfl) <|
    .take (require rfl rfl) <|
    .take (require rfl rfl) <|
    .take (orElse rfl (Record.nullable_ofVariant? l.variant)) <|
    .rest rfl

end LoraEntry

/-- The values of both axes have a property, and all positions are numbers of 64 bits. -/
structure VectorWrite.Carries (P : Value → Prop) (w : VectorWrite) : Prop where
  x : ∀ v ∈ w.x, P v
  y : ∀ v ∈ w.y, P v
  xIndices : ∀ n ∈ w.xIndices, InNat64 n
  yIndices : ∀ n ∈ w.yIndices, InNat64 n

def VectorWrite.Readable (w : VectorWrite) : Prop := w.Carries fun v => v.isNull = false

namespace VectorWrite

private theorem read_members {w : VectorWrite} (h : w.Readable) :
    read (.obj (Action.modifyVector w).members) = .ok w :=
  closed_eq_ok (Action.modifyVector w).nodup_keys_members <|
    .take (require rfl w.nodeId.read_toValue) <|
    .take (orElse rfl (Record.present_ofOption h.x)) <|
    .take (orElse rfl (Record.present_ofOption h.y)) <|
    .take (orElse rfl (Record.list_ofNats h.xIndices)) <|
    .take (orElse rfl (Record.list_ofNats h.yIndices)) <|
    .take (orElse rfl (Record.nullable_ofText? w.nodeKind)) <|
    .rest rfl

private theorem readable_of_read {v : Value} {w : VectorWrite} (h : read v = .ok w) :
    w.Readable := by
  obtain ⟨doc, -, made⟩ := Record.exists_of_closed h
  obtain ⟨_, -, made⟩ := Record.bind_eq_ok made
  obtain ⟨x, hx, made⟩ := Record.bind_eq_ok made
  obtain ⟨y, hy, made⟩ := Record.bind_eq_ok made
  obtain ⟨xIndices, hxIndices, made⟩ := Record.bind_eq_ok made
  obtain ⟨yIndices, hyIndices, made⟩ := Record.bind_eq_ok made
  obtain ⟨_, -, made⟩ := Record.bind_eq_ok made
  cases made
  exact ⟨Record.given_of_present hx, Record.given_of_present hy,
    Record.words_of_listOr hxIndices, Record.words_of_listOr hyIndices⟩

end VectorWrite

namespace Action

/-- The positions of an action are numbers of 64 bits, and it gives no axis null. -/
def Readable : Action → Prop
  | modifyWidget w => ∀ n ∈ w.indices, InNat64 n
  | modifyVector w => w.Readable
  | _ => True

private theorem readable_of_read {v : Value} {a : Action} (h : read v = .ok a) : a.Readable := by
  obtain ⟨word, reader, rest, chosen, made⟩ := Record.exists_of_tagged h
  simp only [List.mem_cons, List.not_mem_nil, or_false, Prod.mk.injEq, reduceCtorEq] at chosen
  rcases chosen with ⟨-, rfl⟩ | ⟨-, rfl⟩ | ⟨-, rfl⟩ | ⟨-, rfl⟩
  · obtain ⟨w, hw, rfl⟩ := Record.map_eq_ok made
    exact WidgetWrite.words_of_read hw
  · obtain ⟨t, -, rfl⟩ := Record.map_eq_ok made
    exact trivial
  · obtain ⟨l, -, rfl⟩ := Record.map_eq_ok made
    exact trivial
  · obtain ⟨w, hw, rfl⟩ := Record.map_eq_ok made
    exact VectorWrite.readable_of_read hw

private theorem read_toValue {a : Action} (h : a.Readable) : read a.toValue = .ok a := by
  rw [toValue, read, Record.tagged_cons (List.nodup_cons.mp a.nodup_keys_toValue).1]
  cases a with
  | modifyWidget w => exact congrArg (Except.map modifyWidget) (WidgetWrite.read_members h)
  | toggleMode t => exact congrArg (Except.map toggleMode) t.read_members
  | addLora l => exact congrArg (Except.map addLora) l.read_members
  | modifyVector w => exact congrArg (Except.map modifyVector) (VectorWrite.read_members h)

private theorem read_toValue_iff {a : Action} : read a.toValue = .ok a ↔ a.Readable :=
  ⟨readable_of_read, read_toValue⟩

private theorem list_read_map_toValue {actions : List Action} (h : ∀ a ∈ actions, a.Readable) :
    Record.list read (.arr (actions.map toValue)) = .ok actions :=
  Record.items_map fun a ha => read_toValue (h a ha)

end Action

/-- The values that an action writes have a property, and all positions are numbers of 64 bits. -/
def Action.Carries (P : Value → Prop) : Action → Prop
  | modifyWidget w => P w.value ∧ ∀ n ∈ w.indices, InNat64 n
  | modifyVector w => w.Carries P
  | _ => True

private theorem Action.Carries.readable {a : Action} (h : a.Carries fun v => v.isNull = false) :
    a.Readable := by
  cases a with
  | modifyWidget w => exact h.2
  | modifyVector w => exact h
  | _ => exact trivial

section Carries

variable {P : Value → Prop} {v : Value} {a : Action}

private theorem holds_modelValue (texts : ∀ s, P (.str s)) (value : P v) : P (modelValue v) := by
  unfold modelValue
  split
  next members =>
    split
    next =>
      split
      next path _ => exact texts path
      next => exact value
    next => exact value
  next => exact value

private theorem WidgetMapping.carries_of_mem_actions {w : WidgetMapping}
    (words : ∀ n ∈ w.indices, InNat64 n) (texts : ∀ s, P (.str s)) (value : P v)
    (h : a ∈ w.actions v) : a.Carries P := by
  unfold actions at h
  split at h
  next pair =>
    obtain ⟨variant, -, h⟩ := List.mem_filterMap.mp h
    obtain ⟨id, -, h⟩ := Option.bind_eq_some_iff.mp h
    obtain ⟨path, -, h⟩ := Option.bind_eq_some_iff.mp h
    obtain rfl : w.write (.str path) id = a := Option.some.inj h
    exact ⟨texts path, words⟩
  next =>
    obtain ⟨id, -, rfl⟩ := List.mem_map.mp h
    exact ⟨holds_modelValue texts value, words⟩

private theorem Mapping.carries_of_mem_actions {m : Mapping} (words : m.Words)
    (texts : ∀ s, P (.str s)) (value : P v) (h : a ∈ m.actions v) : a.Carries P := by
  cases m with
  | widget w => exact WidgetMapping.carries_of_mem_actions words texts value h
  | toggle t =>
    have h : a ∈ t.actions v := h
    unfold ToggleMapping.actions at h
    split at h
    next => exact absurd h List.not_mem_nil
    next =>
      obtain rfl := List.mem_singleton.mp h
      exact trivial
  | lora l =>
    cases v with
    | arr entries =>
      obtain ⟨t, -, rfl⟩ := List.mem_map.mp h
      exact trivial
    | _ => exact absurd h List.not_mem_nil
  | vector m => exact absurd h List.not_mem_nil
  | unrecognized => exact absurd h List.not_mem_nil

namespace VectorMapping

private theorem carries_blank (id : NodeId) : (blank id).Carries P where
  x _ h := nomatch h
  y _ h := nomatch h
  xIndices _ h := absurd h List.not_mem_nil
  yIndices _ h := absurd h List.not_mem_nil

private theorem carries_extend {m : VectorMapping} (words : ∀ n ∈ m.indices, InNat64 n)
    (value : P v) {w : VectorWrite} (h : w.Carries P) : (m.extend v w).Carries P := by
  have own : ∀ u ∈ some v, P u := by
    rintro u ⟨⟩
    exact value
  unfold extend
  cases m.axis with
  | x => exact ⟨own, h.y, words, h.yIndices⟩
  | y => exact ⟨h.x, own, h.xIndices, words⟩

private theorem carries_foldl_gather {axes : List (VectorMapping × Value)}
    (words : ∀ q ∈ axes, ∀ n ∈ q.1.indices, InNat64 n) (values : ∀ q ∈ axes, P q.2) :
    ∀ p ∈ axes.foldl gather [], p.2.Carries P := by
  refine List.foldlRecOn
    (motive := fun groups : List (NodeId × VectorWrite) => ∀ p ∈ groups, p.2.Carries P) axes gather
    (fun p hp => absurd hp List.not_mem_nil) fun groups h q hq p hp => ?_
  rcases Assoc.mem_insert hp with rfl | hp
  · -- the axis goes over what its node has so far, which is nothing at first
    refine carries_extend (words q hq) (values q hq) ?_
    cases held : Assoc.get? q.1.nodeId groups with
    | none => exact carries_blank q.1.nodeId
    | some w => exact h _ (Assoc.mem_of_get? held)
  · exact h p hp

end VectorMapping

private theorem Mappings.carries_of_mem_compile {m : Mappings} (words : ∀ p ∈ m, p.2.Words)
    (texts : ∀ s, P (.str s)) {inputs : Object}
    (values : ∀ id v, suppliedValue? (m.seen inputs) id = some v → P v)
    (h : a ∈ m.compile inputs) : a.Carries P := by
  rcases List.mem_append.mp h with h | h
  · obtain ⟨p, hp, h⟩ := List.mem_flatMap.mp h
    obtain ⟨v, hv, h⟩ := exists_of_mem_block h
    exact Mapping.carries_of_mem_actions (words p hp) texts (values p.1 v hv) h
  · obtain ⟨p, hp, rfl⟩ := List.mem_map.mp h
    refine VectorMapping.carries_foldl_gather (fun q hq => ?_) (fun q hq => ?_) p hp
    · obtain ⟨id, hid, -⟩ := mem_axes hq
      exact words _ hid
    · obtain ⟨id, -, hv⟩ := mem_axes hq
      exact values id _ hv

end Carries

private theorem isNull_of_suppliedValue? {flat : Object} {id : String} {v : Value}
    (h : suppliedValue? flat id = some v) : v.isNull = false := by
  obtain ⟨-, given⟩ := Option.filter_eq_some_iff.mp h
  simpa using given

private theorem Mappings.readable_of_mem_compile {m : Mappings} (words : ∀ p ∈ m, p.2.Words)
    {inputs : Object} {a : Action} (h : a ∈ m.compile inputs) : a.Readable :=
  (carries_of_mem_compile words (fun _ => rfl) (fun _ _ => isNull_of_suppliedValue?) h).readable

/-! The listed actions as a text. -/

section Leaves

variable {shapeOf : String → Option Shape} {n : Nat}

mutual

private theorem within_of_mem_leaves : ∀ {o : Object}, (∀ p ∈ o, p.2.Within n) →
    ∀ {p : String × Value}, p ∈ leaves shapeOf o → p.2.Within n
  | [], _, _, h => absurd h (by simp [leaves])
  | (key, v) :: rest, within, _, h => by
    obtain ⟨first, later⟩ := List.forall_mem_cons.mp within
    rw [leaves_cons] at h
    rcases List.mem_append.mp h with h | h
    · exact within_of_mem_leavesOf key v first h
    · exact within_of_mem_leaves later h

private theorem within_of_mem_leavesOf : ∀ (key : String) (v : Value), v.Within n →
    ∀ {p : String × Value}, p ∈ leavesOf shapeOf key v → p.2.Within n
  | key, .obj members, within, p, h => by
    cases opened : opens shapeOf key members with
    | true =>
      rw [leavesOf_of_opens opened] at h
      exact within_of_mem_leaves within.members h
    | false =>
      rw [leavesOf_of_keptWhole (keptWhole_of_not_opens opened), List.mem_singleton] at h
      exact h ▸ within
  | key, .null, within, p, h | key, .bool _, within, p, h | key, .num _, within, p, h
  | key, .str _, within, p, h | key, .arr _, within, p, h => by
    obtain rfl : p = (key, _) := List.mem_singleton.mp h
    exact within

end

end Leaves

namespace Action

private theorem within_toValue {n : Nat} {a : Action} (h : a.Carries (Value.Within (n + 1))) :
    a.toValue.Within (n + 2) := by
  have axis {v? : Option Value} (h : ∀ v ∈ v?, v.Within (n + 1)) :
      (Value.ofOption v?).Within (n + 1) := by
    cases v? with
    | none => exact Value.within_null _
    | some v => exact h v rfl
  refine Value.within_obj_iff.mpr ⟨a.nodup_keys_toValue, ?_⟩
  cases a with
  | modifyWidget w =>
    simp [members, Value.within_str, Value.within_nodeId, Value.within_ofNats,
      Value.within_ofTexts, Value.within_ofText?, h.1]
  | toggleMode t =>
    simp [members, Value.within_str, Value.within_bool, Value.within_ofNodeIds,
      Value.within_nodeMode, Value.within_ofNodeId?]
  | addLora l =>
    simp [members, Value.within_str, Value.within_bool, Value.within_nodeId, Value.within_ofText?,
      Value.ofDouble, Value.within_num]
  | modifyVector w =>
    simp [members, Value.within_str, Value.within_nodeId, axis h.x, axis h.y, Value.within_ofNats,
      Value.within_ofText?]

end Action

def Generation.listing (g : Generation) : Value := .arr (g.compiled.actions.map Action.toValue)

private theorem Config.generate_eq_ok {c : Config} {maxLoras : Nat} {template : Graph}
    {inputs : Object} {words rest : Words} {g : Generation}
    (h : c.generate maxLoras template inputs words = .ok (some g, rest)) :
    g.compiled.actions = c.mappings.compile g.compiled.inputs ∧
      template.applyAll g.compiled.actions = some (g.graph, g.tally) := by
  cases made : c.compile maxLoras inputs words with
  | error e =>
    rw [generate, made] at h
    exact nomatch h
  | ok made' =>
    obtain ⟨compiled, rest'⟩ := made'
    obtain ⟨-, rfl, -⟩ := compile_eq_ok_iff.mp made
    rw [generate, made] at h
    obtain ⟨result, applied, rfl⟩ := Option.map_eq_some_iff.mp (Prod.mk.inj (Except.ok.inj h)).1
    exact ⟨rfl, applied⟩

private theorem Config.generate_of_isValid {c : Config} {maxLoras : Nat} {inputs : Object}
    (valid : (c.check maxLoras inputs).isValid = true) (template : Graph) (words : Words) :
    c.generate maxLoras template inputs words =
      .ok ((template.applyAll (c.mappings.compile (c.resolve inputs words).1)).map fun result =>
        ⟨result.1, ⟨(c.resolve inputs words).1, c.mappings.compile (c.resolve inputs words).1,
          c.check maxLoras inputs⟩, result.2⟩, (c.resolve inputs words).2) := by
  rw [generate, compile_of_isValid valid]
  rfl

private theorem Generation.within_listing {m : Mappings} (words : ∀ p ∈ m, p.2.Words)
    {g : Generation} (made : g.compiled.actions = m.compile g.compiled.inputs) {n : Nat}
    (h : (Value.obj g.compiled.inputs).Within (n + 2)) : g.listing.Within (n + 3) := by
  have members := (Value.within_obj_iff.mp h).2
  refine Value.within_arr_iff.mpr fun v hv => ?_
  obtain ⟨a, ha, rfl⟩ := List.mem_map.mp hv
  rw [made] at ha
  refine Action.within_toValue (Mappings.carries_of_mem_compile words (Value.within_str _) ?_ ha)
  -- a supplied value is a leaf of the inputs, however deep in sections it was found
  intro id v hv
  have leaf := (Option.filter_eq_some_iff.mp hv).1
  exact within_of_mem_leaves members (Assoc.mem_ofList (Assoc.mem_of_get? leaf))

/-- An action reads back exactly when its positions are numbers of 64 bits and it gives no axis null.
Such is every action that was read itself, and every one that was compiled, whatever the inputs, by
mappings with positions of 64 bits. So the listed actions of a generation read as its actions, and
lead from its template to its graph. The text of the list reads as the list exactly when its numbers
are what their texts read as and it does not nest too many containers, as it does only if the inputs
nest as many as are allowed. -/
theorem listed_actions_replay :
    (∀ a : Action, Action.read a.toValue = .ok a ↔ a.Readable) ∧
    (∀ v a, Action.read v = .ok a → Action.read a.toValue = .ok a) ∧
    (∀ (m : Mappings) inputs, (∀ p ∈ m, p.2.Words) →
      ∀ a ∈ m.compile inputs, Action.read a.toValue = .ok a) ∧
    (∀ (c : Config) maxLoras template inputs words g rest, (∀ p ∈ c.mappings, p.2.Words) →
      c.generate maxLoras template inputs words = .ok (some g, rest) →
      ∃ actions, Record.list Action.read g.listing = .ok actions ∧
        template.applyAll actions = some (g.graph, g.tally) ∧
        ((Value.obj g.compiled.inputs).Distinct →
          (Json.parse? (CommandLine.generationText g true) = some g.listing ↔
            g.listing.depth ≤ Json.maxDepth ∧ g.listing.Survives) ∧
          ((Value.obj g.compiled.inputs).depth < Json.maxDepth →
            g.listing.depth ≤ Json.maxDepth))) := by
  refine ⟨fun _ => Action.read_toValue_iff,
    fun v a h => Action.read_toValue (Action.readable_of_read h),
    fun m inputs words a ha => Action.read_toValue (Mappings.readable_of_mem_compile words ha),
    fun c maxLoras template inputs words g rest positions h => ?_⟩
  obtain ⟨made, replayed⟩ := Config.generate_eq_ok h
  have readable : ∀ a ∈ g.compiled.actions, a.Readable := fun a ha =>
    Mappings.readable_of_mem_compile positions (made ▸ ha)
  refine ⟨g.compiled.actions, Action.list_read_map_toValue readable, replayed,
    fun distinct => ⟨?_, fun shallow => ?_⟩⟩
  · have nested : (Value.obj g.compiled.inputs).depth ≤
      (Value.obj g.compiled.inputs).depth + 2 := Nat.le_add_right _ 2
    have listed := Generation.within_listing positions made ⟨distinct, nested⟩
    exact Json.parse?_pretty_eq_self_iff listed.distinct
  · have nested : (Value.obj g.compiled.inputs).depth ≤ Json.maxDepth - 1 :=
      Nat.le_sub_one_of_lt shallow
    exact (Generation.within_listing positions made ⟨distinct, nested⟩).depth

open Config

/-- A number at one node, a switch for another, a stack of models, and one axis of a size. -/
def mixing : Config := { upscaling with
  name := "Mixing"
  inputs := [bareField "factor" .slider, bareField "on" .checkbox, bareField "stack" .loraList,
    bareField "width" .slider]
  mappings := [
    ("factor", .widget ⟨some scalerId, [], [0], none, [], none, none, none⟩),
    ("on", .toggle ⟨none, [.small 9], .enabled, .muted, none⟩),
    ("stack", .lora Graph.pairOfLoaders),
    ("width", .vector ⟨.small 60, .x, [0], none⟩)] }

def mixedInputs : Object :=
  ("factor", .ofNat 2) :: ("on", .bool false) :: ("width", .ofNat 512) :: Graph.stackingInputs

/-- A document that spells a node id as a text and leaves an axis out as null. -/
def heightDocument : Value :=
  .obj [("y_value", .ofNat 768), ("x_value", .null), ("node_id", .str "60"),
    ("action", .str "modify_vector_widget"), ("y_indices", .ofNats [1])]

def heightAction : Action := .modifyVector ⟨.small 60, none, some (.ofNat 768), [], [1], none⟩

private theorem mixing_resolve : (mixing.resolve mixedInputs ⟨[], 0⟩).1 = mixedInputs := by
  rfl

theorem mixing_replayed :
    Action.read heightDocument = .ok heightAction ∧
    Action.read heightAction.toValue = .ok heightAction ∧
      ∃ g rest, mixing.generate defaultMaxLoras (.canvas Graph.stackingCanvas) mixedInputs
          ⟨[], 0⟩ = .ok (some g, rest) ∧ g.compiled.actions.length = 6 ∧
        (∀ a ∈ g.compiled.actions, Action.read a.toValue = .ok a) ∧
        ∃ v actions, Json.parse? (CommandLine.generationText g true) = some v ∧
          Record.list Action.read v = .ok actions ∧
          (Graph.canvas Graph.stackingCanvas).applyAll actions = some (g.graph, g.tally) := by
  have height : Action.read heightDocument = .ok heightAction := by
    rfl
  have valid : (mixing.check defaultMaxLoras mixedInputs).isValid = true := by
    decide +kernel
  have words : ∀ p ∈ mixing.mappings, p.2.Words := by
    simp [mixing, Mapping.Words, InNat64]
  have shallow : (Value.obj mixedInputs).Within (Json.maxDepth - 1) := by
    simp [mixedInputs, Graph.stackingInputs, Graph.stackedEntries, Json.maxDepth,
      Value.within_obj_iff, Value.within_arr_iff, Value.within_str, Value.within_bool,
      Value.within_ofNat]
  have below : (Value.obj mixedInputs).depth < Json.maxDepth :=
    Nat.lt_of_le_sub_one (by decide) shallow.depth
  have made : ∃ g rest, mixing.generate defaultMaxLoras (.canvas Graph.stackingCanvas) mixedInputs
      ⟨[], 0⟩ = .ok (some g, rest) ∧ g.compiled.inputs = mixedInputs :=
    ⟨_, _, generate_of_isValid valid _ _, mixing_resolve⟩
  obtain ⟨g, rest, made, inputs⟩ := made
  obtain ⟨-, documents, compiled, generated⟩ := listed_actions_replay
  obtain ⟨actions, listed, replayed, printed⟩ := generated mixing _ _ _ _ g rest words made
  obtain ⟨text, depth⟩ := printed (inputs ▸ shallow.distinct)
  have survives : g.listing.Survives := by
    rw [Generation.listing, (generate_eq_ok made).1, inputs]
    decide +kernel
  refine ⟨height, documents _ _ height, g, rest, made, ?_, ?_, g.listing, actions,
    text.mpr ⟨depth (inputs ▸ below), survives⟩, listed, replayed⟩
  · rw [(generate_eq_ok made).1, inputs]
    rfl
  · rw [(generate_eq_ok made).1, inputs]
    exact compiled mixing.mappings mixedInputs words

/-- A factor, and the double below it, which is what its text reads as. -/
def fineFactor : Double := ⟨false, 7633004523783416, -52, by decide⟩

def lowerFactor : Double := ⟨false, 7633004523783415, -52, by decide⟩

def fineInputs : Object := [("factor", .str "1.6948674738744653")]

def scaleBy (d : Double) : Action := .modifyWidget ⟨scalerId, [0], [], .ofDouble d, none⟩

def scalingCanvas : Canvas :=
  ⟨[⟨scalerId, "ImageScaleBy", .enabled, .arr [.null], none, []⟩], [], []⟩

/-- The text of a factor goes into a graph as the nearest double. The text of the listed actions has
the same numeral, but there it reads as the double below, and the graph is another. -/
theorem listed_text_misread :
    ∃ g rest other, upscaling.generate defaultMaxLoras (.canvas scalingCanvas) fineInputs
        ⟨[], 0⟩ = .ok (some g, rest) ∧
      g.compiled.actions = [scaleBy fineFactor] ∧
      Json.parse? (CommandLine.generationText g true) =
        some (.arr [(scaleBy lowerFactor).toValue]) ∧
      Record.list Action.read (.arr [(scaleBy lowerFactor).toValue]) =
        .ok [scaleBy lowerFactor] ∧
      (Graph.canvas scalingCanvas).applyAll [scaleBy lowerFactor] = some other ∧
      other.1 ≠ g.graph := by
  have valid : (upscaling.check defaultMaxLoras fineInputs).isValid = true := by decide +kernel
  have spelt : (Value.str "1.6948674738744653").float? = some fineFactor := by decide +kernel
  have resolved : (upscaling.resolve fineInputs ⟨[], 0⟩).1 =
      [("factor", .ofDouble fineFactor)] :=
    calc (upscaling.resolve fineInputs ⟨[], 0⟩).1
        = [("factor", (numeral? .slider (.str "1.6948674738744653")).getD _)] := rfl
      _ = [("factor", .ofDouble fineFactor)] := by rw [numeral?, spelt]; rfl
  have compiled : upscaling.mappings.compile [("factor", .ofDouble fineFactor)] =
      [scaleBy fineFactor] := rfl
  have written (d : Double) : (Graph.canvas scalingCanvas).applyAll [scaleBy d] = some (.canvas
      ⟨[⟨scalerId, "ImageScaleBy", .enabled, .arr [.ofDouble d], none, []⟩], [], []⟩, ⟨1, 0⟩) := rfl
  have reread : (Value.arr [(scaleBy fineFactor).toValue]).reread? =
      some (.arr [(scaleBy lowerFactor).toValue]) := by
    have missed : (Number.double fineFactor).reread? = some (.double lowerFactor) := by
      decide +kernel
    have zero : (Value.ofNat 0).reread? = some (.ofNat 0) := by
      rw [Value.ofNat, Value.ofInt_of_fits (by decide)]
      simp [Value.reread?]
    simp [scaleBy, Action.toValue, Action.members, Action.kind, Value.ofDouble, Value.reread?,
      Value.rereadItems?, Value.rereadMembers?, missed, zero, NodeId.toValue, Value.ofNats,
      Value.ofTexts, Value.ofText?]
  have distinct : (Value.arr [(scaleBy fineFactor).toValue]).Distinct := by
    simp [scaleBy, Action.toValue, Action.members, Action.kind, Value.ofDouble, Value.Distinct,
      Value.DistinctItems, Value.DistinctMembers, NodeId.toValue, Value.ofNats, Value.ofTexts,
      Value.ofText?, Assoc.keys, (Value.within_ofNat 0 0).distinct]
  have text : Json.parse? (Value.arr [(scaleBy fineFactor).toValue]).pretty =
      some (.arr [(scaleBy lowerFactor).toValue]) := by
    rw [Json.parse?_pretty distinct, if_pos (by decide), reread]
  have listed : Record.list Action.read (.arr [(scaleBy lowerFactor).toValue]) =
      .ok [scaleBy lowerFactor] := rfl
  have generated := generate_of_isValid valid (.canvas scalingCanvas) ⟨[], 0⟩
  rw [resolved, compiled, written, Option.map_some] at generated
  refine ⟨_, _, _, generated, rfl, text, listed, written lowerFactor, ?_⟩
  simp [Value.ofDouble, lowerFactor, fineFactor]

end WorkflowGraph
