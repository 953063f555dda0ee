/- Entries that are added to loaders: all of them arrive, in order, before the tail of the list. -/

import WorkflowGraph.Proofs.LastWrite
import WorkflowGraph.Proofs.Targets

set_option autoImplicit false
set_option relaxedAutoImplicit false

/-!
The place of an entry is counted from the end of the list, so as long as nothing is written to a
loader by position its list stays the old list without its tail, then the entries added so far, then
the tail. The entries of a list value become actions one by one, and each goes to the loader of its
half, so between the two loaders nothing of the list is lost and nothing comes twice.
-/

namespace WorkflowGraph

namespace Action

/-- An action writes a value to a node: to its widgets, or along an axis. -/
def Writes (n : Node) : Action → Prop
  | .modifyWidget w => n.id = w.nodeId
  | .modifyVector w => n.id = w.nodeId
  | _ => False

def entryFor? (n : Node) : Action → Option LoraEntry
  | .addLora l => if n.id = l.target then some l else none
  | _ => none

theorem entryFor?_onNode (a : Action) (n : Node) : entryFor? (a.onNode n) = entryFor? n := by
  funext b
  cases b <;> simp [entryFor?]

theorem writes_onNode (a b : Action) (n : Node) : b.Writes (a.onNode n) ↔ b.Writes n := by
  cases b <;> simp [Writes]

end Action

def beforeTail (items added : List Value) : List Value :=
  items.take (items.length - Node.tailLength) ++ added ++
    items.drop (items.length - Node.tailLength)

namespace Node

def Unwritten (actions : List Action) (n : Node) : Prop := ∀ a ∈ actions, ¬ a.Writes n

/-- The widget values of a loader: a list that has the tail. -/
structure IsLoader (items : List Value) (n : Node) : Prop where
  widgets : n.widgets = .arr items
  tail : tailLength ≤ items.length

private theorem insertLora_widgets {n : Node} {front tail : List Value}
    (hn : n.widgets = .arr (front ++ tail)) (ht : tail.length = tailLength) (l : LoraEntry) :
    (n.insertLora l).1.widgets = .arr (front ++ [l.widget] ++ tail) := by
  have long : tailLength ≤ (front ++ tail).length := by
    rw [List.length_append]
    omega
  have place : (front ++ tail).length - tailLength = front.length := by
    rw [List.length_append, ht, Nat.add_sub_cancel]
  simp only [insertLora, hn, if_pos long, place, List.take_left, List.drop_left]
  simp

theorem widgets_onNode_of_not_writes {n : Node} {items : List Value} (hn : n.widgets = .arr items)
    {a : Action} (unwritten : ¬ a.Writes n) :
    (a.onNode n).widgets = ((a.entryFor? n).elim n fun l => (n.insertLora l).1).widgets := by
  cases a with
  | modifyWidget w =>
    have other : n.id ≠ w.nodeId := unwritten
    simp [Action.onNode, Action.entryFor?, other]
  | modifyVector w =>
    have other : n.id ≠ w.nodeId := unwritten
    simp [Action.onNode, Action.entryFor?, other]
  | toggleMode t =>
    have kept : ((n.switch t).writeSave t.enabled).1 = n.switch t := by
      simp [writeSave, hn]
    simp [Action.onNode, Action.entryFor?, kept]
  | addLora l => by_cases h : n.id = l.target <;> simp [Action.onNode, Action.entryFor?, h]

private theorem widgets_onNode {n : Node} {front tail : List Value}
    (hn : n.widgets = .arr (front ++ tail)) (ht : tail.length = tailLength) {a : Action}
    (unwritten : ¬ a.Writes n) :
    (a.onNode n).widgets =
      .arr (front ++ ((a.entryFor? n).map LoraEntry.widget).toList ++ tail) := by
  rw [widgets_onNode_of_not_writes hn unwritten]
  cases a.entryFor? n with
  | none => simp [hn]
  | some l => exact insertLora_widgets hn ht l

private theorem widgets_after {actions : List Action} {n : Node} {front tail : List Value}
    (hn : n.widgets = .arr (front ++ tail)) (ht : tail.length = tailLength)
    (unwritten : n.Unwritten actions) :
    (n.after actions).widgets = .arr
      (front ++ (actions.filterMap (Action.entryFor? n)).map LoraEntry.widget ++ tail) := by
  induction actions generalizing n front with
  | nil => simpa using hn
  | cons a actions ih =>
    have head := widgets_onNode hn ht (unwritten a List.mem_cons_self)
    have rest : (a.onNode n).Unwritten actions := by
      intro b hb
      rw [Action.writes_onNode]
      exact unwritten b (List.mem_cons_of_mem a hb)
    -- an entry that is added now belongs to the front for the rest of the run
    rw [after_cons, ih head rest, Action.entryFor?_onNode]
    cases he : a.entryFor? n with
    | none => simp [he]
    | some l => simp [he]

theorem IsLoader.after {items : List Value} {n : Node} (h : n.IsLoader items)
    {actions : List Action} (unwritten : n.Unwritten actions) :
    (n.after actions).widgets =
      .arr (beforeTail items
        ((actions.filterMap (Action.entryFor? n)).map LoraEntry.widget)) := by
  have split : n.widgets = .arr (items.take (items.length - tailLength) ++
      items.drop (items.length - tailLength)) := by
    rw [h.widgets, List.take_append_drop]
  have tail : (items.drop (items.length - tailLength)).length = tailLength := by
    have := h.tail
    rw [List.length_drop]
    omega
  exact widgets_after split tail unwritten

private theorem NoEntry.filterMap_entryFor? {actions : List Action} {n : Node}
    (h : n.NoEntry actions) :
    actions.filterMap (Action.entryFor? n) = [] := by
  rw [List.filterMap_eq_nil_iff]
  intro a ha
  cases a with
  | addLora l => exact if_neg (h l ha)
  | _ => rfl

end Node

theorem Mapping.cases_of_mem_actions {m : Mapping} {v : Value} {a : Action}
    (h : a ∈ m.actions v) :
    (∃ w, a = .modifyWidget w) ∨ (∃ t, a = .toggleMode t) ∨
      ∃ l t, m = .lora l ∧ a = .addLora (l.entry t) := by
  cases m with
  | widget w =>
    obtain ⟨id, -, v, he⟩ := WidgetMapping.write_of_mem_actions h
    exact Or.inl ⟨_, he⟩
  | toggle t =>
    have h : a ∈ t.actions v := h
    unfold ToggleMapping.actions at h
    split at h
    · exact absurd h List.not_mem_nil
    · exact Or.inr (Or.inl ⟨_, List.mem_singleton.mp h⟩)
  | lora l =>
    cases v with
    | arr entries =>
      obtain ⟨t, -, he⟩ := List.mem_map.mp h
      exact Or.inr (Or.inr ⟨l, t, rfl, he.symm⟩)
    | _ => exact absurd h List.not_mem_nil
  | vector w => exact absurd h List.not_mem_nil
  | unrecognized => exact absurd h List.not_mem_nil

private theorem Mapping.lora_of_addLora_mem {m : Mapping} {v : Value} {e : LoraEntry}
    (h : Action.addLora e ∈ m.actions v) : ∃ l t, m = .lora l ∧ e = l.entry t := by
  rcases cases_of_mem_actions h with ⟨w, he⟩ | ⟨t, he⟩ | ⟨l, t, hl, he⟩
  · exact Action.noConfusion he
  · exact Action.noConfusion he
  · exact ⟨l, t, hl, Action.addLora.inj he⟩

namespace LoraMapping

/-- The targets of a list that go to the loader with an id. -/
def sentTo (l : LoraMapping) (id : NodeId) (targets : List LoraTarget) : List LoraTarget :=
  targets.filter fun t => l.node t.variant = id

def addedTo (l : LoraMapping) (n : Node) (entries : List Value) : List Value :=
  (l.sentTo n.id (entries.flatMap loraTargets)).map fun t => (l.entry t).widget

private theorem filterMap_entryFor?_map_entry (l : LoraMapping) (n : Node)
    (targets : List LoraTarget) :
    (targets.map fun t => Action.addLora (l.entry t)).filterMap (Action.entryFor? n) =
      (l.sentTo n.id targets).map l.entry := by
  induction targets with
  | nil => rfl
  | cons t targets ih =>
    by_cases h : l.node t.variant = n.id
    · have taken : Action.entryFor? n (.addLora (l.entry t)) = some (l.entry t) :=
        if_pos ((l.target_entry t).trans h).symm
      rw [List.map_cons, List.filterMap_cons_some taken, ih]
      simp [sentTo, h]
    · have left : Action.entryFor? n (.addLora (l.entry t)) = none :=
        if_neg fun he => h (he.trans (l.target_entry t)).symm
      rw [List.map_cons, List.filterMap_cons_none left, ih]
      simp [sentTo, h]

private theorem sentTo_perm {l : LoraMapping} (h : l.highNodeId ≠ l.lowNodeId)
    (targets : List LoraTarget) :
    (l.sentTo l.highNodeId targets ++ l.sentTo l.lowNodeId targets).Perm targets := by
  have others : l.sentTo l.lowNodeId targets =
      targets.filter fun t => !decide (l.node t.variant = l.highNodeId) := by
    apply List.filter_congr
    intro t _
    cases t.variant with
    | high => simp [node, h]
    | low => simp [node, h.symm]
  rw [others]
  exact List.filter_append_perm _ targets

private theorem sentTo_eq_self {l : LoraMapping} (h : l.highNodeId = l.lowNodeId)
    (targets : List LoraTarget) : l.sentTo l.highNodeId targets = targets := by
  apply List.filter_eq_self.mpr
  intro t _
  cases t.variant with
  | high => simp [node]
  | low => simp [node, h]

end LoraMapping

namespace Mappings

def seen (m : Mappings) (inputs : Object) : Object := flattenDeclared m.shapeOf inputs

def added (m : Mappings) (flat : Object) (n : Node) : List Value :=
  ((m.flatMap (block flat)).filterMap (Action.entryFor? n)).map LoraEntry.widget

/-- No mapping that has a value sends the entries of a list to the node. -/
def SpareNode (m : Mappings) (flat : Object) (n : Node) : Prop :=
  ∀ p ∈ m, ∀ l, p.2 = .lora l → (suppliedValue? flat p.1).isSome = true → ∀ v, n.id ≠ l.node v

variable {m before after : Mappings} {flat : Object} {l : LoraMapping} {entries : List Value}
  {id : String} {n : Node}

private theorem SpareNode.noEntry (h : m.SpareNode flat n) {p : String × Mapping} (hp : p ∈ m) :
    n.NoEntry (block flat p) := by
  intro e he
  obtain ⟨w, hv, he⟩ := exists_of_mem_block he
  obtain ⟨l, t, hl, rfl⟩ := Mapping.lora_of_addLora_mem he
  rw [LoraMapping.target_entry]
  exact h p hp l hl (by simp [hv]) t.variant

private theorem SpareNode.added_eq_nil (h : m.SpareNode flat n) : m.added flat n = [] := by
  rw [added, List.map_eq_nil_iff, List.filterMap_eq_nil_iff]
  intro a ha
  obtain ⟨p, hp, ha⟩ := List.mem_flatMap.mp ha
  exact List.filterMap_eq_nil_iff.mp (h.noEntry hp).filterMap_entryFor? a ha

private theorem filterMap_entryFor?_vectorActions (m : Mappings) (flat : Object) (n : Node) :
    (m.vectorActions flat).filterMap (Action.entryFor? n) = [] := by
  rw [List.filterMap_eq_nil_iff]
  intro a ha
  obtain ⟨p, -, rfl⟩ := List.mem_map.mp ha
  rfl

private theorem map_widget_compileFlat (split : m = before ++ (id, .lora l) :: after)
    (value : suppliedValue? flat id = some (.arr entries)) (n : Node) :
    ((m.compileFlat flat).filterMap (Action.entryFor? n)).map LoraEntry.widget =
      before.added flat n ++ l.addedTo n entries ++ after.added flat n := by
  have own : block flat (id, .lora l) =
      (entries.flatMap loraTargets).map fun t => .addLora (l.entry t) := by
    simp only [block, value]
    exact l.actions_arr entries
  rw [compileFlat, List.filterMap_append, filterMap_entryFor?_vectorActions, List.append_nil,
    split, List.flatMap_append, List.flatMap_cons, List.filterMap_append, List.filterMap_append,
    own, l.filterMap_entryFor?_map_entry, List.map_append, List.map_append, List.map_map,
    List.append_assoc]
  rfl

end Mappings

private theorem Text.isBlankText_trim {s : String} (h : trim s ≠ "") :
    isBlankText (trim s) = false := by
  have chars : (trim s).toList = trimChars s.toList := String.toList_ofList
  have rest : (s.toList.dropWhile isBlank).reverse.dropWhile isBlank ≠ [] := by
    intro he
    apply h
    rw [trim, trimChars, he]
    rfl
  have black := List.head_dropWhile_not isBlank rest
  rw [isBlankText, chars, List.all_eq_false]
  refine ⟨_, List.mem_reverse.mpr (List.head_mem rest), ?_⟩
  rw [black]
  exact Bool.false_ne_true

theorem Value.modelPath?_not_blank {v : Value} {path : String} (h : v.modelPath? = some path) :
    Text.isBlankText path = false := by
  obtain ⟨s, -, h⟩ := Option.bind_eq_some_iff.mp h
  by_cases empty : Text.trim s = ""
  · simp [empty] at h
  · obtain rfl : Text.trim s = path := by simpa [empty] using h
    exact Text.isBlankText_trim empty

private theorem loraHalf?_path {entry : Object} {variant : NoiseVariant} {t : LoraTarget}
    (h : loraHalf? entry variant = some t) : ∃ v : Value, v.modelPath? = some t.path := by
  obtain ⟨half, -, h⟩ := Option.bind_eq_some_iff.mp h
  obtain ⟨path, hp, h⟩ := Option.bind_eq_some_iff.mp h
  obtain rfl := Option.some.inj h
  exact ⟨half, hp⟩

theorem path_of_mem_loraTargets {v : Value} {t : LoraTarget} (h : t ∈ loraTargets v) :
    ∃ v : Value, v.modelPath? = some t.path := by
  unfold loraTargets at h
  split at h
  · split at h
    · split at h
      · exact absurd h List.not_mem_nil
      · rename_i path hp
        obtain rfl := List.mem_singleton.mp h
        obtain ⟨v, -, hv⟩ := Option.bind_eq_some_iff.mp hp
        exact ⟨v, hv⟩
    · obtain ⟨variant, -, half⟩ := List.mem_filterMap.mp h
      exact loraHalf?_path half
  · split at h
    · rename_i path hp
      obtain rfl := List.mem_singleton.mp h
      exact ⟨_, hp⟩
    · exact absurd h List.not_mem_nil

private theorem not_blank_of_mem_loraTargets {v : Value} {t : LoraTarget} (h : t ∈ loraTargets v) :
    Text.isBlankText t.path = false := by
  obtain ⟨v, hv⟩ := path_of_mem_loraTargets h
  exact Value.modelPath?_not_blank hv

namespace Graph

/-- A loader that no action writes to ends up with its old list and all its entries, in the order of
the actions, before its tail. So when the actions come from a list value, every loader takes those of
its targets that go to its id, in order, between what other mappings send there. The loaders of the
two halves together take all targets, each once, and all targets have paths. An entry says whether
it is on, its path and its strength, and has null for a second strength. -/
theorem entries_before_tail {c : Canvas} (distinct : (c.nodes.map Node.id).Nodup) :
    (∀ (actions : List Action), ∀ n ∈ c.nodes, ∀ items, n.IsLoader items → n.Unwritten actions →
      ∃ result n', (canvas c).applyAll actions = some result ∧
        result.1.canvasNode? n.id = some n' ∧
        n'.widgets = .arr (beforeTail items
          ((actions.filterMap (Action.entryFor? n)).map fun l => .obj [
            ("on", .bool l.enabled), ("lora", .str l.path),
            ("strength", .num (.double l.strength)), ("strengthTwo", .null)]))) ∧
    ∀ (m before after : Mappings) (id : String) (l : LoraMapping) (inputs : Object)
      (entries : List Value), m = before ++ (id, .lora l) :: after →
      suppliedValue? (m.seen inputs) id = some (.arr entries) →
      (∀ n ∈ c.nodes, ∀ items, n.IsLoader items → n.Unwritten (m.compile inputs) →
        ∃ result n', (canvas c).applyAll (m.compile inputs) = some result ∧
          result.1.canvasNode? n.id = some n' ∧
          n'.widgets = .arr (beforeTail items (before.added (m.seen inputs) n ++
            l.addedTo n entries ++ after.added (m.seen inputs) n))) ∧
      (∀ n, Mappings.SpareNode (before ++ after) (m.seen inputs) n →
        before.added (m.seen inputs) n = [] ∧ after.added (m.seen inputs) n = []) ∧
      (l.highNodeId ≠ l.lowNodeId →
        (l.sentTo l.highNodeId (entries.flatMap loraTargets) ++
          l.sentTo l.lowNodeId (entries.flatMap loraTargets)).Perm
            (entries.flatMap loraTargets)) ∧
      (l.highNodeId = l.lowNodeId →
        l.sentTo l.highNodeId (entries.flatMap loraTargets) = entries.flatMap loraTargets) ∧
      ∀ t ∈ entries.flatMap loraTargets, Text.isBlankText t.path = false ∧
        (l.entry t).widget = .obj [("on", .bool t.enabled), ("lora", .str t.path),
          ("strength", .num (.double t.strength)), ("strengthTwo", .null)] := by
  have loader : ∀ (actions : List Action), ∀ n ∈ c.nodes, ∀ items, n.IsLoader items →
      n.Unwritten actions →
      ∃ result n', (canvas c).applyAll actions = some result ∧
        result.1.canvasNode? n.id = some n' ∧
        n'.widgets = .arr (beforeTail items
          ((actions.filterMap (Action.entryFor? n)).map LoraEntry.widget)) := by
    intro actions n hn items h unwritten
    obtain ⟨result, made, found⟩ := exists_canvasNode?_applyAll distinct actions hn
    exact ⟨result, n.after actions, made, found, h.after unwritten⟩
  refine ⟨loader, ?_⟩
  intro m before after id l inputs entries split value
  refine ⟨?_, ?_, fun h => LoraMapping.sentTo_perm h _, fun h => LoraMapping.sentTo_eq_self h _, ?_⟩
  · intro n hn items h unwritten
    obtain ⟨result, n', made, found, list⟩ := loader _ n hn items h unwritten
    refine ⟨result, n', made, found, ?_⟩
    rw [list, ← Mappings.map_widget_compileFlat split value n]
    rfl
  · intro n spare
    have first : before.SpareNode (m.seen inputs) n :=
      fun p hp => spare p (List.mem_append_left after hp)
    have last : after.SpareNode (m.seen inputs) n :=
      fun p hp => spare p (List.mem_append_right before hp)
    exact ⟨first.added_eq_nil, last.added_eq_nil⟩
  · intro t ht
    obtain ⟨v, -, ht⟩ := List.mem_flatMap.mp ht
    exact ⟨not_blank_of_mem_loraTargets ht, rfl⟩

def emptyLoader (id : NodeId) : Node :=
  ⟨id, "Power Lora Loader", .enabled, .arr [.str "header", .obj [], .str ""], none, []⟩

def pairOfLoaders : LoraMapping := ⟨.small 20, .small 21⟩

def stackingCanvas : Canvas :=
  ⟨[emptyLoader pairOfLoaders.highNodeId, emptyLoader pairOfLoaders.lowNodeId], [], []⟩

def stackingMappings : Mappings := [("stack", .lora pairOfLoaders)]

/-- A pair of paths, and an entry with a path for the high half alone. -/
def stackedEntries : List Value := [
  .obj [("high_noise", .str "style_h"), ("low_noise", .str "style_l")],
  .obj [("high_noise", .obj [("path", .str " face ")]), ("low_noise", .str " ")]]

def stackingInputs : Object := [("stack", .arr stackedEntries)]

theorem stacked_entries_before_tail :
    (stackingCanvas.nodes.map Node.id).Nodup ∧
      ∃ result high' low',
        (canvas stackingCanvas).applyAll (stackingMappings.compile stackingInputs) = some result ∧
        result.1.canvasNode? pairOfLoaders.highNodeId = some high' ∧
        result.1.canvasNode? pairOfLoaders.lowNodeId = some low' ∧
        high'.widgets = .arr [.str "header",
          .obj [("on", .bool true), ("lora", .str "style_h"),
            ("strength", .num (.double (Double.ofInt 1))), ("strengthTwo", .null)],
          .obj [("on", .bool true), ("lora", .str "face"),
            ("strength", .num (.double (Double.ofInt 1))), ("strengthTwo", .null)],
          .obj [], .str ""] ∧
        low'.widgets = .arr [.str "header",
          .obj [("on", .bool true), ("lora", .str "style_l"),
            ("strength", .num (.double (Double.ofInt 1))), ("strengthTwo", .null)],
          .obj [], .str ""] := by
  have distinct : (stackingCanvas.nodes.map Node.id).Nodup := by decide
  have unwritten : ∀ n : Node, n.Unwritten (stackingMappings.compile stackingInputs) := by
    intro n a ha
    obtain ⟨t, -, rfl⟩ : ∃ t ∈ stackedEntries.flatMap loraTargets,
        .addLora (pairOfLoaders.entry t) = a := List.mem_map.mp ha
    exact not_false
  obtain ⟨lists, -⟩ := (entries_before_tail distinct).2 stackingMappings [] [] "stack"
    pairOfLoaders stackingInputs stackedEntries rfl rfl
  obtain ⟨result, high', made, highFound, highList⟩ := lists (emptyLoader pairOfLoaders.highNodeId)
    List.mem_cons_self _ ⟨rfl, by decide⟩ (unwritten _)
  obtain ⟨result', low', made', lowFound, lowList⟩ := lists (emptyLoader pairOfLoaders.lowNodeId)
    (List.mem_cons_of_mem _ List.mem_cons_self) _ ⟨rfl, by decide⟩ (unwritten _)
  obtain rfl : result = result' := Option.some.inj (made.symm.trans made')
  exact ⟨distinct, result, high', low', made, highFound, lowFound, highList, lowList⟩

end Graph

end WorkflowGraph
