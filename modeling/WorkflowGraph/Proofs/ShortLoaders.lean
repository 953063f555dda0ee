/- Entries that are added to loaders of any length, also to lists too short to have a tail. -/

import WorkflowGraph.Proofs.LoraEntries

set_option autoImplicit false
set_option relaxedAutoImplicit false

/-!
An entry goes before the last two values of a list, and to the end of a list that has fewer. So the
entries that fill a short list up become its tail: they stay behind everything that comes later. The
values of the list keep their order in any case, and so do the entries of each of the two groups.
-/

namespace WorkflowGraph

/-- A list with more values that were added one by one: at the end while the list is shorter than a
tail, and before the tail from then on. -/
def stacked (items added : List Value) : List Value :=
  beforeTail (items ++ added.take (Node.tailLength - items.length))
    (added.drop (Node.tailLength - items.length))

private theorem stacked_nil (items : List Value) : stacked items [] = items := by
  simp [stacked, beforeTail]

private theorem stacked_of_long {items : List Value} (long : Node.tailLength ≤ items.length)
    (added : List Value) : stacked items added = beforeTail items added := by
  simp [stacked, Nat.sub_eq_zero_of_le long]

private theorem stacked_cons_of_short {items : List Value} (short : items.length < Node.tailLength)
    (v : Value) (added : List Value) :
    stacked items (v :: added) = stacked (items ++ [v]) added := by
  obtain ⟨missing, rest⟩ : ∃ missing, Node.tailLength - items.length = missing + 1 :=
    ⟨Node.tailLength - items.length - 1, by omega⟩
  have next : Node.tailLength - (items ++ [v]).length = missing := by
    rw [List.length_append, List.length_singleton]
    omega
  rw [stacked, stacked, next, rest, List.take_succ_cons, List.drop_succ_cons, List.append_assoc,
    List.singleton_append]

private theorem stacked_of_short {items : List Value} (short : items.length < Node.tailLength)
    (added : List Value) :
    stacked items added = added.drop (Node.tailLength - items.length) ++ items ++
      added.take (Node.tailLength - items.length) := by
  by_cases few : added.length ≤ Node.tailLength - items.length
  · simp [stacked, beforeTail, List.drop_eq_nil_of_le few, List.take_of_length_le few]
  · have full : (items ++ added.take (Node.tailLength - items.length)).length - Node.tailLength =
        0 := by
      rw [List.length_append, List.length_take]
      omega
    rw [stacked, beforeTail, full, List.take_zero, List.drop_zero, List.nil_append,
      List.append_assoc]

private theorem sublist_beforeTail (items added : List Value) :
    items.Sublist (beforeTail items added) := by
  conv_lhs => rw [← List.take_append_drop (items.length - Node.tailLength) items]
  exact (List.sublist_append_left _ added).append_right _

private theorem sublist_stacked (items added : List Value) : items.Sublist (stacked items added) :=
  (List.sublist_append_left items _).trans (sublist_beforeTail _ _)

private theorem perm_beforeTail (items added : List Value) :
    (beforeTail items added).Perm (items ++ added) := by
  have tail : (added ++ items.drop (items.length - Node.tailLength)).Perm
      (items.drop (items.length - Node.tailLength) ++ added) := List.perm_append_comm
  conv_rhs => rw [← List.take_append_drop (items.length - Node.tailLength) items]
  rw [beforeTail, List.append_assoc, List.append_assoc]
  exact tail.append_left _

private theorem perm_stacked (items added : List Value) :
    (stacked items added).Perm (items ++ added) := by
  have all := perm_beforeTail (items ++ added.take (Node.tailLength - items.length))
    (added.drop (Node.tailLength - items.length))
  rwa [List.append_assoc, List.take_append_drop] at all

private theorem added_sublist_stacked {items added : List Value}
    (h : Node.tailLength ≤ items.length ∨ items.length + added.length ≤ Node.tailLength) :
    added.Sublist (stacked items added) := by
  by_cases long : Node.tailLength ≤ items.length
  · rw [stacked_of_long long, beforeTail]
    exact (List.sublist_append_right _ added).trans (List.sublist_append_left _ _)
  · have few : added.length ≤ Node.tailLength - items.length := by omega
    rw [stacked_of_short (by omega), List.take_of_length_le few]
    exact List.sublist_append_right _ added

namespace Node

private theorem insertLora_widgets_of_short {n : Node} {items : List Value}
    (hn : n.widgets = .arr items) (short : items.length < tailLength) (l : LoraEntry) :
    (n.insertLora l).1.widgets = .arr (items ++ [l.widget]) := by
  simp [insertLora, hn, Nat.not_le.mpr short]

private theorem widgets_after_eq_stacked {actions : List Action} {n : Node} {items : List Value}
    (hn : n.widgets = .arr items) (unwritten : n.Unwritten actions) :
    (n.after actions).widgets =
      .arr (stacked items ((actions.filterMap (Action.entryFor? n)).map LoraEntry.widget)) := by
  induction actions generalizing n items with
  | nil => simpa [stacked_nil] using hn
  | cons a actions ih =>
    by_cases long : tailLength ≤ items.length
    · -- a list that has a tail keeps it for the rest of the run
      rw [stacked_of_long long]
      exact IsLoader.after ⟨hn, long⟩ unwritten
    · have head := widgets_onNode_of_not_writes hn (unwritten a List.mem_cons_self)
      have rest : (a.onNode n).Unwritten actions := by
        intro b hb
        rw [Action.writes_onNode]
        exact unwritten b (List.mem_cons_of_mem a hb)
      cases he : a.entryFor? n with
      | none =>
        rw [he] at head
        rw [after_cons, ih (head.trans hn) rest, Action.entryFor?_onNode,
          List.filterMap_cons_none he]
      | some l =>
        rw [he] at head
        have grown := head.trans (insertLora_widgets_of_short hn (Nat.not_le.mp long) l)
        rw [after_cons, ih grown rest, Action.entryFor?_onNode, List.filterMap_cons_some he,
          List.map_cons, stacked_cons_of_short (Nat.not_le.mp long)]

end Node

namespace Graph

/-- A list of any length that no action writes to ends up with its values in their order and with all
its entries. With a tail it has the entries before the tail, in the order of the actions. Without one
it has first the entries that found it full, then its own values, then the entries that filled it
up, each of the two groups in the order of the actions. So the entries are in order unless some of
them filled the list up and others followed. -/
theorem entries_around_short_list {c : Canvas} (distinct : (c.nodes.map Node.id).Nodup)
    (actions : List Action) {n : Node} (hn : n ∈ c.nodes) {items added : List Value}
    (list : n.widgets = .arr items) (unwritten : n.Unwritten actions)
    (entries : added = (actions.filterMap (Action.entryFor? n)).map LoraEntry.widget) :
    ∃ result n' items', (canvas c).applyAll actions = some result ∧
      result.1.canvasNode? n.id = some n' ∧ n'.widgets = .arr items' ∧
      items.Sublist items' ∧ items'.Perm (items ++ added) ∧
      (Node.tailLength ≤ items.length → items' = beforeTail items added) ∧
      (items.length < Node.tailLength →
        items' = added.drop (Node.tailLength - items.length) ++ items ++
          added.take (Node.tailLength - items.length)) ∧
      (Node.tailLength ≤ items.length ∨ items.length + added.length ≤ Node.tailLength →
        added.Sublist items') := by
  obtain ⟨result, made, found⟩ := exists_canvasNode?_applyAll distinct actions hn
  refine ⟨result, n.after actions, stacked items added, made, found, ?_,
    sublist_stacked items added, perm_stacked items added, fun long => stacked_of_long long added,
    fun short => stacked_of_short short added, added_sublist_stacked⟩
  rw [Node.widgets_after_eq_stacked list unwritten, entries]

def loaderOf (items : List Value) : Node :=
  ⟨.small 20, "LoraLoader", .enabled, .arr items, none, []⟩

def entryOf (path : String) : LoraEntry :=
  ⟨.small 20, .small 20, path, defaultStrength, true, some .high⟩

/-- On a list of one value the first entry becomes the tail together with that value. -/
theorem one_value_stacked :
    ∃ result n' items', (canvas ⟨[loaderOf [.obj []]], [], []⟩).applyAll
        [.addLora (entryOf "a"), .addLora (entryOf "b"), .addLora (entryOf "c")] = some result ∧
      result.1.canvasNode? (.small 20) = some n' ∧ n'.widgets = .arr items' ∧
      items' = [(entryOf "b").widget, (entryOf "c").widget, .obj [], (entryOf "a").widget] := by
  have distinct : ([loaderOf [.obj []]].map Node.id).Nodup := by decide
  have unwritten : (loaderOf [.obj []]).Unwritten
      [.addLora (entryOf "a"), .addLora (entryOf "b"), .addLora (entryOf "c")] := by
    simp [Node.Unwritten, Action.Writes]
  obtain ⟨result, n', items', made, found, list, -, -, -, short, -⟩ :=
    entries_around_short_list (c := ⟨[loaderOf [.obj []]], [], []⟩) distinct
      [.addLora (entryOf "a"), .addLora (entryOf "b"), .addLora (entryOf "c")]
      List.mem_cons_self rfl unwritten rfl
  exact ⟨result, n', items', made, found, list, short (by decide)⟩

/-- On an empty list the first two entries become the tail, so a third one comes to stand before
them: the entries are not in the order of the actions. -/
theorem third_entry_first :
    ([loaderOf []].map Node.id).Nodup ∧
      (∀ path : String, (entryOf path).target = (loaderOf []).id) ∧
      ∃ result n' items', (canvas ⟨[loaderOf []], [], []⟩).applyAll
          [.addLora (entryOf "a"), .addLora (entryOf "b"), .addLora (entryOf "c")] = some result ∧
        result.1.canvasNode? (loaderOf []).id = some n' ∧ n'.widgets = .arr items' ∧
        items' = [(entryOf "c").widget, (entryOf "a").widget, (entryOf "b").widget] ∧
        ¬ [(entryOf "a").widget, (entryOf "b").widget, (entryOf "c").widget].Sublist items' := by
  refine ⟨by decide, fun _ => rfl, _, _,
    [(entryOf "c").widget, (entryOf "a").widget, (entryOf "b").widget], rfl, rfl, rfl, rfl, ?_⟩
  intro ordered
  have same := ordered.eq_of_length rfl
  simp [LoraEntry.widget, entryOf] at same

end Graph

end WorkflowGraph
