/- When an action applies in full, and that nothing is left out exactly when all of them do. -/

import WorkflowGraph.Proofs.Composition
import WorkflowGraph.Proofs.LastWrite

set_option autoImplicit false
set_option relaxedAutoImplicit false

/-!
An action applies in full to a graph if all its nodes are there and take its writes. This is decided
on the graph that the actions before it have made: entries lengthen lists, and writes by name create
members. A run leaves out no write exactly when each of its actions applies in full where it comes.
-/

namespace WorkflowGraph

namespace Node

def items? (n : Node) : Option (List Value) :=
  match n.widgets with
  | .arr items => some items
  | _ => none

def HasSlot (i : Nat) (n : Node) : Prop := ∃ items ∈ n.items?, i < items.length

/-- The widget values take a write: a list at some positions, all of them in the list, or an object
under some names. -/
def Takes (w : WidgetWrite) (n : Node) : Prop :=
  (n.items?.isSome ∧ w.indices ≠ [] ∧ ∀ i ∈ w.indices, n.HasSlot i) ∨
    (n.members?.isSome ∧ w.names ≠ [])

def HasSwitch (n : Node) : Prop := ∃ members ∈ n.members?, "save_output" ∈ Assoc.keys members

def TakesAxes (w : VectorWrite) (n : Node) : Prop :=
  ∀ axis, (w.value? axis).isSome → ∀ i ∈ w.indices axis, n.HasSlot i

private theorem takesAxes_iff (n : Node) (w : VectorWrite) :
    n.TakesAxes w ↔ ((w.value? .x).isSome → ∀ i ∈ w.indices .x, n.HasSlot i) ∧
      ((w.value? .y).isSome → ∀ i ∈ w.indices .y, n.HasSlot i) where
  mp h := ⟨h .x, h .y⟩
  mpr h axis := by
    cases axis with
    | x => exact h.1
    | y => exact h.2

instance (i : Nat) (n : Node) : Decidable (n.HasSlot i) :=
  inferInstanceAs (Decidable (∃ items ∈ n.items?, i < items.length))

instance (w : WidgetWrite) (n : Node) : Decidable (n.Takes w) :=
  inferInstanceAs (Decidable (_ ∨ _))

instance (n : Node) : Decidable n.HasSwitch :=
  inferInstanceAs (Decidable (∃ members ∈ n.members?, "save_output" ∈ Assoc.keys members))

instance (w : VectorWrite) (n : Node) : Decidable (n.TakesAxes w) :=
  decidable_of_iff' _ (n.takesAxes_iff w)

private theorem hasSlot_iff (i : Nat) (n : Node) : n.HasSlot i ↔ (n.slot? i).isSome := by
  cases h : n.widgets <;> simp [HasSlot, items?, slot?, h]

private theorem writeAt_snd_eq_zero_iff (n : Node) (v : Value) (indices : List Nat) :
    (n.writeAt v indices).2 = 0 ↔ ∀ i ∈ indices, n.HasSlot i := by
  cases h : n.widgets with
  | arr items => simp [writeAt, HasSlot, items?, h]
  | _ => simp [writeAt, HasSlot, items?, h, List.eq_nil_iff_forall_not_mem]

private theorem writeWidget_snd_eq_zero_iff (n : Node) (w : WidgetWrite) :
    (n.writeWidget w).2 = 0 ↔ n.Takes w := by
  cases h : n.widgets with
  | arr items =>
    by_cases none : w.indices = []
    · simp [writeWidget, Takes, items?, members?, h, none]
    · simp [writeWidget, writeAt_snd_eq_zero_iff, Takes, items?, members?, h, none]
  | obj members => by_cases none : w.names = [] <;> simp [writeWidget, Takes, items?, members?, h, none]
  | _ => simp [writeWidget, Takes, items?, members?, h]

private theorem writeSave_snd_eq_zero_iff (n : Node) (enabled : Bool) :
    (n.writeSave enabled).2 = 0 ↔ n.HasSwitch := by
  cases h : n.widgets with
  | obj members =>
    rw [writeSave, h]
    simp only [HasSwitch, members?, h, ← Assoc.contains_iff_mem_keys]
    split <;> simp_all
  | _ => simp [writeSave, HasSwitch, members?, h]

private theorem insertLora_snd_eq_zero_iff (n : Node) (l : LoraEntry) :
    (n.insertLora l).2 = 0 ↔ n.items?.isSome := by
  cases h : n.widgets <;> simp [insertLora, items?, h]

private theorem writeAxis_snd_eq_zero_iff (n : Node) (property : String) (v : Option Value)
    (indices : List Nat) (kind : String) :
    (n.writeAxis property v indices kind).2 = 0 ↔ (v.isSome → ∀ i ∈ indices, n.HasSlot i) := by
  cases v with
  | none => simp [writeAxis]
  | some v => simp [writeAxis, writeAt_snd_eq_zero_iff]

private theorem hasSlot_writeAxis (n : Node) (property : String) (v : Option Value)
    (indices : List Nat) (kind : String) (i : Nat) :
    (n.writeAxis property v indices kind).1.HasSlot i ↔ n.HasSlot i := by
  rw [hasSlot_iff, hasSlot_iff, slot?_writeAxis, Option.isSome_map]

private theorem writeVector_snd_eq_zero_iff (n : Node) (w : VectorWrite) :
    (n.writeVector w).2 = 0 ↔ n.TakesAxes w := by
  simp only [takesAxes_iff, writeVector, Nat.add_eq_zero_iff, writeAxis_snd_eq_zero_iff,
    hasSlot_writeAxis]
  rfl

end Node

namespace Canvas

/-- The node that an id stands for: of several nodes with one id, the last. -/
def addressed? (c : Canvas) (id : NodeId) : Option Node := c.nodes.reverse.find? fun n => n.id = id

/-- An action applies in full: its nodes are there and take all its writes. -/
def Applicable (c : Canvas) : Action → Prop
  | .modifyWidget w => ∃ n ∈ c.addressed? w.nodeId, n.Takes w
  | .toggleMode t =>
    (∀ id ∈ t.nodeIds, (c.addressed? id).isSome) ∧
      ∀ id ∈ t.saveNodeId, ∃ n ∈ c.addressed? id, n.HasSwitch
  | .addLora l => ∃ n ∈ c.addressed? l.target, n.items?.isSome
  | .modifyVector w => ∃ n ∈ c.addressed? w.nodeId, n.TakesAxes w

instance (c : Canvas) : (a : Action) → Decidable (c.Applicable a)
  | .modifyWidget w => inferInstanceAs (Decidable (∃ n ∈ c.addressed? w.nodeId, n.Takes w))
  | .toggleMode _ => inferInstanceAs (Decidable (_ ∧ _))
  | .addLora l => inferInstanceAs (Decidable (∃ n ∈ c.addressed? l.target, n.items?.isSome))
  | .modifyVector w => inferInstanceAs (Decidable (∃ n ∈ c.addressed? w.nodeId, n.TakesAxes w))

private theorem find?_reverse_mapAddressed {f : Node → Node} (hf : ∀ n, (f n).id = n.id)
    (id : NodeId) (nodes : List Node) :
    (mapAddressed f nodes).reverse.find? (fun n => n.id = id) =
      (nodes.reverse.find? fun n => n.id = id).map f := by
  induction nodes with
  | nil => rfl
  | cons n rest ih =>
    rw [mapAddressed, List.reverse_cons, List.reverse_cons, List.find?_append, List.find?_append, ih]
    cases later : rest.reverse.find? fun n => n.id = id with
    | some m => rfl
    | none =>
      by_cases own : n.id = id
      · -- no later node has the id, so this one is changed
        have fresh : n.id ∉ rest.map Node.id := by
          intro h
          obtain ⟨m, hm, same⟩ := List.mem_map.mp h
          have other := List.find?_eq_none.mp later m (List.mem_reverse.mpr hm)
          simp [same, own] at other
        rw [if_neg fresh]
        simp [hf, own]
      · have other : (if n.id ∈ rest.map Node.id then n else f n).id ≠ id := by
          split
          · exact own
          · rwa [hf]
        rw [List.find?_cons_of_neg (by rwa [decide_eq_true_eq]),
          List.find?_cons_of_neg (by rwa [decide_eq_true_eq])]
        rfl

private theorem addressed?_mapAddressed {f : Node → Node} (hf : ∀ n, (f n).id = n.id) (c : Canvas)
    (id : NodeId) :
    Canvas.addressed? { c with nodes := mapAddressed f c.nodes } id = (c.addressed? id).map f :=
  find?_reverse_mapAddressed hf id c.nodes

private theorem isSome_addressed? (c : Canvas) (id : NodeId) :
    (c.addressed? id).isSome ↔ id ∈ c.nodes.map Node.id := by
  simp [addressed?]

private theorem changeLast?_snd (id : NodeId) (f : Node → Node × Nat) (nodes : List Node) :
    (changeLast? id f nodes).map Prod.snd =
      (nodes.reverse.find? fun n => n.id = id).map fun n => (f n).2 := by
  induction nodes with
  | nil => rfl
  | cons n rest ih =>
    rw [changeLast?, List.reverse_cons, List.find?_append]
    cases later : changeLast? id f rest with
    | some changed =>
      rw [later] at ih
      obtain ⟨m, found, count⟩ := Option.map_eq_some_iff.mp ih.symm
      simp [found, count]
    | none =>
      rw [later] at ih
      have absent := Option.map_eq_none_iff.mp ih.symm
      by_cases own : n.id = id <;> simp [absent, own]

private theorem change_snd (id : NodeId) (f : Node → Node × Nat) (c : Canvas) :
    (c.change id f).2 = ((c.addressed? id).map fun n => (f n).2).getD 1 := by
  rw [addressed?, ← changeLast?_snd, change]
  cases changeLast? id f c.nodes <;> rfl

private theorem change_snd_eq_zero_iff (id : NodeId) (f : Node → Node × Nat) (c : Canvas) :
    (c.change id f).2 = 0 ↔ ∃ n ∈ c.addressed? id, (f n).2 = 0 := by
  rw [change_snd]
  cases c.addressed? id <;> simp

private theorem setModes_snd_eq_zero_iff (mode : NodeMode) (ids : List NodeId) (c : Canvas) :
    (setModes mode ids c).2 = 0 ↔ ∀ id ∈ ids, (c.addressed? id).isSome := by
  induction ids generalizing c with
  | nil => simp [setModes]
  | cons id ids ih =>
    have same : (c.change id fun n => ({ n with mode := mode }, 0)).1.nodes.map Node.id =
        c.nodes.map Node.id := map_id_change (fun _ => rfl) id c
    simp only [setModes, Nat.add_eq_zero_iff, ih, isSome_addressed?, same, List.forall_mem_cons,
      change_snd_eq_zero_iff]
    rw [← isSome_addressed?]
    simp [Option.isSome_iff_exists]

private theorem hasSwitch_congr {n n' : Node} (h : n'.widgets = n.widgets) :
    n'.HasSwitch ↔ n.HasSwitch := by
  simp only [Node.HasSwitch, Node.members?, h]

private theorem exists_hasSwitch_setModes (mode : NodeMode) (ids : List NodeId) (c : Canvas)
    (id : NodeId) : (∃ n ∈ (setModes mode ids c).1.addressed? id, n.HasSwitch) ↔
      ∃ n ∈ c.addressed? id, n.HasSwitch := by
  rw [setModes_fst, addressed?_mapAddressed]
  · cases c.addressed? id with
    | none => simp
    | some n =>
      have same : (if n.id ∈ ids then { n with mode := mode } else n).widgets = n.widgets := by
        split <;> rfl
      simpa using hasSwitch_congr same
  · intro n
    split <;> rfl

private theorem applyAction_snd_eq_zero_iff (a : Action) (c : Canvas) :
    (c.applyAction a).2 = 0 ↔ c.Applicable a := by
  cases a with
  | modifyWidget w =>
    simp only [applyAction, change_snd_eq_zero_iff, Node.writeWidget_snd_eq_zero_iff, Applicable]
  | addLora l =>
    simp only [applyAction, change_snd_eq_zero_iff, Node.insertLora_snd_eq_zero_iff, Applicable]
  | modifyVector w =>
    simp only [applyAction, change_snd_eq_zero_iff, Node.writeVector_snd_eq_zero_iff, Applicable]
  | toggleMode t =>
    cases hs : t.saveNodeId with
    | none => simp [applyAction, Applicable, hs, setModes_snd_eq_zero_iff]
    | some id =>
      simp only [applyAction, hs, Nat.add_eq_zero_iff, setModes_snd_eq_zero_iff,
        change_snd_eq_zero_iff, Node.writeSave_snd_eq_zero_iff, exists_hasSwitch_setModes]
      simp [Applicable, hs]

end Canvas

namespace ApiGraph

/-- An action applies in full: its node is there, and there are names for a value. Switches and
two-dimensional widgets never apply to the flat form. -/
def Applicable (g : ApiGraph) : Action → Prop
  | .modifyWidget w => (g.node? w.nodeId).isSome ∧ w.names ≠ []
  | .addLora l => (g.node? l.target).isSome
  | .toggleMode _ => False
  | .modifyVector _ => False

instance (g : ApiGraph) : (a : Action) → Decidable (g.Applicable a)
  | .modifyWidget _ => inferInstanceAs (Decidable (_ ∧ _))
  | .addLora l => inferInstanceAs (Decidable ((g.node? l.target).isSome = true))
  | .toggleMode _ => inferInstanceAs (Decidable False)
  | .modifyVector _ => inferInstanceAs (Decidable False)

private theorem applyAction_snd_eq_zero_iff (a : Action) (g : ApiGraph) :
    (g.applyAction a).2 = 0 ↔ g.Applicable a := by
  cases a with
  | modifyWidget w =>
    simp only [applyAction, change, Applicable, node?]
    cases Assoc.get? w.nodeId.key g.nodes with
    | none => simp
    | some n => by_cases none : w.names = [] <;> simp [none]
  | addLora l =>
    simp only [applyAction, change, Applicable, node?]
    cases Assoc.get? l.target.key g.nodes <;> simp
  | toggleMode t => simp [applyAction, Applicable]
  | modifyVector v => simp [applyAction, Applicable]

end ApiGraph

namespace Graph

def Applicable : Graph → Action → Prop
  | canvas c => c.Applicable
  | api g => g.Applicable

instance : (g : Graph) → (a : Action) → Decidable (g.Applicable a)
  | canvas c, a => inferInstanceAs (Decidable (c.Applicable a))
  | api g, a => inferInstanceAs (Decidable (g.Applicable a))

private theorem applyAction_snd_eq_zero_iff (a : Action) (g : Graph) :
    (g.applyAction a).2 = 0 ↔ g.Applicable a := by
  cases g with
  | canvas c => exact c.applyAction_snd_eq_zero_iff a
  | api g => exact g.applyAction_snd_eq_zero_iff a

private theorem skipped_run_eq_zero_iff (template : Graph) (actions : List Action) :
    (template.run actions).2.skipped = 0 ↔ ∀ before a after, actions = before ++ a :: after →
      (template.run before).1.Applicable a := by
  induction actions generalizing template with
  | nil => simp [run]
  | cons a actions ih =>
    rw [run_cons, Nat.add_eq_zero_iff, applyAction_snd_eq_zero_iff, ih]
    constructor
    · rintro ⟨head, rest⟩ before b after split
      cases before with
      | nil =>
        obtain ⟨rfl, -⟩ := List.cons.inj split
        exact head
      | cons c before =>
        obtain ⟨rfl, rfl⟩ := List.cons.inj split
        rw [run_cons]
        exact rest before b after rfl
    · intro all
      refine ⟨all [] a actions rfl, fun before b after split => ?_⟩
      have later := all (a :: before) b after (by rw [split]; rfl)
      rwa [run_cons] at later

/-- Every action applies in full to the graph that the actions before it have made. -/
def Unhindered (template : Graph) (actions : List Action) : Prop :=
  ∀ before a after, actions = before ++ a :: after →
    ∃ s, template.applyAll before = some s ∧ s.1.Applicable a

/-- A run with a result leaves out no write exactly when every action applies in full to the graph
that the actions before it have made. The runs without a result are those that come to an entry for
a node of the flat form that has the largest word as a slot. -/
theorem skipped_eq_zero_iff (template : Graph) (actions : List Action) :
    (∀ result, template.applyAll actions = some result →
      (result.2.skipped = 0 ↔ template.Unhindered actions)) ∧
    (template.applyAll actions = none ↔ template.RunsOut actions) ∧
    ∀ c, template = canvas c → ¬ template.RunsOut actions := by
  refine ⟨fun result made => ?_, template.applyAll_eq_none_iff actions, ?_⟩
  · obtain ⟨slots, rfl⟩ := applyAll_eq_some_iff.mp made
    rw [skipped_run_eq_zero_iff, Unhindered]
    refine forall_congr' fun before => forall_congr' fun a => forall_congr' fun after =>
      imp_congr_right fun split => ?_
    have reached : template.applyAll before = some (template.run before) :=
      applyAll_of_hasSlots ((template.hasSlots_append before _).mp (split ▸ slots)).1
    simp [reached]
  · rintro c rfl out
    exact nomatch ((applyAll_eq_none_iff _ _).mpr out).symm.trans (applyAll_canvas c actions)

/-- An entry applies to a node of the flat form whose slots have run out, and yet there is no count of
what is left out. -/
theorem crowded_run_uncounted :
    (api crowdedGraph).Unhindered [.addLora crowdedEntry] ∧
      ¬ ∃ result, (api crowdedGraph).applyAll [.addLora crowdedEntry] = some result ∧
        result.2.skipped = 0 := by
  constructor
  · intro before a after split
    obtain ⟨rfl, rfl, rfl⟩ : before = [] ∧ a = .addLora crowdedEntry ∧ after = [] := by
      cases before with
      | nil => simpa [eq_comm] using split
      | cons b before => simp at split
    refine ⟨(api crowdedGraph, ⟨0, 0⟩), rfl, ?_⟩
    exact Option.isSome_iff_exists.mpr ⟨crowded, node?_crowdedGraph⟩
  · rintro ⟨result, made, -⟩
    exact nomatch applyAll_crowdedGraph.symm.trans made

/-- A loader with one value, an entry for it, and a write to its second slot. -/
def shortLoader : Graph := canvas ⟨[⟨.small 20, "LoraLoader", .enabled, .arr [.null], none, []⟩], [], []⟩
def loaderEntry : Action := .addLora ⟨.small 20, .small 20, "a", .ofInt 1, true, some .high⟩
def secondWrite : Action := .modifyWidget ⟨.small 20, [1], [], .null, none⟩

/-- The write to the second slot applies once there is an entry. -/
theorem second_write_applies :
    ¬ shortLoader.Applicable secondWrite ∧ shortLoader.Unhindered [loaderEntry, secondWrite] ∧
      ∃ result, shortLoader.applyAll [loaderEntry, secondWrite] = some result ∧
        result.2.skipped = 0 := by
  have made : shortLoader.applyAll [loaderEntry, secondWrite] = some _ := applyAll_canvas _ _
  have none : (shortLoader.run [loaderEntry, secondWrite]).2.skipped = 0 := by decide
  have counted := (skipped_eq_zero_iff shortLoader [loaderEntry, secondWrite]).1 _ made
  exact ⟨by decide, counted.mp none, _, made, none⟩

end Graph

end WorkflowGraph
