/- Applying actions seen from one node: every node of a canvas goes its own way. -/

import WorkflowGraph.Proofs.Runs
import WorkflowGraph.Proofs.Assoc

set_option autoImplicit false
set_option relaxedAutoImplicit false

/-!
An id stands for the last node that has it. An action does to each such node what the node's id and
the action say, and nothing to any other node, so a run of actions on a canvas is the run of the
actions on every node by itself.
-/

namespace WorkflowGraph

namespace Node

theorem writeAt_of_arr {n : Node} {items : List Value} (h : n.widgets = .arr items) (v : Value)
    (indices : List Nat) :
    (n.writeAt v indices).1 =
      { n with widgets := .arr (indices.foldl (fun acc i => acc.set i v) items) } := by
  simp [writeAt, h]

theorem writeAt_of_not_arr {n : Node} (h : ∀ items, n.widgets ≠ .arr items) (v : Value)
    (indices : List Nat) : (n.writeAt v indices).1 = n := by
  cases hw : n.widgets with
  | arr items => exact absurd hw (h items)
  | _ => simp [writeAt, hw]

theorem writeAt_eq (n : Node) (v : Value) (indices : List Nat) :
    (n.writeAt v indices).1 = { n with widgets := (n.writeAt v indices).1.widgets } := by
  simp only [writeAt]
  split <;> rfl

theorem writeWidget_eq (n : Node) (w : WidgetWrite) :
    (n.writeWidget w).1 = { n with widgets := (n.writeWidget w).1.widgets } := by
  unfold writeWidget
  split
  · split
    · rfl
    · exact n.writeAt_eq _ w.indices
  · split <;> rfl
  · rfl

theorem writeSave_eq (n : Node) (enabled : Bool) :
    (n.writeSave enabled).1 = { n with widgets := (n.writeSave enabled).1.widgets } := by
  unfold writeSave
  split
  · split <;> rfl
  · rfl

theorem insertLora_eq (n : Node) (l : LoraEntry) :
    (n.insertLora l).1 = { n with widgets := (n.insertLora l).1.widgets } := by
  unfold insertLora
  split <;> rfl

private theorem writeAxis_eq (n : Node) (property : String) (v : Option Value) (indices : List Nat)
    (kind : String) :
    (n.writeAxis property v indices kind).1 =
      { n with
        widgets := (n.writeAxis property v indices kind).1.widgets
        properties := (n.writeAxis property v indices kind).1.properties } := by
  cases v with
  | none => rfl
  | some v =>
    simp only [writeAxis]
    rw [writeAt_eq]

theorem writeVector_eq (n : Node) (w : VectorWrite) :
    (n.writeVector w).1 =
      { n with
        widgets := (n.writeVector w).1.widgets
        properties := (n.writeVector w).1.properties } := by
  simp only [writeVector]
  rw [writeAxis_eq, writeAxis_eq n]

end Node

/-- The node with the mode of a toggle, if the toggle lists it. -/
def Node.switch (t : ModeToggle) (n : Node) : Node :=
  if n.id ∈ t.nodeIds then { n with mode := t.targetMode } else n

@[simp] theorem Node.switch_id (n : Node) (t : ModeToggle) : (n.switch t).id = n.id := by
  unfold switch
  split <;> rfl

@[simp] theorem Node.switch_widgets (n : Node) (t : ModeToggle) :
    (n.switch t).widgets = n.widgets := by
  unfold switch
  split <;> rfl

@[simp] theorem Node.switch_properties (n : Node) (t : ModeToggle) :
    (n.switch t).properties = n.properties := by
  unfold switch
  split <;> rfl

namespace Action

def onNode (a : Action) (n : Node) : Node :=
  match a with
  | .modifyWidget w => if n.id = w.nodeId then (n.writeWidget w).1 else n
  | .toggleMode t =>
    if t.saveNodeId = some n.id then ((n.switch t).writeSave t.enabled).1 else n.switch t
  | .addLora l => if n.id = l.target then (n.insertLora l).1 else n
  | .modifyVector v => if n.id = v.nodeId then (n.writeVector v).1 else n

@[simp] theorem onNode_id (a : Action) (n : Node) : (a.onNode n).id = n.id := by
  cases a with
  | modifyWidget w =>
    simp only [onNode]
    split
    · rw [Node.writeWidget_eq]
    · rfl
  | toggleMode t =>
    simp only [onNode]
    split
    · rw [Node.writeSave_eq, Node.switch_id]
    · exact n.switch_id t
  | addLora l =>
    simp only [onNode]
    split
    · rw [Node.insertLora_eq]
    · rfl
  | modifyVector v =>
    simp only [onNode]
    split
    · rw [Node.writeVector_eq]
    · rfl

end Action

def Node.after (actions : List Action) (n : Node) : Node :=
  actions.foldl (fun n a => a.onNode n) n

@[simp] theorem Node.after_nil (n : Node) : n.after [] = n := rfl

@[simp] theorem Node.after_cons (a : Action) (actions : List Action) (n : Node) :
    n.after (a :: actions) = (a.onNode n).after actions := rfl

@[simp] theorem Node.after_id (actions : List Action) (n : Node) : (n.after actions).id = n.id := by
  induction actions generalizing n with
  | nil => rfl
  | cons a actions ih => rw [after_cons, ih, Action.onNode_id]

namespace Canvas

/-- Change every node that its id stands for: of several nodes with one id, the last. -/
def mapAddressed (f : Node → Node) : List Node → List Node
  | [] => []
  | n :: rest => (if n.id ∈ rest.map Node.id then n else f n) :: mapAddressed f rest

variable {f g : Node → Node}

theorem map_id_mapAddressed (hf : ∀ n, (f n).id = n.id) (nodes : List Node) :
    (mapAddressed f nodes).map Node.id = nodes.map Node.id := by
  induction nodes with
  | nil => rfl
  | cons n rest ih =>
    have head : (if n.id ∈ rest.map Node.id then n else f n).id = n.id := by
      split
      · rfl
      · exact hf n
    rw [mapAddressed, List.map_cons, List.map_cons, ih, head]

private theorem mapAddressed_eq_map {nodes : List Node} (distinct : (nodes.map Node.id).Nodup) :
    mapAddressed f nodes = nodes.map f := by
  induction nodes with
  | nil => rfl
  | cons n rest ih =>
    obtain ⟨fresh, distinct⟩ := List.nodup_cons.mp distinct
    rw [mapAddressed, if_neg fresh, ih distinct, List.map_cons]

private theorem find?_id_of_mem {nodes : List Node} (distinct : (nodes.map Node.id).Nodup)
    {n : Node} (hn : n ∈ nodes) : nodes.find? (fun m => m.id = n.id) = some n := by
  induction nodes with
  | nil => exact absurd hn List.not_mem_nil
  | cons m rest ih =>
    obtain ⟨fresh, distinct⟩ := List.nodup_cons.mp distinct
    rcases List.mem_cons.mp hn with rfl | hn
    · simp
    · have other : m.id ≠ n.id := fun he => fresh (he ▸ List.mem_map_of_mem hn)
      rw [List.find?_cons_of_neg (by simpa using other)]
      exact ih distinct hn

theorem mapAddressed_comp (hf : ∀ n, (f n).id = n.id) (nodes : List Node) :
    mapAddressed g (mapAddressed f nodes) = mapAddressed (fun n => g (f n)) nodes := by
  induction nodes with
  | nil => rfl
  | cons n rest ih =>
    simp only [mapAddressed, ih, map_id_mapAddressed hf]
    by_cases h : n.id ∈ rest.map Node.id
    · simp only [if_pos h]
    · simp only [if_neg h, hf]

private theorem mapAddressed_of_forall_mem {nodes : List Node} (h : ∀ n ∈ nodes, f n = n) :
    mapAddressed f nodes = nodes := by
  induction nodes with
  | nil => rfl
  | cons n rest ih =>
    have head : f n = n := h n List.mem_cons_self
    have tail := ih fun m hm => h m (List.mem_cons_of_mem n hm)
    simp only [mapAddressed, head, tail, ite_self]

private theorem changeLast?_cases (id : NodeId) (f : Node → Node × Nat) (nodes : List Node) :
    (changeLast? id f nodes = none ∧ id ∉ nodes.map Node.id) ∨
      ∃ skipped, id ∈ nodes.map Node.id ∧ changeLast? id f nodes =
        some (mapAddressed (fun n => if n.id = id then (f n).1 else n) nodes, skipped) := by
  induction nodes with
  | nil => exact Or.inl ⟨rfl, List.not_mem_nil⟩
  | cons n rest ih =>
    -- the first node counts only if no later one has the id
    rcases ih with ⟨hc, absent⟩ | ⟨skipped, present, hc⟩
    · by_cases hn : n.id = id
      · right
        refine ⟨(f n).2, by simp [hn], ?_⟩
        have others : mapAddressed (fun n => if n.id = id then (f n).1 else n) rest = rest := by
          apply mapAddressed_of_forall_mem
          intro m hm
          have : m.id ≠ id := fun he => absent (he ▸ List.mem_map_of_mem hm)
          exact if_neg this
        have fresh : n.id ∉ rest.map Node.id := hn ▸ absent
        simp only [changeLast?, hc, if_pos hn, mapAddressed, if_neg fresh, others]
      · left
        refine ⟨by simp only [changeLast?, hc, if_neg hn], ?_⟩
        intro hm
        rcases List.mem_cons.mp hm with he | hm
        · exact hn he.symm
        · exact absent hm
    · right
      refine ⟨skipped, List.mem_cons_of_mem n.id present, ?_⟩
      have head : (if n.id ∈ rest.map Node.id then n else
          if n.id = id then (f n).1 else n) = n := by
        by_cases hn : n.id = id
        · rw [if_pos (hn ▸ present)]
        · rw [if_neg hn, ite_self]
      simp only [changeLast?, hc, mapAddressed, head]

theorem change_fst (id : NodeId) (f : Node → Node × Nat) (c : Canvas) :
    (c.change id f).1 =
      { c with nodes := mapAddressed (fun n => if n.id = id then (f n).1 else n) c.nodes } := by
  rcases changeLast?_cases id f c.nodes with ⟨hc, absent⟩ | ⟨skipped, -, hc⟩
  · have same : mapAddressed (fun n => if n.id = id then (f n).1 else n) c.nodes = c.nodes := by
      apply mapAddressed_of_forall_mem
      intro n hn
      have : n.id ≠ id := fun he => absent (he ▸ List.mem_map_of_mem hn)
      exact if_neg this
    simp only [change, hc, same]
  · simp only [change, hc]

theorem setModes_fst (mode : NodeMode) (ids : List NodeId) (c : Canvas) :
    (setModes mode ids c).1 =
      { c with
        nodes := mapAddressed (fun n => if n.id ∈ ids then { n with mode := mode } else n)
          c.nodes } := by
  induction ids generalizing c with
  | nil =>
    have same : mapAddressed (fun n => n) c.nodes = c.nodes :=
      mapAddressed_of_forall_mem fun _ _ => rfl
    simp [setModes, same]
  | cons id ids ih =>
    simp only [setModes, ih, change_fst]
    rw [mapAddressed_comp]
    · congr 2
      funext n
      by_cases hn : n.id = id
      · simp [hn]
      · simp [hn]
    · intro n
      split <;> rfl

theorem applyAction_fst (a : Action) (c : Canvas) :
    (c.applyAction a).1 = { c with nodes := mapAddressed a.onNode c.nodes } := by
  cases a with
  | modifyWidget w => exact change_fst _ _ c
  | addLora l => exact change_fst _ _ c
  | modifyVector v => exact change_fst _ _ c
  | toggleMode t =>
    cases hs : t.saveNodeId with
    | none =>
      have same : (Action.toggleMode t).onNode = Node.switch t := by
        funext n
        simp [Action.onNode, hs]
      simp only [applyAction, hs, setModes_fst, same]
      rfl
    | some id =>
      simp only [applyAction, hs, setModes_fst, change_fst]
      rw [mapAddressed_comp]
      · congr 2
        funext n
        have swap : (n.switch t).id = id ↔ id = n.id := by rw [Node.switch_id, eq_comm]
        simp only [Action.onNode, hs, Option.some.injEq, ← swap]
        rfl
      · exact fun n => n.switch_id t

end Canvas

namespace Graph

/-- Running actions on a canvas is running them on every node by itself. -/
theorem run_canvas (c : Canvas) (actions : List Action) :
    ((canvas c).run actions).1 =
      canvas { c with nodes := Canvas.mapAddressed (Node.after actions) c.nodes } := by
  suffices h : ∀ (c : Canvas) (t : Tally),
      (actions.foldl runNext (canvas c, t)).1 =
        canvas { c with nodes := Canvas.mapAddressed (Node.after actions) c.nodes } from
    h c ⟨0, 0⟩
  induction actions with
  | nil =>
    intro c t
    have same : Canvas.mapAddressed (Node.after []) c.nodes = c.nodes :=
      Canvas.mapAddressed_of_forall_mem fun n _ => n.after_nil
    simp [same]
  | cons a actions ih =>
    intro c t
    have step : runNext (canvas c, t) a =
        (canvas (c.applyAction a).1, ⟨t.actions + 1, t.skipped + (c.applyAction a).2⟩) := rfl
    rw [List.foldl_cons, step, ih, Canvas.applyAction_fst]
    simp only [Canvas.mapAddressed_comp (Action.onNode_id a)]
    rfl

private theorem canvasNode?_run {c : Canvas} (distinct : (c.nodes.map Node.id).Nodup)
    (actions : List Action) {n : Node} (hn : n ∈ c.nodes) :
    ((canvas c).run actions).1.canvasNode? n.id = some (n.after actions) := by
  rw [run_canvas, Canvas.mapAddressed_eq_map distinct]
  have ids : (c.nodes.map (Node.after actions)).map Node.id = c.nodes.map Node.id := by
    rw [List.map_map]
    exact List.map_congr_left fun m _ => m.after_id actions
  have mem : n.after actions ∈ c.nodes.map (Node.after actions) := List.mem_map_of_mem hn
  have found := Canvas.find?_id_of_mem (ids ▸ distinct) mem
  rw [Node.after_id] at found
  exact found

theorem exists_canvasNode?_applyAll {c : Canvas} (distinct : (c.nodes.map Node.id).Nodup)
    (actions : List Action) {n : Node} (hn : n ∈ c.nodes) :
    ∃ result, (canvas c).applyAll actions = some result ∧
      result.1.canvasNode? n.id = some (n.after actions) :=
  ⟨_, applyAll_canvas c actions, canvasNode?_run distinct actions hn⟩

end Graph

namespace ApiGraph

theorem change_fst (id : NodeId) (f : ApiNode → ApiNode × Nat) (g : ApiGraph) :
    (g.change id f).1 = ⟨Assoc.modify id.key (fun n => (f n).1) g.nodes⟩ := by
  unfold change
  split
  · rename_i n hn
    rw [Assoc.modify_of_get? hn]
  · rename_i hn
    rw [Assoc.modify_of_get?_eq_none hn]

end ApiGraph

end WorkflowGraph
