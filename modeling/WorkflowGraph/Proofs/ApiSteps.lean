/- Applying actions seen from one node of the flat form: every key goes its own way. -/

import WorkflowGraph.Proofs.NodeSteps

set_option autoImplicit false
set_option relaxedAutoImplicit false

/-!
A key stands for the first node that has it. An action does to each such node what the key and the
action say, and nothing to any other node, so a run of actions on the flat form is the run of the
actions on every node by itself.
-/

namespace WorkflowGraph

namespace Assoc

variable {κ : Type} {ν : Type} [DecidableEq κ]

/-- Change the value that each key stands for: of several pairs with one key, that of the first. -/
def mapFirst (f : κ → ν → ν) : List (κ × ν) → List (κ × ν)
  | [] => []
  | (k, v) :: rest => (k, f k v) :: mapFirst (fun j => if j = k then id else f j) rest

private theorem mapFirst_id (l : List (κ × ν)) : mapFirst (fun _ => id) l = l := by
  induction l with
  | nil => rfl
  | cons p rest ih => simp [mapFirst, ih]

private theorem modify_eq_mapFirst (k : κ) (f : ν → ν) (l : List (κ × ν)) :
    modify k f l = mapFirst (fun j => if j = k then f else id) l := by
  induction l with
  | nil => rfl
  | cons p rest ih =>
    by_cases hk : k = p.1
    · have done : (fun j => if j = k then id else if j = k then f else id) = fun _ => (id : ν → ν) := by
        funext j
        split <;> rfl
      rw [modify, mapFirst, if_pos hk, if_pos hk.symm, ← hk, done, mapFirst_id]
    · have later : (fun j => if j = p.1 then id else if j = k then f else id) =
          fun j => if j = k then f else id := by
        funext j
        by_cases hj : j = p.1
        · rw [if_pos hj, if_neg fun h => hk (h.symm.trans hj)]
        · rw [if_neg hj]
      rw [modify, mapFirst, if_neg hk, if_neg (Ne.symm hk), later, ih]
      rfl

theorem mapFirst_mapFirst (f g : κ → ν → ν) (l : List (κ × ν)) :
    mapFirst g (mapFirst f l) = mapFirst (fun k v => g k (f k v)) l := by
  induction l generalizing f g with
  | nil => rfl
  | cons p rest ih =>
    have later : (fun j v => (if j = p.1 then id else g j) ((if j = p.1 then id else f j) v)) =
        fun j => if j = p.1 then id else fun v => g j (f j v) := by
      funext j
      split <;> rfl
    rw [mapFirst, mapFirst, mapFirst, ih, later]

theorem get?_mapFirst (k : κ) (f : κ → ν → ν) (l : List (κ × ν)) :
    get? k (mapFirst f l) = (get? k l).map (f k) := by
  induction l generalizing f with
  | nil => rfl
  | cons p rest ih =>
    by_cases hk : k = p.1
    · simp [mapFirst, get?, hk]
    · simp [mapFirst, get?, hk, ih]

end Assoc

namespace ApiNode

def writeInputs (w : WidgetWrite) (n : ApiNode) : ApiNode :=
  { n with
    inputs := w.names.foldl
      (fun acc k => Assoc.insert k (widgetValue w.value (w.nodeKind.getD n.kind)) acc) n.inputs }

def addEntry (l : LoraEntry) (n : ApiNode) : ApiNode :=
  { n with
    inputs := Assoc.insert (ApiGraph.slotName (ApiGraph.nextSlot n.inputs)) l.input n.inputs }

end ApiNode

/-- What an action does to a node of the flat form that its key stands for. -/
def Action.onKeyed (a : Action) (key : String) (n : ApiNode) : ApiNode :=
  match a with
  | .modifyWidget w => if key = w.nodeId.key then n.writeInputs w else n
  | .addLora l => if key = l.target.key then n.addEntry l else n
  | .toggleMode _ => n
  | .modifyVector _ => n

/-- What actions do to a node of the flat form, one after another. -/
def ApiNode.after (actions : List Action) (key : String) (n : ApiNode) : ApiNode :=
  actions.foldl (fun n a => a.onKeyed key n) n

@[simp] theorem ApiNode.after_cons (a : Action) (actions : List Action) (key : String)
    (n : ApiNode) : n.after (a :: actions) key = (a.onKeyed key n).after actions key := rfl

namespace ApiGraph

private theorem change_eq_mapFirst (id : NodeId) (f : ApiNode → ApiNode × Nat) (g : ApiGraph) :
    (g.change id f).1 =
      ⟨Assoc.mapFirst (fun key n => if key = id.key then (f n).1 else n) g.nodes⟩ := by
  rw [change_fst, Assoc.modify_eq_mapFirst]
  congr 2
  funext key n
  split <;> rfl

theorem applyAction_fst (a : Action) (g : ApiGraph) :
    (g.applyAction a).1 = ⟨Assoc.mapFirst a.onKeyed g.nodes⟩ := by
  cases a with
  | modifyWidget w =>
    rw [applyAction, change_eq_mapFirst]
    congr 2
    funext key n
    -- without names both sides leave the inputs alone
    by_cases none : w.names = [] <;> simp [Action.onKeyed, ApiNode.writeInputs, none]
  | addLora l =>
    rw [applyAction, change_eq_mapFirst]
    rfl
  | toggleMode t => exact congrArg ApiGraph.mk (Assoc.mapFirst_id g.nodes).symm
  | modifyVector v => exact congrArg ApiGraph.mk (Assoc.mapFirst_id g.nodes).symm

end ApiGraph

namespace Graph

/-- Running actions on the flat form is running them on every node by itself. -/
theorem run_api (g : ApiGraph) (actions : List Action) :
    ((api g).run actions).1 = api ⟨Assoc.mapFirst (fun key n => n.after actions key) g.nodes⟩ := by
  suffices h : ∀ (g : ApiGraph) (t : Tally), (actions.foldl runNext (api g, t)).1 =
      api ⟨Assoc.mapFirst (fun key n => n.after actions key) g.nodes⟩ from h g ⟨0, 0⟩
  induction actions with
  | nil => exact fun g t => congrArg (fun nodes => api ⟨nodes⟩) (Assoc.mapFirst_id g.nodes).symm
  | cons a actions ih =>
    intro g t
    have step : runNext (api g, t) a =
        (api (g.applyAction a).1, ⟨t.actions + 1, t.skipped + (g.applyAction a).2⟩) := rfl
    rw [List.foldl_cons, step, ih, ApiGraph.applyAction_fst, Assoc.mapFirst_mapFirst]
    rfl

theorem apiNode?_run (g : ApiGraph) (actions : List Action) (id : NodeId) :
    ((api g).run actions).1.apiNode? id =
      (g.node? id).map fun n => n.after actions id.key := by
  rw [run_api]
  exact Assoc.get?_mapFirst id.key _ g.nodes

end Graph

end WorkflowGraph
