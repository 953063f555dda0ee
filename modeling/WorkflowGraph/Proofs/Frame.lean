/- What actions leave alone: nodes that they are not about, and what they never write. -/

import Mathlib.Data.List.Forall2
import WorkflowGraph.Proofs.NodeSteps

set_option autoImplicit false
set_option relaxedAutoImplicit false

/-!
A graph framed by some node ids has the nodes, links and extras of its template, in their order;
only nodes with these ids differ, and these only in what actions write. Each action frames a graph
by its own targets, so a run of actions does by any ids that hold the targets of all of them.
-/

namespace WorkflowGraph

/-- Two nodes that differ at most in mode, widget values and values of properties. -/
structure Node.SameForm (n n' : Node) : Prop where
  id : n'.id = n.id
  kind : n'.kind = n.kind
  extra : n'.extra = n.extra
  propertyNames : n'.properties.map Assoc.keys = n.properties.map Assoc.keys

/-- A node of a template and what became of it when only some ids may be written to. -/
structure Node.Framed (ids : List NodeId) (n n' : Node) : Prop extends Node.SameForm n n' where
  unnamed : n.id ∉ ids → n' = n

/-- A keyed node of a template and what became of it when only some ids may be written to. -/
structure ApiNode.Framed (ids : List NodeId) (p p' : String × ApiNode) : Prop where
  key : p'.1 = p.1
  kind : p'.2.kind = p.2.kind
  extra : p'.2.extra = p.2.extra
  unnamed : p.1 ∉ ids.map NodeId.key → p' = p

/-- A template and what became of it when only nodes with some ids may be written to. -/
def Graph.Framed (ids : List NodeId) : Graph → Graph → Prop
  | canvas c, canvas c' =>
    List.Forall₂ (Node.Framed ids) c.nodes c'.nodes ∧ c'.links = c.links ∧ c'.extra = c.extra
  | api g, api g' => List.Forall₂ (ApiNode.Framed ids) g.nodes g'.nodes
  | _, _ => False

namespace Node

theorem SameForm.refl (n : Node) : n.SameForm n := ⟨rfl, rfl, rfl, rfl⟩

theorem SameForm.trans {a b c : Node} (h : a.SameForm b) (h' : b.SameForm c) : a.SameForm c :=
  ⟨h'.id.trans h.id, h'.kind.trans h.kind, h'.extra.trans h.extra,
    h'.propertyNames.trans h.propertyNames⟩

private theorem sameForm_of_widgets {n n' : Node} (h : n' = { n with widgets := n'.widgets }) :
    n.SameForm n' := by
  rw [h]
  exact ⟨rfl, rfl, rfl, rfl⟩

private theorem sameForm_writeAxis (n : Node) (property : String) (v : Option Value)
    (indices : List Nat) (kind : String) :
    n.SameForm (n.writeAxis property v indices kind).1 := by
  cases v with
  | none => exact .refl n
  | some v =>
    have written := sameForm_of_widgets (n.writeAt_eq (widgetValue v kind) indices)
    refine written.trans ⟨rfl, rfl, rfl, ?_⟩
    simp only [writeAxis]
    cases (n.writeAt (widgetValue v kind) indices).1.properties with
    | none => rfl
    | some p =>
      cases h : Assoc.contains property p with
      | false => simp [h]
      | true => simp [h, Assoc.keys_insert_of_contains h]

private theorem sameForm_writeVector (n : Node) (w : VectorWrite) :
    n.SameForm (n.writeVector w).1 := by
  have first := n.sameForm_writeAxis "valueX" w.x w.xIndices (w.nodeKind.getD n.kind)
  exact first.trans (sameForm_writeAxis _ "valueY" w.y w.yIndices (w.nodeKind.getD n.kind))

private theorem Framed.refl (ids : List NodeId) (n : Node) :
    n.Framed ids n := ⟨.refl n, fun _ => rfl⟩

private theorem Framed.mono {ids ids' : List NodeId} {n n' : Node} (h : n.Framed ids n')
    (sub : ids ⊆ ids') : n.Framed ids' n' :=
  ⟨h.toSameForm, fun unnamed => h.unnamed fun hm => unnamed (sub hm)⟩

private theorem Framed.trans {ids : List NodeId} {a b c : Node} (h : a.Framed ids b)
    (h' : b.Framed ids c) : a.Framed ids c := by
  refine ⟨h.toSameForm.trans h'.toSameForm, fun unnamed => ?_⟩
  have same : b = a := h.unnamed unnamed
  subst same
  exact h'.unnamed unnamed

private theorem framed_ite {n n' : Node} {id : NodeId} (h : n.SameForm n') :
    n.Framed [id] (if n.id = id then n' else n) := by
  by_cases hid : n.id = id
  · rw [if_pos hid]
    exact ⟨h, fun unnamed => absurd (List.mem_singleton.mpr hid) unnamed⟩
  · rw [if_neg hid]
    exact .refl _ n

end Node

namespace Action

def targets : Action → List NodeId
  | .modifyWidget w => [w.nodeId]
  | .toggleMode t => t.nodeIds ++ t.saveNodeId.toList
  | .addLora l => [l.target]
  | .modifyVector v => [v.nodeId]

theorem framed_onNode (a : Action) (n : Node) : n.Framed a.targets (a.onNode n) := by
  cases a with
  | modifyWidget w => exact Node.framed_ite (Node.sameForm_of_widgets (n.writeWidget_eq w))
  | addLora l => exact Node.framed_ite (Node.sameForm_of_widgets (n.insertLora_eq l))
  | modifyVector v => exact Node.framed_ite (n.sameForm_writeVector v)
  | toggleMode t =>
    have switched : n.Framed (targets (.toggleMode t)) (n.switch t) := by
      by_cases h : n.id ∈ t.nodeIds
      · rw [Node.switch, if_pos h]
        exact ⟨⟨rfl, rfl, rfl, rfl⟩, fun unnamed => absurd (List.mem_append_left _ h) unnamed⟩
      · rw [Node.switch, if_neg h]
        exact .refl _ n
    simp only [onNode]
    by_cases h : t.saveNodeId = some n.id
    · rw [if_pos h]
      refine switched.trans ⟨Node.sameForm_of_widgets (Node.writeSave_eq _ _), fun unnamed => ?_⟩
      exact absurd (by simp [targets, h]) unnamed
    · rw [if_neg h]
      exact switched

end Action

namespace ApiNode.Framed

private theorem refl (ids : List NodeId) (p : String × ApiNode) : Framed ids p p :=
  ⟨rfl, rfl, rfl, fun _ => rfl⟩

private theorem mono {ids ids' : List NodeId} {p p' : String × ApiNode} (h : Framed ids p p')
    (sub : ids ⊆ ids') : Framed ids' p p' := by
  refine ⟨h.key, h.kind, h.extra, fun unnamed => h.unnamed fun hm => unnamed ?_⟩
  exact List.map_subset NodeId.key sub hm

private theorem trans {ids : List NodeId} {p q r : String × ApiNode} (h : Framed ids p q)
    (h' : Framed ids q r) : Framed ids p r := by
  refine ⟨h'.key.trans h.key, h'.kind.trans h.kind, h'.extra.trans h.extra, fun unnamed => ?_⟩
  have same : q = p := h.unnamed unnamed
  subst same
  exact h'.unnamed unnamed

end ApiNode.Framed

private theorem forall₂_trans {α : Type} {r : α → α → Prop} (tr : ∀ x y z, r x y → r y z → r x z)
    {as bs cs : List α} (h : List.Forall₂ r as bs) (h' : List.Forall₂ r bs cs) :
    List.Forall₂ r as cs := by
  induction h generalizing cs with
  | nil =>
    cases h'
    exact .nil
  | cons hab _ ih =>
    cases h' with
    | cons hbc h' => exact .cons (tr _ _ _ hab hbc) (ih h')

private theorem Canvas.forall₂_mapAddressed {r : Node → Node → Prop} {f : Node → Node}
    (refl : ∀ n, r n n) (h : ∀ n, r n (f n)) (nodes : List Node) :
    List.Forall₂ r nodes (mapAddressed f nodes) := by
  induction nodes with
  | nil => exact .nil
  | cons n rest ih =>
    refine .cons ?_ ih
    split
    · exact refl n
    · exact h n

private theorem ApiGraph.forall₂_modify {id : NodeId} {f : ApiNode → ApiNode}
    (h : ∀ n, (f n).kind = n.kind ∧ (f n).extra = n.extra) (nodes : List (String × ApiNode)) :
    List.Forall₂ (ApiNode.Framed [id]) nodes (Assoc.modify id.key f nodes) := by
  induction nodes with
  | nil => exact .nil
  | cons p rest ih =>
    by_cases hk : id.key = p.1
    · rw [Assoc.modify, if_pos hk]
      refine .cons ⟨rfl, (h p.2).1, (h p.2).2, fun unnamed => ?_⟩
        (List.forall₂_same.mpr fun q _ => .refl _ q)
      exact absurd (by simp [hk]) unnamed
    · rw [Assoc.modify, if_neg hk]
      exact .cons (.refl _ p) ih

namespace Graph

private theorem Framed.refl (ids : List NodeId) (g : Graph) : g.Framed ids g := by
  cases g with
  | canvas c => exact ⟨List.forall₂_same.mpr fun n _ => .refl ids n, rfl, rfl⟩
  | api g => exact List.forall₂_same.mpr fun p _ => ApiNode.Framed.refl ids p

private theorem Framed.mono {ids ids' : List NodeId} {g g' : Graph} (h : g.Framed ids g')
    (sub : ids ⊆ ids') : g.Framed ids' g' := by
  cases g <;> cases g'
  · exact ⟨h.1.imp fun _ _ hn => hn.mono sub, h.2⟩
  · exact h
  · exact h
  · exact List.Forall₂.imp (fun _ _ hp => ApiNode.Framed.mono hp sub) h

private theorem Framed.trans {ids : List NodeId} {a b c : Graph} (h : a.Framed ids b)
    (h' : b.Framed ids c) : a.Framed ids c := by
  cases a with
  | canvas a =>
    cases b with
    | api b => exact h.elim
    | canvas b =>
      cases c with
      | api c => exact h'.elim
      | canvas c =>
        obtain ⟨nodes, links, extra⟩ := h
        obtain ⟨nodes', links', extra'⟩ := h'
        refine ⟨forall₂_trans ?_ nodes nodes', links'.trans links, extra'.trans extra⟩
        exact fun _ _ _ => Node.Framed.trans
  | api a =>
    cases b with
    | canvas b => exact h.elim
    | api b =>
      cases c with
      | canvas c => exact h'.elim
      | api c =>
        have trans : ∀ x y z, ApiNode.Framed ids x y → ApiNode.Framed ids y z →
            ApiNode.Framed ids x z := fun _ _ _ => ApiNode.Framed.trans
        exact forall₂_trans trans h h'

private theorem framed_applyAction (a : Action) (g : Graph) :
    g.Framed a.targets (g.applyAction a).1 := by
  cases g with
  | canvas c =>
    have step : ((canvas c).applyAction a).1 =
        canvas { c with nodes := Canvas.mapAddressed a.onNode c.nodes } := by
      rw [← Canvas.applyAction_fst]
      rfl
    rw [step]
    exact ⟨Canvas.forall₂_mapAddressed (Node.Framed.refl _) a.framed_onNode c.nodes, rfl, rfl⟩
  | api g =>
    cases a with
    | modifyWidget w =>
      change List.Forall₂ _ g.nodes (g.change w.nodeId _).1.nodes
      rw [ApiGraph.change_fst]
      apply ApiGraph.forall₂_modify
      intro n
      split <;> exact ⟨rfl, rfl⟩
    | addLora l =>
      change List.Forall₂ _ g.nodes (g.change l.target _).1.nodes
      rw [ApiGraph.change_fst]
      apply ApiGraph.forall₂_modify
      intro n
      exact ⟨rfl, rfl⟩
    | toggleMode t => exact Framed.refl _ (api g)
    | modifyVector v => exact Framed.refl _ (api g)

/-- A run of actions frames a graph by any ids that hold all their targets. -/
theorem framed_run {ids : List NodeId} {actions : List Action}
    (h : ∀ a ∈ actions, a.targets ⊆ ids) (template : Graph) :
    template.Framed ids (template.run actions).1 := by
  refine List.foldlRecOn (motive := fun s : Graph × Tally => template.Framed ids s.1) actions
    runNext (Framed.refl ids template) fun s framed a ha => ?_
  exact framed.trans ((framed_applyAction a s.1).mono (h a ha))

end Graph

end WorkflowGraph
