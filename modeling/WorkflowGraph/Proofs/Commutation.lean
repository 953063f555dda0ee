/- Actions on different nodes commute: only the order of the writes to one same node counts. -/

import Mathlib.Algebra.BigOperators.Group.List.Basic
import WorkflowGraph.Proofs.ApiSteps
import WorkflowGraph.Proofs.Composition
import WorkflowGraph.Proofs.Frame

set_option autoImplicit false
set_option relaxedAutoImplicit false

/-!
An action is a product of changes of single nodes, in the monoid of steps that count what they leave
out and may have no result. Changes of different nodes commute there, counts included, so actions
without a common target do. A list of actions may therefore be put into any order that keeps the order of the actions on
each node.
-/

namespace WorkflowGraph

/-- A step of a state, with the number of writes that it leaves out; it may have no result. -/
@[ext] structure Step (σ : Type) where
  run : σ → Option (σ × Nat)

namespace Step

variable {σ : Type}

instance : One (Step σ) := ⟨⟨fun s => some (s, 0)⟩⟩

/-- One step after another, with the sum of their counts. -/
instance : Mul (Step σ) :=
  ⟨fun f g => ⟨fun s => (f.run s).bind fun p => (g.run p.1).map fun q => (q.1, p.2 + q.2)⟩⟩

@[simp] theorem one_run (s : σ) : (1 : Step σ).run s = some (s, 0) := rfl

private theorem mul_run (f g : Step σ) (s : σ) :
    (f * g).run s = (f.run s).bind fun p => (g.run p.1).map fun q => (q.1, p.2 + q.2) := rfl

instance : Monoid (Step σ) where
  mul_assoc f g h := by
    apply Step.ext
    funext s
    simp only [mul_run, Option.bind_assoc]
    refine Option.bind_congr fun p _ => ?_
    rw [Option.bind_map, Option.map_bind]
    refine Option.bind_congr fun q _ => ?_
    simp only [Function.comp_def, Option.map_map, Nat.add_assoc]
  one_mul f := by
    apply Step.ext
    funext s
    simp only [mul_run, one_run, Option.bind_some, Nat.zero_add]
    exact Option.map_id_apply
  mul_one f := by
    apply Step.ext
    funext s
    exact Option.bind_fun_some (f.run s)

def total (f : σ → σ × Nat) : Step σ := ⟨fun s => some (f s)⟩

private theorem total_mul_run (f g : σ → σ × Nat) (s : σ) :
    (total f * total g).run s = some ((g (f s).1).1, (f s).2 + (g (f s).1).2) := rfl

def leaveOut (count : Nat) : Step σ := total fun s => (s, count)

private theorem commute_leaveOut (f : Step σ) (count : Nat) : Commute f (leaveOut count) := by
  apply Step.ext
  funext s
  rw [mul_run, mul_run]
  cases h : f.run s with
  | none => simp [leaveOut, total, h]
  | some p => simp [leaveOut, total, h, Nat.add_comm]

end Step

private theorem prod_map_eq_of_perm {α M : Type} [Monoid M] (value : α → M) (place : α → Nat)
    {l l' : List α} (perm : l.Perm l') (sorted : l'.Pairwise fun x y => place x < place y)
    (kept : l.Pairwise fun x y => place x < place y ∨ Commute (value x) (value y)) :
    (l.map value).prod = (l'.map value).prod := by
  induction l' generalizing l with
  | nil => rw [perm.eq_nil]
  | cons x l' ih =>
    obtain ⟨first, sorted⟩ := List.pairwise_cons.mp sorted
    obtain ⟨pre, post, rfl⟩ := List.append_of_mem (perm.mem_iff.mpr List.mem_cons_self)
    have rest : (pre ++ post).Perm l' := (List.perm_middle.symm.trans perm).cons_inv
    obtain ⟨keptPre, keptPost, across⟩ := List.pairwise_append.mp kept
    -- whatever stands before the factor with the least place is out of order with it
    have moved : Commute (pre.map value).prod (value x) := by
      apply Commute.list_prod_left
      intro m hm
      obtain ⟨y, hy, rfl⟩ := List.mem_map.mp hm
      rcases across y hy x List.mem_cons_self with before | commute
      · have after := first y (rest.subset (List.mem_append_left post hy))
        omega
      · exact commute
    have keptRest : (pre ++ post).Pairwise fun x y =>
        place x < place y ∨ Commute (value x) (value y) :=
      List.pairwise_append.mpr ⟨keptPre, (List.pairwise_cons.mp keptPost).2,
        fun y hy z hz => across y hy z (List.mem_cons_of_mem x hz)⟩
    calc ((pre ++ x :: post).map value).prod
        = (pre.map value).prod * value x * (post.map value).prod := by
          rw [List.map_append, List.map_cons, List.prod_append, List.prod_cons, mul_assoc]
      _ = value x * ((pre ++ post).map value).prod := by
          rw [moved.eq, mul_assoc, List.map_append, List.prod_append]
      _ = ((x :: l').map value).prod := by
          rw [ih rest sorted keptRest, List.map_cons, List.prod_cons]

/-- A change of the node that an id stands for, with the number of writes that it leaves out. -/
structure Edit where
  target : NodeId
  write : Node → Node × Nat
  keepsId : ∀ n, (write n).1.id = n.id

namespace Edit

def switch (mode : NodeMode) (id : NodeId) : Edit :=
  ⟨id, fun n => ({ n with mode := mode }, 0), fun _ => rfl⟩

def save (enabled : Bool) (id : NodeId) : Edit :=
  ⟨id, (·.writeSave enabled), fun n => by rw [n.writeSave_eq]⟩

end Edit

namespace Action

def Meets (a b : Action) : Prop := ∃ id ∈ a.targets, id ∈ b.targets

instance (a b : Action) : Decidable (a.Meets b) :=
  inferInstanceAs (Decidable (∃ id ∈ a.targets, id ∈ b.targets))

/-- What an action does to a canvas: its changes of single nodes, in order. -/
def edits : Action → List Edit
  | .modifyWidget w => [⟨w.nodeId, (·.writeWidget w), fun n => by rw [n.writeWidget_eq]⟩]
  | .toggleMode t =>
    t.nodeIds.map (Edit.switch t.targetMode) ++ t.saveNodeId.toList.map (Edit.save t.enabled)
  | .addLora l => [⟨l.target, (·.insertLora l), fun n => by rw [n.insertLora_eq]⟩]
  | .modifyVector v => [⟨v.nodeId, (·.writeVector v), fun n => by rw [n.writeVector_eq]⟩]

private theorem map_target_edits (a : Action) : a.edits.map Edit.target = a.targets := by
  cases a with
  | modifyWidget w => rfl
  | addLora l => rfl
  | modifyVector v => rfl
  | toggleMode t =>
    rw [edits, List.map_append, List.map_map, List.map_map, targets]
    congr 1
    · exact List.map_id _
    · exact List.map_id _

end Action

namespace Canvas

private theorem getElem?_of_lastPlace? {id : NodeId} {ids : List NodeId} {i : Nat}
    (h : lastPlace? id ids = some i) : ids[i]? = some id := by
  induction ids generalizing i with
  | nil => exact nomatch h
  | cons id' rest ih =>
    cases hr : lastPlace? id rest with
    | some j =>
      obtain rfl : j + 1 = i := by simpa [lastPlace?, hr] using h
      simpa using ih hr
    | none =>
      obtain ⟨rfl, rfl⟩ : id' = id ∧ 0 = i := by simpa [lastPlace?, hr] using h
      rfl

private theorem change_of_lastPlace? {c : Canvas} {id : NodeId} {i : Nat} {n : Node}
    (place : lastPlace? id (c.nodes.map Node.id) = some i) (there : c.nodes[i]? = some n)
    (f : Node → Node × Nat) :
    c.change id f = ({ c with nodes := c.nodes.set i (f n).1 }, (f n).2) := by
  simp [change, changeLast?_eq, place, there]

private theorem change_of_lastPlace?_eq_none {c : Canvas} {id : NodeId}
    (place : lastPlace? id (c.nodes.map Node.id) = none) (f : Node → Node × Nat) :
    c.change id f = (c, 1) := by
  simp [change, changeLast?_eq, place]

def editing (e : Edit) : Step Canvas := .total (change e.target e.write)

private theorem editing_mul_run_of_absent {e : Edit} {c : Canvas}
    (absent : lastPlace? e.target (c.nodes.map Node.id) = none) (e' : Edit) :
    (editing e * editing e').run c = (editing e' * editing e).run c := by
  have here : c.change e.target e.write = (c, 1) := change_of_lastPlace?_eq_none absent e.write
  have there : (c.change e'.target e'.write).1.change e.target e.write =
      ((c.change e'.target e'.write).1, 1) := by
    apply change_of_lastPlace?_eq_none
    rw [map_id_change e'.keepsId]
    exact absent
  rw [editing, editing, Step.total_mul_run, Step.total_mul_run, here, there, Nat.add_comm]

private theorem commute_editing {e e' : Edit} (other : e.target ≠ e'.target) :
    Commute (editing e) (editing e') := by
  apply Step.ext
  funext c
  cases place : lastPlace? e.target (c.nodes.map Node.id) with
  | none => exact editing_mul_run_of_absent place e'
  | some i =>
    cases place' : lastPlace? e'.target (c.nodes.map Node.id) with
    | none => exact (editing_mul_run_of_absent place' e).symm
    | some j =>
      obtain ⟨n, there, hn⟩ : ∃ n, c.nodes[i]? = some n ∧ n.id = e.target := by
        simpa using getElem?_of_lastPlace? place
      obtain ⟨m, there', hm⟩ : ∃ m, c.nodes[j]? = some m ∧ m.id = e'.target := by
        simpa using getElem?_of_lastPlace? place'
      have apart : i ≠ j := by
        rintro rfl
        have same : n = m := Option.some.inj (there.symm.trans there')
        exact other (hn.symm.trans (same ▸ hm))
      have one := change_of_lastPlace? place there e.write
      have one' := change_of_lastPlace? place' there' e'.write
      have ids := map_id_change e.keepsId e.target c
      have ids' := map_id_change e'.keepsId e'.target c
      rw [one] at ids
      rw [one'] at ids'
      -- neither change moves the other's node or its place
      have two : ({ c with nodes := c.nodes.set i (e.write n).1 } : Canvas).change e'.target e'.write =
          ({ c with nodes := (c.nodes.set i (e.write n).1).set j (e'.write m).1 },
            (e'.write m).2) :=
        change_of_lastPlace? (ids ▸ place') (by rwa [List.getElem?_set_ne apart]) e'.write
      have two' : ({ c with nodes := c.nodes.set j (e'.write m).1 } : Canvas).change e.target e.write =
          ({ c with nodes := (c.nodes.set j (e'.write m).1).set i (e.write n).1 },
            (e.write n).2) :=
        change_of_lastPlace? (ids' ▸ place) (by rwa [List.getElem?_set_ne apart.symm]) e.write
      rw [editing, editing, Step.total_mul_run, Step.total_mul_run, one, one']
      simp only [two, two']
      rw [List.set_comm _ _ apart, Nat.add_comm]

private theorem setModes_eq_prod (mode : NodeMode) (ids : List NodeId) :
    Step.total (setModes mode ids) = ((ids.map (Edit.switch mode)).map editing).prod := by
  induction ids with
  | nil => rfl
  | cons id ids ih =>
    rw [List.map_cons, List.map_cons, List.prod_cons, ← ih]
    rfl

def applying (a : Action) : Step Canvas := .total (applyAction a)

private theorem applying_eq_prod (a : Action) : applying a = (a.edits.map editing).prod := by
  cases a with
  | modifyWidget w => rw [Action.edits, List.map_singleton, List.prod_singleton]; rfl
  | addLora l => rw [Action.edits, List.map_singleton, List.prod_singleton]; rfl
  | modifyVector v => rw [Action.edits, List.map_singleton, List.prod_singleton]; rfl
  | toggleMode t =>
    rw [Action.edits, List.map_append, List.prod_append, ← setModes_eq_prod]
    apply Step.ext
    funext c
    cases hs : t.saveNodeId with
    | none => simp [applying, applyAction, hs, Step.total]
    | some id =>
      rw [Option.toList_some, List.map_singleton, List.map_singleton, List.prod_singleton]
      simp only [applying, applyAction, hs, Step.total]
      rfl

private theorem commute_applying {a b : Action} (apart : ¬ a.Meets b) :
    Commute (applying a) (applying b) := by
  rw [applying_eq_prod, applying_eq_prod]
  apply Commute.list_prod_left
  intro f hf
  apply Commute.list_prod_right
  intro g hg
  obtain ⟨e, he, rfl⟩ := List.mem_map.mp hf
  obtain ⟨e', he', rfl⟩ := List.mem_map.mp hg
  have target : e.target ∈ a.targets := a.map_target_edits ▸ List.mem_map_of_mem he
  have target' : e'.target ∈ b.targets := b.map_target_edits ▸ List.mem_map_of_mem he'
  exact commute_editing fun same => apart ⟨e.target, target, same ▸ target'⟩

end Canvas

private theorem NodeId.key_injective {id id' : NodeId} (h : id.key = id'.key) : id = id' := by
  have digits : Digits.ofInt id.val = Digits.ofInt id'.val := String.ofList_injective h
  have vals : some id.val = some id'.val := by
    rw [← Digits.toInt?_ofInt, digits, Digits.toInt?_ofInt]
  cases id
  cases id'
  cases vals
  rfl

namespace ApiGraph

def editing (id : NodeId) (f : ApiNode → Option (ApiNode × Nat)) : Step ApiGraph where
  run g := match g.node? id with
    | some n => (f n).map fun p => (⟨Assoc.modify id.key (fun _ => p.1) g.nodes⟩, p.2)
    | none => some (g, 1)

def applying (a : Action) : Step ApiGraph where
  run g := if g.lacksSlot a then none else some (g.applyAction a)

private theorem applying_run (a : Action) (g : ApiGraph) :
    (applying a).run g = if g.lacksSlot a then none else some (g.applyAction a) := rfl

private theorem editing_run_of_node? {id : NodeId} {g : ApiGraph} {n : ApiNode}
    (node : g.node? id = some n) (f : ApiNode → Option (ApiNode × Nat)) :
    (editing id f).run g =
      (f n).map fun p => (⟨Assoc.modify id.key (fun _ => p.1) g.nodes⟩, p.2) := by
  simp only [editing, node]

private theorem editing_run_of_node?_eq_none {id : NodeId} {g : ApiGraph} (none : g.node? id = none)
    (f : ApiNode → Option (ApiNode × Nat)) : (editing id f).run g = some (g, 1) := by
  simp only [editing, none]

private theorem change_of_node? {id : NodeId} {g : ApiGraph} {n : ApiNode}
    (node : g.node? id = some n) (f : ApiNode → ApiNode × Nat) :
    g.change id f = (⟨Assoc.modify id.key (fun _ => (f n).1) g.nodes⟩, (f n).2) := by
  have found : Assoc.get? id.key g.nodes = some n := node
  rw [change, found, Assoc.modify_of_get? found]

private theorem change_of_node?_eq_none {id : NodeId} {g : ApiGraph} (none : g.node? id = none)
    (f : ApiNode → ApiNode × Nat) : g.change id f = (g, 1) := by
  have absent : Assoc.get? id.key g.nodes = Option.none := none
  rw [change, absent]

private theorem applying_cases (a : Action) :
    (∃ id ∈ a.targets, ∃ f, applying a = editing id f) ∨ applying a = Step.leaveOut 1 := by
  cases a with
  | modifyWidget w =>
    refine Or.inl ⟨w.nodeId, List.mem_singleton_self _, fun n => some (if w.names.isEmpty then (n, 1)
      else ({ n with inputs := w.names.foldl (fun acc k => Assoc.insert k
        (widgetValue w.value (w.nodeKind.getD n.kind)) acc) n.inputs }, 0)), ?_⟩
    apply Step.ext
    funext g
    cases node : g.node? w.nodeId with
    | none =>
      rw [editing_run_of_node?_eq_none node]
      exact congrArg some (change_of_node?_eq_none node _)
    | some n =>
      rw [editing_run_of_node? node]
      exact congrArg some (change_of_node? node _)
  | addLora l =>
    refine Or.inl ⟨l.target, List.mem_singleton_self _, fun n =>
      if slotBound ≤ nextSlot n.inputs then none
      else some (n.addEntry l, 0), ?_⟩
    apply Step.ext
    funext g
    cases node : g.node? l.target with
    | none =>
      have has : g.lacksSlot (.addLora l) = false := by rw [lacksSlot, node]; rfl
      rw [editing_run_of_node?_eq_none node, applying_run, has]
      exact congrArg some (change_of_node?_eq_none node _)
    | some n =>
      rw [editing_run_of_node? node, applying_run]
      by_cases full : slotBound ≤ nextSlot n.inputs
      · have lacks : g.lacksSlot (.addLora l) = true := by
          rw [lacksSlot, node]
          exact decide_eq_true full
        rw [lacks, if_pos rfl, if_pos full, Option.map_none]
      · have has : g.lacksSlot (.addLora l) = false := by
          rw [lacksSlot, node]
          exact decide_eq_false full
        rw [has, if_neg Bool.false_ne_true, if_neg full, Option.map_some]
        exact congrArg some (change_of_node? node _)
  | toggleMode t => exact Or.inr rfl
  | modifyVector v => exact Or.inr rfl

private theorem node?_modify_of_ne {id id' : NodeId} (other : id' ≠ id) (f : ApiNode → ApiNode)
    (g : ApiGraph) : (ApiGraph.mk (Assoc.modify id.key f g.nodes)).node? id' = g.node? id' :=
  Assoc.get?_modify_of_ne (fun same => other (NodeId.key_injective same)) _ g.nodes

private theorem editing_mul_run_of_absent {id id' : NodeId} (other : id ≠ id') {g : ApiGraph}
    (absent : g.node? id = none) (f f' : ApiNode → Option (ApiNode × Nat)) :
    (editing id f * editing id' f').run g = (editing id' f' * editing id f).run g := by
  rw [Step.mul_run, Step.mul_run, editing_run_of_node?_eq_none absent, Option.bind_some]
  cases node : g.node? id' with
  | none =>
    rw [editing_run_of_node?_eq_none node, Option.bind_some, editing_run_of_node?_eq_none absent]
  | some n =>
    rw [editing_run_of_node? node]
    cases f' n with
    | none => rfl
    | some p =>
      have still : (ApiGraph.mk (Assoc.modify id'.key (fun _ => p.1) g.nodes)).node? id = none :=
        (node?_modify_of_ne other _ g).trans absent
      simp [editing_run_of_node?_eq_none still, Nat.add_comm]

private theorem commute_editing {id id' : NodeId} (other : id ≠ id')
    (f f' : ApiNode → Option (ApiNode × Nat)) : Commute (editing id f) (editing id' f') := by
  have keys : id.key ≠ id'.key := fun same => other (NodeId.key_injective same)
  apply Step.ext
  funext g
  cases node : g.node? id with
  | none => exact editing_mul_run_of_absent other node f f'
  | some n =>
    cases node' : g.node? id' with
    | none => exact (editing_mul_run_of_absent other.symm node' f' f).symm
    | some n' =>
      -- each change still finds its own node behind the other
      have behind (p : ApiNode × Nat) : (editing id' f').run
            ⟨Assoc.modify id.key (fun _ => p.1) g.nodes⟩ = _ :=
        editing_run_of_node? ((node?_modify_of_ne other.symm _ g).trans node') f'
      have behind' (p : ApiNode × Nat) : (editing id f).run
            ⟨Assoc.modify id'.key (fun _ => p.1) g.nodes⟩ = _ :=
        editing_run_of_node? ((node?_modify_of_ne other _ g).trans node) f
      rw [Step.mul_run, Step.mul_run, editing_run_of_node? node, editing_run_of_node? node']
      cases hf : f n with
      | none => cases hf' : f' n' <;> simp [behind', hf]
      | some p =>
        cases hf' : f' n' with
        | none => simp [behind, hf']
        | some p' => simp [behind, behind', hf, hf', Assoc.modify_comm keys, Nat.add_comm]

private theorem commute_applying {a b : Action} (apart : ¬ a.Meets b) :
    Commute (applying a) (applying b) := by
  rcases applying_cases a with ⟨id, target, f, ha⟩ | ha
  · rcases applying_cases b with ⟨id', target', f', hb⟩ | hb
    · rw [ha, hb]
      have other : id ≠ id' := fun same => apart ⟨id, target, same ▸ target'⟩
      exact commute_editing other f f'
    · rw [hb]
      exact Step.commute_leaveOut _ 1
  · rw [ha]
    exact (Step.commute_leaveOut _ 1).symm

end ApiGraph

namespace Graph

def applying (a : Action) : Step Graph where
  run g := if g.lacksSlot a then none else some (g.applyAction a)

private theorem applying_run_canvas (a : Action) (c : Canvas) :
    (applying a).run (canvas c) = ((Canvas.applying a).run c).map (Prod.map canvas id) := rfl

private theorem applying_run_api (a : Action) (g : ApiGraph) :
    (applying a).run (api g) = ((ApiGraph.applying a).run g).map (Prod.map api id) := by
  cases lacks : g.lacksSlot a with
  | true => simp [applying, ApiGraph.applying, lacksSlot, lacks]
  | false =>
    simp only [applying, ApiGraph.applying, lacksSlot, lacks, applyAction]
    rfl

private theorem mul_run_of_form {σ : Type} {form : σ → Graph} {f g : Step Graph} {f' g' : Step σ}
    (hf : ∀ s, f.run (form s) = (f'.run s).map (Prod.map form id))
    (hg : ∀ s, g.run (form s) = (g'.run s).map (Prod.map form id)) (s : σ) :
    (f * g).run (form s) = ((f' * g').run s).map (Prod.map form id) := by
  rw [Step.mul_run, Step.mul_run, hf, Option.bind_map, Option.map_bind]
  refine Option.bind_congr fun p _ => ?_
  simp only [Function.comp_def, Prod.map, hg, Option.map_map]
  rfl

private theorem commute_applying {a b : Action} (apart : ¬ a.Meets b) :
    Commute (applying a) (applying b) := by
  apply Step.ext
  funext g
  cases g with
  | canvas c =>
    rw [mul_run_of_form (applying_run_canvas a) (applying_run_canvas b),
      mul_run_of_form (applying_run_canvas b) (applying_run_canvas a),
      (Canvas.commute_applying apart).eq]
  | api g =>
    rw [mul_run_of_form (applying_run_api a) (applying_run_api b),
      mul_run_of_form (applying_run_api b) (applying_run_api a),
      (ApiGraph.commute_applying apart).eq]

/-- A run of actions is the product of its actions. -/
theorem applyAll_eq_prod (g : Graph) (actions : List Action) :
    g.applyAll actions = (((actions.map applying).prod).run g).map fun s =>
      (s.1, ⟨actions.length, s.2⟩) := by
  induction actions generalizing g with
  | nil => rfl
  | cons a actions ih =>
    have split := g.applyAll_append [a] actions
    rw [List.singleton_append] at split
    rw [split, List.map_cons, List.prod_cons, Step.mul_run]
    cases lacks : g.lacksSlot a with
    | true => simp [applyAll, applyNext, applying, lacks]
    | false =>
      have first : g.applyAll [a] = some ((g.applyAction a).1, ⟨1, (g.applyAction a).2⟩) := by
        simp [applyAll, applyNext, lacks]
      have step : (applying a).run g = some (g.applyAction a) := by
        simp [applying, lacks]
      rw [first, step, Option.bind_some, Option.bind_some, ih, Option.map_map, Option.map_map]
      simp [Function.comp_def, Nat.add_comm]

end Graph

/-- A second list has the actions of a first one in another order, but in the same order those that
are about a common node. Every action carries the place that it has in the first list. -/
def Reorders (actions reordered : List Action) : Prop :=
  ∃ placed : List (Action × Nat), placed.Perm actions.zipIdx ∧ placed.map Prod.fst = reordered ∧
    placed.Pairwise fun p q => p.1.Meets q.1 → p.2 < q.2

private theorem pairwise_zipIdx {α : Type} (l : List α) :
    l.zipIdx.Pairwise fun p q => p.2 < q.2 := by
  rw [← List.pairwise_map, List.zipIdx_map_snd]
  exact List.pairwise_lt_range'

namespace Graph

/-- Only the order of the actions on each node counts: for the graph, for the number of writes that
are left out, and for whether there is a result. -/
theorem applyAll_eq_of_reorders {actions reordered : List Action}
    (h : Reorders actions reordered) (template : Graph) :
    template.applyAll reordered = template.applyAll actions := by
  obtain ⟨placed, perm, rfl, kept⟩ := h
  have products : (placed.map fun p => applying p.1).prod =
      (actions.zipIdx.map fun p => applying p.1).prod := by
    refine prod_map_eq_of_perm (fun p => applying p.1) Prod.snd perm (pairwise_zipIdx actions) ?_
    refine kept.imp fun {p q} h => ?_
    by_cases meets : p.1.Meets q.1
    · exact Or.inl (h meets)
    · exact Or.inr (commute_applying meets)
  have firsts : actions.zipIdx.map (fun p => applying p.1) = actions.map applying := by
    rw [← List.zipIdx_map_fst 0 actions, List.map_map, List.zipIdx_map_fst]
    rfl
  have count : (placed.map Prod.fst).length = actions.length := by
    rw [List.length_map, perm.length_eq, List.length_zipIdx]
  rw [applyAll_eq_prod, applyAll_eq_prod, count, List.map_map, ← firsts, ← products]
  rfl

/-- A sampler, a saving node whose widgets are an object, and a loader. -/
def savingCanvas : Canvas where
  nodes := [
    ⟨⟨3, by decide⟩, "Sampler", .enabled, .arr [.ofNat 0, .ofNat 0], none, []⟩,
    ⟨⟨40, by decide⟩, "Save", .enabled, .obj [("save_output", .bool true)], none, []⟩,
    ⟨⟨20, by decide⟩, "Loader", .enabled, .arr [.obj [], .str ""], none, []⟩]
  links := []
  extra := []

/-- Mute the sampler and stop saving, write to the sampler twice, once beyond its widgets, add an
entry to the loader, and write to a node that does not exist. -/
def savingActions : List Action := [
  .toggleMode ⟨[⟨3, by decide⟩], false, .enabled, .muted, some ⟨40, by decide⟩⟩,
  .modifyWidget ⟨⟨3, by decide⟩, [0, 9], [], .ofNat 5, none⟩,
  .modifyWidget ⟨⟨3, by decide⟩, [0], [], .ofNat 7, none⟩,
  .addLora ⟨⟨21, by decide⟩, ⟨20, by decide⟩, "style_low_.pt", Double.ofInt 1, true, none⟩,
  .modifyWidget ⟨⟨99, by decide⟩, [0], [], .ofNat 1, none⟩]

/-- Places of the actions in an order that keeps the first three as they are. -/
def savingOrder : List Nat := [4, 0, 3, 1, 2]

def placedAt (i : Nat) : Option (Action × Nat) := savingActions[i]?.map fun a => (a, i)

theorem saving_reordered :
    Reorders savingActions ((savingOrder.filterMap placedAt).map Prod.fst) ∧
      ((canvas savingCanvas).applyAll ((savingOrder.filterMap placedAt).map Prod.fst)) =
        (canvas savingCanvas).applyAll savingActions ∧
      ((canvas savingCanvas).applyAll savingActions).map Prod.snd = some ⟨5, 2⟩ := by
  have perm : savingOrder.Perm [0, 1, 2, 3, 4] := by decide
  have kept : (savingOrder.filterMap placedAt).Pairwise
      fun p q => p.1.Meets q.1 → p.2 < q.2 := by decide +kernel
  have reorders : Reorders savingActions ((savingOrder.filterMap placedAt).map Prod.fst) :=
    ⟨savingOrder.filterMap placedAt, perm.filterMap placedAt, rfl, kept⟩
  exact ⟨reorders, applyAll_eq_of_reorders reorders (canvas savingCanvas), by decide +kernel⟩

end Graph

end WorkflowGraph
