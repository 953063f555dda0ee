/- Applying actions in parts, and with the places of all nodes looked up once for a whole run. -/

import WorkflowGraph.Proofs.NodeSteps

set_option autoImplicit false
set_option relaxedAutoImplicit false

/-!
A run of actions goes on from the graph where an earlier run ended, and the counts of the two runs
add up. The places of nodes may be looked up once, in the template: no action changes an id or moves
a node, so these are the places in every graph that the run goes through.
-/

namespace WorkflowGraph

namespace Canvas

/-- The place of every id in a list of ids: of several equal ids, that of the last. -/
def places (ids : List NodeId) : List (NodeId × Nat) := Assoc.ofList ids.zipIdx

/-- Change the node at the place that a table has for an id. -/
def changeAt (table : List (NodeId × Nat)) (id : NodeId) (f : Node → Node × Nat) (c : Canvas) :
    Canvas × Nat :=
  match (Assoc.get? id table).bind fun i =>
    c.nodes[i]?.map fun n => (c.nodes.set i (f n).1, (f n).2) with
  | some (nodes, skipped) => ({ c with nodes := nodes }, skipped)
  | none => (c, 1)

/-- Set the mode of one node after another, by a table of places. -/
def setModesAt (table : List (NodeId × Nat)) (mode : NodeMode) :
    List NodeId → Canvas → Canvas × Nat
  | [], c => (c, 0)
  | id :: rest, c =>
    let (c, a) := c.changeAt table id fun n => ({ n with mode := mode }, 0)
    let (c, b) := setModesAt table mode rest c
    (c, a + b)

def applyActionAt (table : List (NodeId × Nat)) (a : Action) (c : Canvas) : Canvas × Nat :=
  match a with
  | .modifyWidget w => c.changeAt table w.nodeId fun n => n.writeWidget w
  | .toggleMode t =>
    let (c, a) := setModesAt table t.targetMode t.nodeIds c
    match t.saveNodeId with
    | none => (c, a)
    | some id =>
      let (c, b) := c.changeAt table id fun n => n.writeSave t.enabled
      (c, a + b)
  | .addLora l => c.changeAt table l.target fun n => n.insertLora l
  | .modifyVector v => c.changeAt table v.nodeId fun n => n.writeVector v

def lastPlace? (id : NodeId) : List NodeId → Option Nat
  | [] => none
  | id' :: rest =>
    match lastPlace? id rest with
    | some i => some (i + 1)
    | none => if id' = id then some 0 else none

private theorem get?_reverse_zipIdx (id : NodeId) (ids : List NodeId) (start : Nat) :
    Assoc.get? id (ids.zipIdx start).reverse = (lastPlace? id ids).map (start + ·) := by
  induction ids generalizing start with
  | nil => rfl
  | cons id' rest ih =>
    rw [List.zipIdx_cons, List.reverse_cons, Assoc.get?_append, ih]
    cases h : lastPlace? id rest with
    | some i =>
      have shift : start + 1 + i = start + (i + 1) := by omega
      simp [lastPlace?, h, shift]
    | none =>
      by_cases hid : id' = id
      · simp [lastPlace?, h, hid, Assoc.get?]
      · simp [lastPlace?, h, hid, Assoc.get?, Ne.symm hid]

private theorem get?_places (id : NodeId) (ids : List NodeId) :
    Assoc.get? id (places ids) = lastPlace? id ids := by
  rw [places, Assoc.get?_ofList, get?_reverse_zipIdx]
  cases lastPlace? id ids <;> simp

private theorem lt_length_of_lastPlace? {id : NodeId} {ids : List NodeId} {i : Nat}
    (h : lastPlace? id ids = some i) : i < ids.length := by
  induction ids generalizing i with
  | nil => exact nomatch h
  | cons id' rest ih =>
    cases hr : lastPlace? id rest with
    | some j =>
      have later := ih hr
      obtain rfl : j + 1 = i := by simpa [lastPlace?, hr] using h
      simp only [List.length_cons]
      omega
    | none =>
      obtain ⟨-, rfl⟩ : id' = id ∧ 0 = i := by simpa [lastPlace?, hr] using h
      simp

theorem changeLast?_eq (id : NodeId) (f : Node → Node × Nat) (nodes : List Node) :
    changeLast? id f nodes = (lastPlace? id (nodes.map Node.id)).bind fun i =>
      nodes[i]?.map fun n => (nodes.set i (f n).1, (f n).2) := by
  induction nodes with
  | nil => rfl
  | cons n rest ih =>
    rw [changeLast?, ih]
    cases h : lastPlace? id (rest.map Node.id) with
    | none => by_cases hn : n.id = id <;> simp [lastPlace?, h, hn]
    | some i =>
      have bound : i < rest.length := by simpa using lt_length_of_lastPlace? h
      simp [lastPlace?, h, List.getElem?_eq_getElem bound]

private theorem changeAt_places {ids : List NodeId} {c : Canvas} (h : c.nodes.map Node.id = ids)
    (id : NodeId) (f : Node → Node × Nat) : c.changeAt (places ids) id f = c.change id f := by
  have found := changeLast?_eq id f c.nodes
  rw [h, ← get?_places] at found
  cases last : changeLast? id f c.nodes with
  | none =>
    rw [last] at found
    simp only [changeAt, change, last, ← found]
  | some changed =>
    rw [last] at found
    simp only [changeAt, change, last, ← found]

theorem map_id_change {f : Node → Node × Nat} (hf : ∀ n, (f n).1.id = n.id) (id : NodeId)
    (c : Canvas) : (c.change id f).1.nodes.map Node.id = c.nodes.map Node.id := by
  rw [change_fst]
  apply map_id_mapAddressed
  intro n
  split
  · exact hf n
  · rfl

private theorem setModesAt_places {ids : List NodeId} {c : Canvas} (h : c.nodes.map Node.id = ids)
    (mode : NodeMode) (switched : List NodeId) :
    setModesAt (places ids) mode switched c = setModes mode switched c := by
  induction switched generalizing c with
  | nil => rfl
  | cons id rest ih =>
    have next : (c.change id fun n => ({ n with mode := mode }, 0)).1.nodes.map Node.id = ids :=
      (map_id_change (fun _ => rfl) id c).trans h
    simp only [setModesAt, setModes, changeAt_places h, ih next]

private theorem map_id_setModes (mode : NodeMode) (switched : List NodeId) (c : Canvas) :
    (setModes mode switched c).1.nodes.map Node.id = c.nodes.map Node.id := by
  rw [setModes_fst]
  apply map_id_mapAddressed
  intro n
  split <;> rfl

private theorem applyActionAt_places {ids : List NodeId} {c : Canvas}
    (h : c.nodes.map Node.id = ids) (a : Action) :
    c.applyActionAt (places ids) a = c.applyAction a := by
  cases a with
  | modifyWidget w => exact changeAt_places h w.nodeId _
  | addLora l => exact changeAt_places h l.target _
  | modifyVector v => exact changeAt_places h v.nodeId _
  | toggleMode t =>
    have next := (map_id_setModes t.targetMode t.nodeIds c).trans h
    cases hs : t.saveNodeId with
    | none => simp only [applyActionAt, applyAction, hs, setModesAt_places h]
    | some id =>
      simp only [applyActionAt, applyAction, hs, setModesAt_places h, changeAt_places next]

private theorem map_id_applyAction (a : Action) (c : Canvas) :
    (c.applyAction a).1.nodes.map Node.id = c.nodes.map Node.id := by
  rw [applyAction_fst]
  exact map_id_mapAddressed (Action.onNode_id a) c.nodes

end Canvas

namespace Graph

/-- The ids of the nodes of a canvas, in order. Nodes of the flat form are not looked up by
place. -/
def nodeIds : Graph → List NodeId
  | canvas c => c.nodes.map Node.id
  | api _ => []

def applyActionAt (table : List (NodeId × Nat)) (a : Action) : Graph → Graph × Nat
  | canvas c =>
    let (c, skipped) := c.applyActionAt table a
    (canvas c, skipped)
  | api g =>
    let (g, skipped) := g.applyAction a
    (api g, skipped)

def applyNextAt (table : List (NodeId × Nat)) (s : Graph × Tally) (a : Action) :
    Option (Graph × Tally) :=
  if s.1.lacksSlot a then none
  else
    let (g, skipped) := s.1.applyActionAt table a
    some (g, ⟨s.2.actions + 1, s.2.skipped + skipped⟩)

/-- Apply actions in order, with the places of nodes looked up once, in the template. -/
def applyIndexed (template : Graph) (actions : List Action) : Option (Graph × Tally) :=
  actions.foldlM (applyNextAt (Canvas.places template.nodeIds)) (template, ⟨0, 0⟩)

private theorem nodeIds_applyAction (a : Action) (g : Graph) :
    (g.applyAction a).1.nodeIds = g.nodeIds := by
  cases g with
  | canvas c => exact c.map_id_applyAction a
  | api g => rfl

private theorem applyNextAt_places {ids : List NodeId} {s : Graph × Tally} (h : s.1.nodeIds = ids)
    (a : Action) : applyNextAt (Canvas.places ids) s a = applyNext s a := by
  obtain ⟨g, r⟩ := s
  cases g with
  | api g => rfl
  | canvas c =>
    have same := Canvas.applyActionAt_places h a
    simp only [applyNextAt, applyNext, applyActionAt, applyAction, same]

private theorem nodeIds_applyNext {s s' : Graph × Tally} {a : Action}
    (h : applyNext s a = some s') :
    s'.1.nodeIds = s.1.nodeIds := by
  rw [applyNext] at h
  split at h
  · cases h
  · rw [← Option.some.inj h]
    exact nodeIds_applyAction a s.1

/-- The places in the template are the places all along the run. -/
theorem applyIndexed_eq_applyAll (template : Graph) (actions : List Action) :
    template.applyIndexed actions = template.applyAll actions := by
  suffices run : ∀ s : Graph × Tally, s.1.nodeIds = template.nodeIds →
      actions.foldlM (applyNextAt (Canvas.places template.nodeIds)) s =
        actions.foldlM applyNext s from run (template, ⟨0, 0⟩) rfl
  induction actions with
  | nil => exact fun _ _ => rfl
  | cons a actions ih =>
    intro s h
    rw [List.foldlM_cons, List.foldlM_cons, applyNextAt_places h]
    cases next : applyNext s a with
    | none => rfl
    | some s' => exact ih s' ((nodeIds_applyNext next).trans h)

theorem applyAll_append (g : Graph) (a b : List Action) :
    g.applyAll (a ++ b) = (g.applyAll a).bind fun s =>
      (s.1.applyAll b).map fun s' =>
        (s'.1, ⟨s.2.actions + s'.2.actions, s.2.skipped + s'.2.skipped⟩) := by
  have parts := g.hasSlots_append a b
  by_cases first : g.HasSlots a
  · rw [applyAll_of_hasSlots first, Option.bind_some]
    by_cases second : (g.run a).1.HasSlots b
    · rw [applyAll_of_hasSlots second, applyAll_of_hasSlots (parts.mpr ⟨first, second⟩), run_append]
      rfl
    · rw [applyAll_of_not_hasSlots second, applyAll_of_not_hasSlots fun h => second (parts.mp h).2]
      rfl
  · rw [applyAll_of_not_hasSlots first, applyAll_of_not_hasSlots fun h => first (parts.mp h).1]
    rfl

private theorem actions_run (g : Graph) (actions : List Action) :
    (g.run actions).2.actions = actions.length := by
  induction actions generalizing g with
  | nil => rfl
  | cons a actions ih =>
    rw [run_cons, ih, List.length_cons, Nat.add_comm]

/-- Two runs in a row are one run, with the sum of their counts, and every action of the lists is
counted. Longer lists leave out no fewer writes, and one action more is one action applied to the
graph so far. All this holds of runs by the places of the template, which are the same runs. A run
has a result unless it comes to an entry for a node that has the largest word as a slot. -/
theorem runs_compose (template : Graph) :
    (∀ a b : List Action, template.applyAll (a ++ b) = (template.applyAll a).bind fun s =>
      (s.1.applyAll b).map fun s' =>
        (s'.1, ⟨s.2.actions + s'.2.actions, s.2.skipped + s'.2.skipped⟩)) ∧
    (∀ (a : List Action) (s : Graph × Tally), template.applyAll a = some s →
      s.2.actions = a.length ∧
      (∀ (b : List Action) (s' : Graph × Tally), template.applyAll (a ++ b) = some s' →
        s.2.skipped ≤ s'.2.skipped) ∧
      ∀ last : Action, (template.applyAll (a ++ [last])).map Prod.fst =
        if s.1.lacksSlot last then none else some (s.1.applyAction last).1) ∧
    (∀ a : List Action, template.applyIndexed a = template.applyAll a) ∧
    ∀ a : List Action, template.applyAll a = none ↔ template.RunsOut a := by
  refine ⟨template.applyAll_append, ?_, template.applyIndexed_eq_applyAll,
    template.applyAll_eq_none_iff⟩
  intro a s made
  obtain ⟨slots, rfl⟩ := applyAll_eq_some_iff.mp made
  refine ⟨template.actions_run a, fun b s' more => ?_, fun last => ?_⟩
  · obtain ⟨-, rfl⟩ := applyAll_eq_some_iff.mp more
    rw [run_append]
    exact Nat.le_add_right _ _
  · rw [applyAll_append, made, Option.bind_some, Option.map_map]
    cases lacks : (template.run a).1.lacksSlot last <;> simp [applyAll, applyNext, lacks]

/-- A loader with an empty list, in the form that lists its nodes. -/
def blankLoader : Graph := canvas ⟨[⟨.small 20, "LoraLoader", .enabled, .arr [], none, []⟩], [], []⟩

/-- Switch the loader off, and write to its first slot, which is not there. -/
def loaderSwitch : Action := .toggleMode ⟨[.small 20], false, .enabled, .muted, none⟩
def loaderWrite : Action := .modifyWidget ⟨.small 20, [0], [], .ofNat 1, none⟩

/-- The run goes on from the loader that is switched off, and counts the write that is left out. -/
theorem loader_runs_compose :
    ∃ s s', blankLoader.applyAll [loaderSwitch] = some s ∧
      blankLoader.applyAll ([loaderSwitch] ++ [loaderWrite]) = some s' ∧ s.2 = ⟨1, 0⟩ ∧
      s'.2 = ⟨2, 1⟩ ∧ s.2.skipped ≤ s'.2.skipped ∧ s'.1 = (s.1.applyAction loaderWrite).1 := by
  obtain ⟨append, counted, -, -⟩ := runs_compose blankLoader
  have first : blankLoader.applyAll [loaderSwitch] = some (blankLoader.run [loaderSwitch]) :=
    applyAll_canvas _ _
  have both := append [loaderSwitch] [loaderWrite]
  rw [first, Option.bind_some] at both
  obtain ⟨-, grows, next⟩ := counted [loaderSwitch] _ first
  have last := next loaderWrite
  rw [both] at last
  refine ⟨_, _, first, both, rfl, rfl, grows _ _ both, Option.some.inj last⟩

end Graph

end WorkflowGraph
