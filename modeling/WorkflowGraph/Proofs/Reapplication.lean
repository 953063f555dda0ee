/- Applying the same actions twice: without entries for loaders the second run changes nothing. -/

import WorkflowGraph.Proofs.ApiSteps
import WorkflowGraph.Proofs.LastWrite
import WorkflowGraph.Proofs.RepeatedWrites

set_option autoImplicit false
set_option relaxedAutoImplicit false

/-!
What an action writes to a node depends on the node's id and kind alone, so a second run makes the
writes of the first. Modes, slots and properties hold what was written last in either run. Members of
widget objects and inputs may have been created by the first run, and the switch of a save node needs
its member, but the same writes to an ordered map leave it as it is once they were made.
-/

namespace WorkflowGraph

/-- Writes that change nothing when they are made again. -/
structure IsSettling {β γ : Type} (run : List β → γ → γ) : Prop extends IsRun run where
  again : ∀ writes x, run writes (run writes x) = run writes x

private theorem IsSettling.map {β γ : Type} {run : List β → γ → γ} (h : IsSettling run) :
    IsSettling fun writes (x : Option γ) => x.map (run writes) where
  toIsRun := h.toIsRun.map
  again writes x := by
    cases x with
    | none => rfl
    | some x => exact congrArg some (h.again writes x)

private theorem isSettling_written {α : Type} : IsSettling (@written α) where
  toIsRun := isRun_written
  again writes old := by
    unfold written
    cases writes.getLast? <;> rfl

private theorem isSettling_putAll {κ ν : Type} [DecidableEq κ] :
    IsSettling (@Assoc.putAll κ ν _) where
  nil _ := rfl
  append := Assoc.putAll_append
  again := Assoc.putAll_putAll

namespace Action

/-- The members of a widget object that an action writes. The switch of a save node creates none. -/
def memberPuts (n : Node) : Action → List (Assoc.Put String Value)
  | .modifyWidget w =>
    if n.id = w.nodeId then
      w.names.map fun name => ⟨name, widgetValue w.value (w.nodeKind.getD n.kind), true⟩
    else []
  | .toggleMode t =>
    if t.saveNodeId = some n.id then [⟨"save_output", .bool t.enabled, false⟩] else []
  | .addLora _ => []
  | .modifyVector _ => []

/-- The properties of a node that an action writes: those of its axes, if they are there. -/
def propertyPuts (n : Node) (a : Action) : List (Assoc.Put String Value) :=
  ((a.axisFor? n .x).map fun v => ⟨Axis.property .x, v, false⟩).toList ++
    ((a.axisFor? n .y).map fun v => ⟨Axis.property .y, v, false⟩).toList

/-- The inputs of a node of the flat form that an action writes. -/
def inputPuts (key : String) (n : ApiNode) : Action → List (Assoc.Put String Value)
  | .modifyWidget w =>
    if key = w.nodeId.key then
      w.names.map fun name => ⟨name, widgetValue w.value (w.nodeKind.getD n.kind), true⟩
    else []
  | _ => []

private theorem memberPuts_onNode (a : Action) (n : Node) :
    memberPuts (a.onNode n) = memberPuts n := by
  funext b
  cases b <;> simp [memberPuts]

private theorem inputPuts_of_kind {n n' : ApiNode} (h : n'.kind = n.kind) (key : String) :
    inputPuts key n' = inputPuts key n := by
  funext b
  cases b <;> simp [inputPuts, h]

private theorem propertyPuts_onNode (a : Action) (n : Node) :
    propertyPuts (a.onNode n) = propertyPuts n := by
  funext b
  simp only [propertyPuts, axisFor?_onNode]

end Action

namespace Assoc

variable {κ : Type} {ν : Type} [DecidableEq κ]

private theorem putAll_map_creating (names : List κ) (v : ν) (l : List (κ × ν)) :
    putAll (names.map fun name => ⟨name, v, true⟩) l =
      names.foldl (fun acc name => insert name v acc) l := by
  induction names generalizing l with
  | nil => rfl
  | cons name names ih => exact ih (insert name v l)

end Assoc

namespace Node

private theorem members?_writeAt (n : Node) (v : Value) (indices : List Nat) :
    (n.writeAt v indices).1.members? = n.members? := by
  cases h : n.widgets <;> simp [writeAt, members?, h]

private theorem members?_writeAxis (n : Node) (property : String) (v : Option Value)
    (indices : List Nat) (kind : String) :
    (n.writeAxis property v indices kind).1.members? = n.members? := by
  cases v with
  | none => rfl
  | some v => exact n.members?_writeAt (widgetValue v kind) indices

private theorem members?_insertLora (n : Node) (l : LoraEntry) :
    (n.insertLora l).1.members? = n.members? := by
  cases h : n.widgets <;> simp [insertLora, members?, h]

private theorem members?_writeWidget (n : Node) (w : WidgetWrite) :
    (n.writeWidget w).1.members? = n.members?.map (Assoc.putAll
      (w.names.map fun name => ⟨name, widgetValue w.value (w.nodeKind.getD n.kind), true⟩)) := by
  cases h : n.widgets with
  | obj members =>
    by_cases none : w.names = []
    · simp [writeWidget, members?, h, none, Assoc.putAll]
    · simp [writeWidget, members?, h, none, Assoc.putAll_map_creating]
  | arr items =>
    have noObject : n.members? = none := by simp [members?, h]
    simp only [writeWidget, h, noObject]
    split
    · exact noObject
    · rw [members?_writeAt, noObject]
      rfl
  | _ => simp [writeWidget, members?, h]

private theorem members?_writeSave (n : Node) (enabled : Bool) :
    (n.writeSave enabled).1.members? =
      n.members?.map (Assoc.putAll [⟨"save_output", .bool enabled, false⟩]) := by
  cases h : n.widgets with
  | obj members =>
    cases known : Assoc.contains "save_output" members <;>
      simp [writeSave, members?, h, known, Assoc.putAll, Assoc.Put.into]
  | _ => simp [writeSave, members?, h]

private theorem members?_onNode (a : Action) (n : Node) :
    (a.onNode n).members? = n.members?.map (Assoc.putAll (a.memberPuts n)) := by
  have kept : n.members? = n.members?.map (Assoc.putAll []) := by cases n.members? <;> rfl
  cases a with
  | modifyWidget w =>
    simp only [Action.onNode, Action.memberPuts]
    split
    · exact n.members?_writeWidget w
    · exact kept
  | toggleMode t =>
    have switched : (n.switch t).members? = n.members? := by simp [members?]
    simp only [Action.onNode, Action.memberPuts]
    split
    · rw [members?_writeSave, switched]
    · exact switched.trans kept
  | addLora l =>
    simp only [Action.onNode, Action.memberPuts]
    split
    · exact (n.members?_insertLora l).trans kept
    · exact kept
  | modifyVector w =>
    simp only [Action.onNode, Action.memberPuts]
    split
    · simp only [writeVector]
      rw [members?_writeAxis, members?_writeAxis]
      exact kept
    · exact kept

private theorem properties_writeAxis (n : Node) (property : String) (v : Option Value)
    (indices : List Nat) (kind : String) :
    (n.writeAxis property v indices kind).1.properties = n.properties.map
      (Assoc.putAll ((v.map fun v => ⟨property, widgetValue v kind, false⟩).toList)) := by
  cases v with
  | none => cases h : n.properties <;> simp [writeAxis, Assoc.putAll, h]
  | some v =>
    have kept : (n.writeAt (widgetValue v kind) indices).1.properties = n.properties := by
      rw [writeAt_eq]
    simp only [writeAxis, kept]
    cases n.properties with
    | none => rfl
    | some p => simp [Assoc.putAll, Assoc.Put.into]

private theorem properties_writeVector (n : Node) (w : VectorWrite) (hn : n.id = w.nodeId) :
    (n.writeVector w).1.properties =
      n.properties.map (Assoc.putAll (Action.propertyPuts n (.modifyVector w))) := by
  simp only [writeVector, properties_writeAxis, Action.propertyPuts, Action.axisFor?, if_pos hn]
  cases n.properties with
  | none => rfl
  | some p => simp [Assoc.putAll_append, VectorWrite.value?, Axis.property, Option.map_map,
      Function.comp_def]

private theorem properties_onNode (a : Action) (n : Node) :
    (a.onNode n).properties = n.properties.map (Assoc.putAll (a.propertyPuts n)) := by
  have kept : n.properties = n.properties.map (Assoc.putAll []) := by cases n.properties <;> rfl
  cases a with
  | modifyWidget w =>
    refine Eq.trans ?_ kept
    simp only [Action.onNode]
    split
    · rw [writeWidget_eq]
    · rfl
  | toggleMode t =>
    refine Eq.trans ?_ kept
    simp only [Action.onNode]
    split
    · rw [writeSave_eq, switch_properties]
    · rw [switch_properties]
  | addLora l =>
    refine Eq.trans ?_ kept
    simp only [Action.onNode]
    split
    · rw [insertLora_eq]
    · rfl
  | modifyVector w =>
    by_cases hn : n.id = w.nodeId
    · rw [Action.onNode, if_pos hn]
      exact n.properties_writeVector w hn
    · rw [Action.onNode, if_neg hn]
      simpa [Action.propertyPuts, Action.axisFor?, hn] using kept

private theorem widgets_onNode_of_plain {n : Node} (noList : ∀ items, n.widgets ≠ .arr items)
    (noObject : ∀ members, n.widgets ≠ .obj members) (a : Action) :
    (a.onNode n).widgets = n.widgets := by
  cases a with
  | modifyWidget w =>
    have kept : (n.writeWidget w).1 = n := by
      unfold writeWidget
      split <;> simp_all
    simp only [Action.onNode, kept, ite_self]
  | toggleMode t =>
    have kept : ((n.switch t).writeSave t.enabled).1 = n.switch t := by
      unfold writeSave
      split <;> simp_all
    simp only [Action.onNode, kept, ite_self, switch_widgets]
  | addLora l =>
    have kept : (n.insertLora l).1 = n := by
      unfold insertLora
      split <;> simp_all
    simp only [Action.onNode, kept, ite_self]
  | modifyVector w =>
    have axis : ∀ (m : Node) (property : String) (v : Option Value) (indices : List Nat)
        (kind : String), m.widgets = n.widgets →
        (m.writeAxis property v indices kind).1.widgets = n.widgets := by
      intro m property v indices kind hm
      cases v with
      | none => exact hm
      | some v =>
        simp only [writeAxis]
        rw [writeAt_of_not_arr fun items he => noList items (hm ▸ he), hm]
    simp only [Action.onNode]
    split
    · exact axis _ _ _ _ _ (axis n _ _ _ _ rfl)
    · rfl

private theorem widgets_after_of_plain {n : Node} (noList : ∀ items, n.widgets ≠ .arr items)
    (noObject : ∀ members, n.widgets ≠ .obj members) (actions : List Action) :
    (n.after actions).widgets = n.widgets := by
  induction actions generalizing n with
  | nil => rfl
  | cons a actions ih =>
    have head := widgets_onNode_of_plain noList noObject a
    rw [after_cons, ih (head ▸ noList) (head ▸ noObject), head]

private theorem stable_after {β : Type} {writes : Node → β}
    (stable : ∀ (a : Action) (n : Node), writes (a.onNode n) = writes n) (actions : List Action)
    (n : Node) : writes (n.after actions) = writes n := by
  induction actions generalizing n with
  | nil => rfl
  | cons a actions ih => rw [after_cons, ih, stable]

/-- A part of a node that takes the same writes again without a change stays in a second run. -/
theorem view_again {β γ : Type} (view : Node → γ) (writes : Node → Action → List β)
    {run : List β → γ → γ} (settling : IsSettling run)
    (stable : ∀ (a : Action) (n : Node), writes (a.onNode n) = writes n)
    {actions : List Action} {id : NodeId}
    (step : ∀ a ∈ actions, ∀ n : Node, n.id = id → view (a.onNode n) = run (writes n a) (view n))
    {n : Node} (hn : n.id = id) :
    view ((n.after actions).after actions) = view (n.after actions) := by
  have first := view_after view writes settling.toIsRun stable step hn
  have second := view_after view writes settling.toIsRun stable step ((n.after_id actions).trans hn)
  rw [second, stable_after stable, first, settling.again]

private theorem mode_again (actions : List Action) (n : Node) :
    ((n.after actions).after actions).mode = (n.after actions).mode :=
  view_again Node.mode (fun n a => (a.modeFor? n).toList) isSettling_written
    (fun a n => by rw [Action.modeFor?_onNode]) (fun a _ n _ => mode_onNode a n) (Eq.refl n.id)

private theorem slot?_again {actions : List Action} {n : Node} (noEntry : n.NoEntry actions)
    (i : Nat) :
    ((n.after actions).after actions).slot? i = (n.after actions).slot? i := by
  refine view_again (slot? i) (fun n => Action.slotWrites n i) isSettling_written.map
    (fun a n => a.slotWrites_onNode n i) ?_ (Eq.refl n.id)
  intro a ha m hm
  apply slot?_onNode
  rintro l rfl
  exact hm ▸ noEntry l ha

private theorem members?_again (actions : List Action) (n : Node) :
    ((n.after actions).after actions).members? = (n.after actions).members? :=
  view_again members? Action.memberPuts isSettling_putAll.map Action.memberPuts_onNode
    (fun a _ n _ => members?_onNode a n) (Eq.refl n.id)

private theorem properties_again (actions : List Action) (n : Node) :
    ((n.after actions).after actions).properties = (n.after actions).properties :=
  view_again Node.properties Action.propertyPuts isSettling_putAll.map Action.propertyPuts_onNode
    (fun a _ n _ => properties_onNode a n) (Eq.refl n.id)

private theorem widgets_again {actions : List Action} {n : Node} (noEntry : n.NoEntry actions) :
    ((n.after actions).after actions).widgets = (n.after actions).widgets := by
  cases hn : n.widgets with
  | arr items =>
    have slots : n.HasSlots items.length := ⟨items, hn, rfl⟩
    have once := slots.after noEntry
    have noEntry' : (n.after actions).NoEntry actions := by
      intro l hl
      rw [after_id]
      exact noEntry l hl
    obtain ⟨items₁, h₁, -⟩ := once
    obtain ⟨items₂, h₂, -⟩ := (slots.after noEntry).after noEntry'
    have same : items₂ = items₁ := by
      apply List.ext_getElem?
      intro i
      have slot := slot?_again noEntry i
      simpa only [slot?, h₁, h₂] using slot
    rw [h₁, h₂, same]
  | obj members =>
    have written : ∃ members', (n.after actions).members? = some members' := by
      have run : (n.after actions).members? = _ :=
        view_after members? Action.memberPuts isSettling_putAll.map.toIsRun
          Action.memberPuts_onNode (fun a _ n _ => members?_onNode a n) (Eq.refl n.id)
      rw [run, members?_eq_some.mpr hn]
      exact ⟨_, rfl⟩
    obtain ⟨members', h'⟩ := written
    have again := (members?_again actions n).trans h'
    rw [members?_eq_some.mp h', members?_eq_some.mp again]
  | _ =>
    have plain : ∀ m : Node, m.widgets = n.widgets → (m.after actions).widgets = m.widgets := by
      intro m hm
      apply widgets_after_of_plain <;> simp [hm, hn]
    rw [plain (n.after actions) (plain n rfl)]

private theorem sameForm_after (actions : List Action) (n : Node) :
    n.SameForm (n.after actions) := by
  induction actions generalizing n with
  | nil => exact .refl n
  | cons a actions ih => exact (a.framed_onNode n).toSameForm.trans (ih (a.onNode n))

private theorem SameForm.eq {n n' : Node} (form : n.SameForm n') (mode : n'.mode = n.mode)
    (widgets : n'.widgets = n.widgets) (properties : n'.properties = n.properties) : n' = n := by
  obtain ⟨id, kind, extra, -⟩ := form
  cases n
  cases n'
  simp_all

private theorem after_again {actions : List Action} {n : Node} (noEntry : n.NoEntry actions) :
    (n.after actions).after actions = n.after actions :=
  (sameForm_after actions (n.after actions)).eq (mode_again actions n) (widgets_again noEntry)
    (properties_again actions n)

end Node

namespace ApiNode

private theorem onKeyed_of_not_addLora {a : Action} (noLora : ∀ l, a ≠ .addLora l) (key : String)
    (n : ApiNode) :
    a.onKeyed key n = { n with inputs := Assoc.putAll (a.inputPuts key n) n.inputs } := by
  cases a with
  | addLora l => exact absurd rfl (noLora l)
  | modifyWidget w =>
    by_cases hk : key = w.nodeId.key
    · simp [Action.onKeyed, Action.inputPuts, hk, writeInputs, Assoc.putAll_map_creating]
    · simp [Action.onKeyed, Action.inputPuts, hk, Assoc.putAll]
  | _ => rfl

private theorem after_of_noLora {actions : List Action} (noLora : ∀ l, .addLora l ∉ actions)
    (key : String) (n : ApiNode) :
    n.after actions key =
      { n with inputs := Assoc.putAll (actions.flatMap (Action.inputPuts key n)) n.inputs } := by
  induction actions generalizing n with
  | nil => rfl
  | cons a actions ih =>
    have head : ∀ l, a ≠ .addLora l := fun l he => noLora l (he ▸ List.mem_cons_self)
    have tail : ∀ l, .addLora l ∉ actions := fun l hl => noLora l (List.mem_cons_of_mem a hl)
    have kind : (a.onKeyed key n).kind = n.kind := by rw [onKeyed_of_not_addLora head]
    rw [after_cons, ih tail, Action.inputPuts_of_kind kind, onKeyed_of_not_addLora head,
      List.flatMap_cons, Assoc.putAll_append]

private theorem after_again {actions : List Action} (noLora : ∀ l, .addLora l ∉ actions)
    (key : String) (n : ApiNode) :
    (n.after actions key).after actions key = n.after actions key := by
  have once := after_of_noLora noLora key n
  have twice := after_of_noLora noLora key (n.after actions key)
  have kind : (n.after actions key).kind = n.kind := by rw [once]
  rw [twice, Action.inputPuts_of_kind kind, once]
  simp only [Assoc.putAll_putAll]

end ApiNode

namespace Graph

/-- Applying actions to what they made of a graph changes nothing, unless they add entries for
loaders. -/
theorem applyAll_again (g : Graph) {actions : List Action} (noLora : ∀ l, .addLora l ∉ actions) :
    ∃ once again, g.applyAll actions = some once ∧ once.1.applyAll actions = some again ∧
      again.1 = once.1 := by
  refine ⟨_, _, applyAll_of_hasSlots (hasSlots_of_noLora noLora g),
    applyAll_of_hasSlots (hasSlots_of_noLora noLora _), ?_⟩
  cases g with
  | canvas c =>
    rw [run_canvas, run_canvas, Canvas.mapAddressed_comp (Node.after_id actions)]
    congr 3
    funext n
    exact Node.after_again fun l hl => absurd hl (noLora l)
  | api g =>
    rw [run_api, run_api, Assoc.mapFirst_mapFirst]
    congr 3
    funext key n
    exact n.after_again noLora key

def recorder : Node :=
  ⟨.small 40, "VideoCombine", .enabled, .obj [("frame_rate", .ofNat 16)], none, []⟩

/-- Mute the recorder and turn its switch off, then write the switch by name. -/
def recordingActions : List Action := [
  .toggleMode ⟨[recorder.id], false, .enabled, .muted, some recorder.id⟩,
  .modifyWidget ⟨recorder.id, [], ["save_output"], .bool true, none⟩]

/-- The first run leaves the switch out and creates it afterwards; the second one makes both
writes. -/
theorem recording_again :
    (∀ l, .addLora l ∉ recordingActions) ∧
      ∃ once again, (canvas ⟨[recorder], [], []⟩).applyAll recordingActions = some once ∧
        once.1.applyAll recordingActions = some again ∧ again.1 = once.1 ∧
        once.2.skipped = 1 ∧ again.2.skipped = 0 := by
  have noLora : ∀ l, .addLora l ∉ recordingActions := by simp [recordingActions]
  obtain ⟨once, again, first, second, same⟩ := applyAll_again (canvas ⟨[recorder], [], []⟩) noLora
  obtain ⟨-, rfl⟩ := applyAll_eq_some_iff.mp first
  obtain ⟨-, rfl⟩ := applyAll_eq_some_iff.mp second
  exact ⟨noLora, _, _, first, second, same, by decide, by decide⟩

end Graph

end WorkflowGraph
