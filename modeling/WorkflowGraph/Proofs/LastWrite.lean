/- What the places of a canvas node hold after a run of actions: each what was written to it last. -/

import WorkflowGraph.Config.Mapping
import WorkflowGraph.Proofs.Frame

set_option autoImplicit false
set_option relaxedAutoImplicit false

/-!
The mode of a node, the slots of its widget list and the two properties that mirror axes are places.
An action writes some values to a place, one after another, and which ones depends on the id and the
kind of the node alone, which no action changes. So a run leaves in each place the last value written
to it by any of its actions, and what was there before if there is none.
-/

namespace WorkflowGraph

/-- What a place holds after writes: the value written last, or the old one. -/
def written {α : Type} (writes : List α) (old : α) : α := writes.getLast?.getD old

@[simp] theorem written_nil {α : Type} (old : α) : written [] old = old := rfl

@[simp] theorem map_written_nil {α : Type} (o : Option α) : o.map (written []) = o := by
  cases o <;> rfl

@[simp] theorem written_singleton {α : Type} (v old : α) : written [v] old = v := rfl

theorem written_append {α : Type} (a b : List α) (old : α) :
    written (a ++ b) old = written b (written a old) := by
  unfold written
  rw [List.getLast?_append]
  cases b.getLast? <;> rfl

/-- Writes that are made one after another. -/
structure IsRun {β γ : Type} (run : List β → γ → γ) : Prop where
  nil : ∀ x, run [] x = x
  append : ∀ a b x, run (a ++ b) x = run b (run a x)

theorem isRun_written {α : Type} : IsRun (@written α) := ⟨written_nil, written_append⟩

theorem IsRun.map {β γ : Type} {run : List β → γ → γ} (h : IsRun run) :
    IsRun fun writes (x : Option γ) => x.map (run writes) where
  nil x := by
    cases x with
    | none => rfl
    | some x => exact congrArg some (h.nil x)
  append a b x := by
    cases x with
    | none => rfl
    | some x => exact congrArg some (h.append a b x)

private theorem getElem?_foldl_set {α : Type} (v : α) (indices : List Nat) (items : List α)
    (i : Nat) :
    (indices.foldl (fun acc j => acc.set j v) items)[i]? =
      items[i]?.map (written (if i ∈ indices then [v] else [])) := by
  induction indices generalizing items with
  | nil => simp
  | cons j indices ih =>
    rw [List.foldl_cons, ih]
    by_cases hj : j = i
    · -- the same position may come again later, which writes the same value
      subst hj
      cases hi : items[j]? <;> by_cases later : j ∈ indices <;> simp [List.getElem?_set', hi, later]
    · have here : i ∈ j :: indices ↔ i ∈ indices := by
        simp [Ne.symm hj]
      rw [List.getElem?_set_ne hj]
      simp only [here]

namespace Node

def slot? (i : Nat) (n : Node) : Option Value :=
  match n.widgets with
  | .arr items => items[i]?
  | _ => none

def members? (n : Node) : Option Object :=
  match n.widgets with
  | .obj members => some members
  | _ => none

theorem members?_eq_some {n : Node} {members : Object} :
    n.members? = some members ↔ n.widgets = .obj members := by
  unfold members?
  split
  · rename_i members' h
    simp [h]
  · rename_i h
    simpa using h members

def property? (name : String) (n : Node) : Option Value := n.properties.bind (Assoc.get? name)

end Node

namespace VectorWrite

def value? (w : VectorWrite) : Axis → Option Value
  | .x => w.x
  | .y => w.y

def indices (w : VectorWrite) : Axis → List Nat
  | .x => w.xIndices
  | .y => w.yIndices

end VectorWrite

def Axis.property : Axis → String
  | .x => "valueX"
  | .y => "valueY"

namespace Action

/-- The mode that an action gives to a node, if it is a toggle that lists the node. -/
def modeFor? (n : Node) : Action → Option NodeMode
  | .toggleMode t => if n.id ∈ t.nodeIds then some t.targetMode else none
  | _ => none

/-- The value that an action has for an axis of a node, as the node's widgets hold it. -/
def axisFor? (n : Node) (axis : Axis) : Action → Option Value
  | .modifyVector w =>
    if n.id = w.nodeId then
      (w.value? axis).map fun v => widgetValue v (w.nodeKind.getD n.kind)
    else none
  | _ => none

/-- The values that an action writes to a slot of a node, in the order of the writes. -/
def slotWrites (n : Node) (i : Nat) : Action → List Value
  | .modifyWidget w =>
    if n.id = w.nodeId ∧ i ∈ w.indices then [widgetValue w.value (w.nodeKind.getD n.kind)] else []
  | .modifyVector w =>
    (if i ∈ w.indices .x then (axisFor? n .x (.modifyVector w)).toList else []) ++
      if i ∈ w.indices .y then (axisFor? n .y (.modifyVector w)).toList else []
  | _ => []

@[simp] theorem onNode_kind (a : Action) (n : Node) : (a.onNode n).kind = n.kind :=
  (a.framed_onNode n).kind

theorem modeFor?_onNode (a : Action) (n : Node) : modeFor? (a.onNode n) = modeFor? n := by
  funext b
  cases b <;> simp [modeFor?]

theorem axisFor?_onNode (a : Action) (n : Node) (axis : Axis) :
    axisFor? (a.onNode n) axis = axisFor? n axis := by
  funext b
  cases b <;> simp [axisFor?]

theorem slotWrites_onNode (a : Action) (n : Node) (i : Nat) :
    slotWrites (a.onNode n) i = slotWrites n i := by
  funext b
  cases b <;> simp [slotWrites, axisFor?_onNode]

end Action

namespace Node

/-- What runs of actions leave of a part of a node, if actions do some writes to that part which
depend on nothing that actions change. -/
theorem view_after {β γ : Type} (view : Node → γ) (writes : Node → Action → List β)
    {run : List β → γ → γ} (isRun : IsRun run)
    (stable : ∀ (a : Action) (n : Node), writes (a.onNode n) = writes n)
    {actions : List Action} {id : NodeId}
    (step : ∀ a ∈ actions, ∀ n : Node, n.id = id → view (a.onNode n) = run (writes n a) (view n))
    {n : Node} (hn : n.id = id) :
    view (n.after actions) = run (actions.flatMap (writes n)) (view n) := by
  induction actions generalizing n with
  | nil => exact (isRun.nil _).symm
  | cons a actions ih =>
    have head := step a List.mem_cons_self n hn
    have tail := ih (fun b hb => step b (List.mem_cons_of_mem a hb))
      ((Action.onNode_id a n).trans hn)
    -- the rest writes what it would write to the node as it was, since id and kind stay
    rw [after_cons, tail, head, stable, List.flatMap_cons, isRun.append]

private theorem slot?_eq_none {n : Node} (h : ∀ items, n.widgets ≠ .arr items) (i : Nat) :
    n.slot? i = none := by
  unfold slot?
  split
  · rename_i items he
    exact absurd he (h items)
  · rfl

private theorem slot?_writeAt (n : Node) (v : Value) (indices : List Nat) (i : Nat) :
    (n.writeAt v indices).1.slot? i =
      (n.slot? i).map (written (if i ∈ indices then [v] else [])) := by
  by_cases list : ∃ items, n.widgets = .arr items
  · obtain ⟨items, hn⟩ := list
    rw [writeAt_of_arr hn]
    simp only [slot?, hn]
    exact getElem?_foldl_set v indices items i
  · have hn : ∀ items, n.widgets ≠ .arr items := fun items he => list ⟨items, he⟩
    rw [writeAt_of_not_arr hn, slot?_eq_none hn i]
    rfl

private theorem slot?_writeWidget (n : Node) (w : WidgetWrite) (i : Nat) :
    (n.writeWidget w).1.slot? i = (n.slot? i).map
      (written (if i ∈ w.indices then [widgetValue w.value (w.nodeKind.getD n.kind)] else [])) := by
  unfold writeWidget
  split
  · by_cases hw : w.indices = []
    · simp [hw]
    · rw [if_neg (by simpa using hw)]
      exact n.slot?_writeAt _ w.indices i
  · rename_i members hn
    have noList : ∀ items, n.widgets ≠ .arr items := by simp [hn]
    rw [slot?_eq_none noList i]
    split
    · exact slot?_eq_none noList i
    · rfl
  · rename_i hn _
    rw [slot?_eq_none hn i]
    rfl

theorem slot?_writeAxis (n : Node) (property : String) (v : Option Value) (indices : List Nat)
    (kind : String) (i : Nat) :
    (n.writeAxis property v indices kind).1.slot? i = (n.slot? i).map
      (written (if i ∈ indices then (v.map fun v => widgetValue v kind).toList else [])) := by
  cases v with
  | none => simp [writeAxis]
  | some v => exact n.slot?_writeAt (widgetValue v kind) indices i

private theorem slot?_writeVector (n : Node) (w : VectorWrite) (hn : n.id = w.nodeId) (i : Nat) :
    (n.writeVector w).1.slot? i =
      (n.slot? i).map (written (Action.slotWrites n i (.modifyVector w))) := by
  simp only [writeVector, slot?_writeAxis, Option.map_map, Action.slotWrites, Action.axisFor?,
    if_pos hn]
  congr 1
  funext old
  exact (written_append _ _ old).symm

private theorem slot?_writeSave (n : Node) (enabled : Bool) (i : Nat) :
    (n.writeSave enabled).1.slot? i = n.slot? i := by
  unfold writeSave
  split
  · rename_i members hn
    split
    · simp [slot?, hn]
    · rfl
  · rfl

private theorem slot?_switch (n : Node) (t : ModeToggle) (i : Nat) :
    (n.switch t).slot? i = n.slot? i := by
  simp [slot?]

theorem slot?_onNode (a : Action) (n : Node) (i : Nat)
    (noEntry : ∀ l, a = .addLora l → n.id ≠ l.target) :
    (a.onNode n).slot? i = (n.slot? i).map (written (a.slotWrites n i)) := by
  cases a with
  | modifyWidget w =>
    by_cases hn : n.id = w.nodeId
    · simp only [Action.onNode, Action.slotWrites, hn, true_and, if_true]
      exact n.slot?_writeWidget w i
    · simp [Action.onNode, Action.slotWrites, hn]
  | toggleMode t =>
    have kept : ((Action.toggleMode t).onNode n).slot? i = n.slot? i := by
      simp only [Action.onNode]
      split
      · rw [slot?_writeSave, slot?_switch]
      · rw [slot?_switch]
    rw [kept]
    exact (map_written_nil _).symm
  | addLora l => simp [Action.onNode, Action.slotWrites, noEntry l rfl]
  | modifyVector w =>
    by_cases hn : n.id = w.nodeId
    · simp only [Action.onNode, if_pos hn]
      exact n.slot?_writeVector w hn i
    · simp [Action.onNode, Action.slotWrites, Action.axisFor?, hn]

private theorem property?_writeAxis_self (n : Node) (property : String) (v : Option Value)
    (indices : List Nat) (kind : String) :
    (n.writeAxis property v indices kind).1.property? property = (n.property? property).map
      (written (v.map fun v => widgetValue v kind).toList) := by
  cases v with
  | none => simp [writeAxis]
  | some v =>
    simp only [writeAxis, property?]
    rw [writeAt_eq]
    cases n.properties with
    | none => rfl
    | some p =>
      cases hp : Assoc.get? property p with
      | none => simp [Assoc.contains, hp]
      | some old => simp [Assoc.contains, hp, Assoc.get?_insert_self]

private theorem property?_writeAxis_of_ne (n : Node) {property name : String} (h : name ≠ property)
    (v : Option Value) (indices : List Nat) (kind : String) :
    (n.writeAxis property v indices kind).1.property? name = n.property? name := by
  cases v with
  | none => rfl
  | some v =>
    simp only [writeAxis, property?]
    rw [writeAt_eq]
    cases n.properties with
    | none => rfl
    | some p =>
      cases hp : Assoc.contains property p with
      | false => simp [hp]
      | true => simp [hp, Assoc.get?_insert_of_ne h]

private theorem property?_writeVector (n : Node) (w : VectorWrite) (axis : Axis) :
    (n.writeVector w).1.property? axis.property = (n.property? axis.property).map
      (written ((w.value? axis).map fun v => widgetValue v (w.nodeKind.getD n.kind)).toList) := by
  have differ : "valueX" ≠ "valueY" := by decide
  cases axis with
  | x =>
    simp only [writeVector, Axis.property]
    rw [property?_writeAxis_of_ne _ differ]
    exact n.property?_writeAxis_self "valueX" w.x w.xIndices _
  | y =>
    simp only [writeVector, Axis.property]
    rw [property?_writeAxis_self, property?_writeAxis_of_ne n differ.symm]
    rfl

private theorem property?_onNode (a : Action) (n : Node) (axis : Axis) :
    (a.onNode n).property? axis.property =
      (n.property? axis.property).map (written (a.axisFor? n axis).toList) := by
  have kept : ∀ n' : Node, n'.properties = n.properties →
      n'.property? axis.property = (n.property? axis.property).map (written []) := by
    intro n' h
    rw [map_written_nil, property?, h]
    rfl
  cases a with
  | modifyWidget w =>
    apply kept
    simp only [Action.onNode]
    split
    · rw [writeWidget_eq]
    · rfl
  | toggleMode t =>
    apply kept
    simp only [Action.onNode]
    split
    · rw [writeSave_eq, switch_properties]
    · rw [switch_properties]
  | addLora l =>
    apply kept
    simp only [Action.onNode]
    split
    · rw [insertLora_eq]
    · rfl
  | modifyVector w =>
    by_cases hn : n.id = w.nodeId
    · simp only [Action.onNode, Action.axisFor?, if_pos hn]
      exact n.property?_writeVector w axis
    · simp only [Action.onNode, Action.axisFor?, if_neg hn]
      exact kept n rfl

theorem mode_onNode (a : Action) (n : Node) :
    (a.onNode n).mode = written (a.modeFor? n).toList n.mode := by
  cases a with
  | modifyWidget w =>
    simp only [Action.onNode]
    split
    · rw [writeWidget_eq]
      rfl
    · rfl
  | toggleMode t =>
    have switched : (n.switch t).mode =
        written ((Action.toggleMode t).modeFor? n).toList n.mode := by
      by_cases h : n.id ∈ t.nodeIds <;> simp [switch, Action.modeFor?, h]
    rw [← switched]
    simp only [Action.onNode]
    split
    · rw [writeSave_eq]
    · rfl
  | addLora l =>
    simp only [Action.onNode]
    split
    · rw [insertLora_eq]
      rfl
    · rfl
  | modifyVector w =>
    simp only [Action.onNode]
    split
    · rw [writeVector_eq]
      rfl
    · rfl

def HasSlots (count : Nat) (n : Node) : Prop :=
  ∃ items, n.widgets = .arr items ∧ items.length = count

private theorem HasSlots.writeAt {count : Nat} {n : Node} (h : n.HasSlots count) (v : Value)
    (indices : List Nat) : (n.writeAt v indices).1.HasSlots count := by
  obtain ⟨items, hn, hc⟩ := h
  rw [writeAt_of_arr hn]
  refine ⟨_, rfl, ?_⟩
  refine List.foldlRecOn (motive := fun acc : List Value => acc.length = count) indices _ hc ?_
  intro acc hacc i _
  rw [List.length_set, hacc]

private theorem HasSlots.writeWidget {count : Nat} {n : Node} (h : n.HasSlots count)
    (w : WidgetWrite) :
    (n.writeWidget w).1.HasSlots count := by
  have list := h
  obtain ⟨items, hn, -⟩ := list
  simp only [Node.writeWidget, hn]
  split
  · exact h
  · exact h.writeAt _ w.indices

private theorem HasSlots.writeSave {count : Nat} {n : Node} (h : n.HasSlots count)
    (enabled : Bool) :
    (n.writeSave enabled).1.HasSlots count := by
  have list := h
  obtain ⟨items, hn, -⟩ := list
  simp only [Node.writeSave, hn]
  exact h

private theorem HasSlots.writeAxis {count : Nat} {n : Node} (h : n.HasSlots count)
    (property : String) (v : Option Value) (indices : List Nat) (kind : String) :
    (n.writeAxis property v indices kind).1.HasSlots count := by
  cases v with
  | none => exact h
  | some v => exact h.writeAt (widgetValue v kind) indices

private theorem HasSlots.onNode {count : Nat} {n : Node} (h : n.HasSlots count) {a : Action}
    (noEntry : ∀ l, a = .addLora l → n.id ≠ l.target) : (a.onNode n).HasSlots count := by
  cases a with
  | modifyWidget w =>
    simp only [Action.onNode]
    split
    · exact h.writeWidget w
    · exact h
  | toggleMode t =>
    have switched : (n.switch t).HasSlots count := by
      rw [HasSlots, switch_widgets]
      exact h
    simp only [Action.onNode]
    split
    · exact switched.writeSave t.enabled
    · exact switched
  | addLora l =>
    simp only [Action.onNode, if_neg (noEntry l rfl)]
    exact h
  | modifyVector w =>
    simp only [Action.onNode]
    split
    · exact (h.writeAxis "valueX" _ _ _).writeAxis "valueY" _ _ _
    · exact h

def NoEntry (actions : List Action) (n : Node) : Prop :=
  ∀ l, Action.addLora l ∈ actions → n.id ≠ l.target

theorem HasSlots.after {count : Nat} {actions : List Action} {n : Node} (h : n.HasSlots count)
    (noEntry : n.NoEntry actions) : (n.after actions).HasSlots count := by
  induction actions generalizing n with
  | nil => exact h
  | cons a actions ih =>
    have head : (a.onNode n).HasSlots count := by
      apply h.onNode
      rintro l rfl
      exact noEntry l List.mem_cons_self
    apply ih head
    intro l hl
    rw [Action.onNode_id]
    exact noEntry l (List.mem_cons_of_mem a hl)

private theorem mode_after (actions : List Action) (n : Node) :
    (n.after actions).mode = written (actions.filterMap (Action.modeFor? n)) n.mode := by
  rw [List.filterMap_eq_flatMap_toList]
  refine view_after Node.mode (fun n a => (a.modeFor? n).toList) isRun_written
    (fun a n => by rw [Action.modeFor?_onNode]) ?_ (Eq.refl n.id)
  exact fun a _ n _ => mode_onNode a n

private theorem slot?_after {actions : List Action} {n : Node} (noEntry : n.NoEntry actions)
    (i : Nat) :
    (n.after actions).slot? i =
      (n.slot? i).map (written (actions.flatMap (Action.slotWrites n i))) := by
  refine view_after (slot? i) (fun n => Action.slotWrites n i) isRun_written.map
    (fun a n => a.slotWrites_onNode n i) ?_ (Eq.refl n.id)
  intro a ha m hm
  apply slot?_onNode
  rintro l rfl
  rw [hm]
  exact noEntry l ha

private theorem property?_after (actions : List Action) (n : Node) (axis : Axis) :
    (n.after actions).property? axis.property =
      (n.property? axis.property).map (written (actions.filterMap (Action.axisFor? n axis))) := by
  rw [List.filterMap_eq_flatMap_toList]
  refine view_after (property? axis.property) (fun n a => (a.axisFor? n axis).toList)
    isRun_written.map (fun a n => by rw [Action.axisFor?_onNode]) ?_ (Eq.refl n.id)
  exact fun a _ m _ => property?_onNode a m axis

end Node

/-- A value, and what a widget of a node of some kind holds of it: the nearest double of an integer
where only doubles fit, and the value itself elsewhere. -/
inductive Value.HeldAs (kind : String) : Value → Value → Prop
  | rounded {i : Int} {fits : FitsNumber i} (doubles : kind ∈ doubleKinds) :
    HeldAs kind (.num (.int i fits)) (.num (.double (Double.ofInt i)))
  | number {n : Number} (any : kind ∉ doubleKinds) : HeldAs kind (.num n) (.num n)
  | double (d : Double) : HeldAs kind (.num (.double d)) (.num (.double d))
  | other {v : Value} (noNumber : v.isNumber = false) : HeldAs kind v v

private theorem heldAs_widgetValue (kind : String) (v : Value) :
    v.HeldAs kind (widgetValue v kind) := by
  cases v with
  | num n =>
    by_cases doubles : kind ∈ doubleKinds
    · simp only [widgetValue, if_pos doubles]
      cases n with
      | int i fits => exact .rounded doubles
      | double d => exact .double d
    · simp only [widgetValue, if_neg doubles]
      exact .number doubles
  | _ => exact .other rfl

namespace Graph

/-- After any actions every place of a node holds what was written to it last: the mode, the slots of
a widget list to which no entry was added, and the properties of axes. What is written to a widget is
the value of the action, or the double nearest to it where only doubles fit. -/
theorem last_write_wins {c : Canvas} (distinct : (c.nodes.map Node.id).Nodup)
    (actions : List Action) {n : Node} (hn : n ∈ c.nodes) :
    (∀ kind v, Value.HeldAs kind v (widgetValue v kind)) ∧
    ∃ result n', (canvas c).applyAll actions = some result ∧
      result.1.canvasNode? n.id = some n' ∧
      n'.mode = written (actions.filterMap (Action.modeFor? n)) n.mode ∧
      (∀ items, n.widgets = .arr items → n.NoEntry actions →
        ∃ items', n'.widgets = .arr items' ∧ items'.length = items.length ∧
          ∀ i v, items[i]? = some v →
            items'[i]? = some (written (actions.flatMap (Action.slotWrites n i)) v)) ∧
      ∀ axis v, n.property? axis.property = some v →
        n'.property? axis.property =
          some (written (actions.filterMap (Action.axisFor? n axis)) v) := by
  obtain ⟨result, made, found⟩ := exists_canvasNode?_applyAll distinct actions hn
  refine ⟨heldAs_widgetValue, result, n.after actions, made, found, n.mode_after actions, ?_, ?_⟩
  · intro items hw noEntry
    have slots : n.HasSlots items.length := ⟨items, hw, rfl⟩
    obtain ⟨items', hw', same⟩ := slots.after noEntry
    refine ⟨items', hw', same, fun i v hv => ?_⟩
    have run := Node.slot?_after noEntry i
    simp only [Node.slot?, hw, hw', hv] at run
    exact run
  · intro axis v hv
    rw [Node.property?_after, hv]
    rfl

def slider : Node :=
  ⟨.small 3, "mxSlider2D", .enabled, .arr [.ofNat 0, .ofNat 0, .ofNat 0],
    some [("valueX", .ofNat 0)], []⟩

/-- Mute the slider, write to its first two slots, and write its first axis to the second one. -/
def sliderActions : List Action := [
  .toggleMode ⟨[slider.id], false, .enabled, .muted, none⟩,
  .modifyWidget ⟨slider.id, [0, 1], [], .ofNat 5, some "note"⟩,
  .modifyVector ⟨slider.id, some (.ofNat 7), none, [1], [], none⟩]

/-- The integer seven is held as a double, and so would be the five if its action did not name
another kind of node. -/
theorem slider_last_writes :
    ([slider].map Node.id).Nodup ∧ slider.NoEntry sliderActions ∧
      ∃ result n', (canvas ⟨[slider], [], []⟩).applyAll sliderActions = some result ∧
        result.1.canvasNode? slider.id = some n' ∧
        n'.mode = .muted ∧
        (∃ items, n'.widgets = .arr items ∧ items.length = 3 ∧
          items[0]? = some (.num (.int 5 (by decide))) ∧
          items[1]? = some (.num (.double ⟨false, 7881299347898368, -50, by decide⟩)) ∧
          items[2]? = some (.num (.int 0 (by decide)))) ∧
        n'.property? "valueX" =
          some (.num (.double ⟨false, 7881299347898368, -50, by decide⟩)) := by
  have noEntry : slider.NoEntry sliderActions := by
    intro l hl
    simp [sliderActions] at hl
  have distinct : ([slider].map Node.id).Nodup := by decide
  have seven : Double.ofInt 7 = ⟨false, 7881299347898368, -50, by decide⟩ := by decide +kernel
  obtain ⟨-, result, n', made, found, mode, slots, axes⟩ :=
    last_write_wins (c := ⟨[slider], [], []⟩) distinct sliderActions List.mem_cons_self
  obtain ⟨items, hw, same, last⟩ := slots _ rfl noEntry
  refine ⟨distinct, noEntry, result, n', made, found, mode, ⟨items, hw, same, ?_, ?_, ?_⟩, ?_⟩
  · exact last 0 _ rfl
  · exact (last 1 _ rfl).trans (seven ▸ rfl)
  · exact last 2 _ rfl
  · exact (axes .x _ rfl).trans (seven ▸ rfl)

end Graph

end WorkflowGraph
