/- Runs of actions: which of them end early, and what the others make of a graph. -/

import Mathlib.Data.List.Induction
import WorkflowGraph.Apply

set_option autoImplicit false
set_option relaxedAutoImplicit false

/-!
A run has no result exactly when it comes to an entry for a node that has the largest word as a slot.
What it makes of a graph otherwise is what the actions make of it one after another, whatever the
numbers of slots are, and this can be followed without asking whether the run goes on. On a canvas
it always does, and without entries it does on the flat form.
-/

namespace WorkflowGraph

private theorem inInt64_toNat (n : UInt8) : InInt64 n.toNat := by
  have small := n.toNat_lt
  simp only [InInt64]
  omega

def NodeId.small (n : UInt8) : NodeId := ⟨n.toNat, inInt64_toNat n⟩

namespace ApiGraph

private theorem slotOfName?_lt {name : String} {slot : Nat} (h : slotOfName? name = some slot) :
    slot < slotBound := by
  obtain ⟨digits, -, word⟩ := Option.bind_eq_some_iff.mp h
  exact lt_of_nat64OfText? word

theorem largestSlot_lt (inputs : Object) : largestSlot inputs < slotBound := by
  refine List.foldlRecOn (motive := fun m : Nat => m < slotBound) _ max (by decide) ?_
  intro m hm slot hs
  obtain ⟨name, -, read⟩ := List.mem_filterMap.mp hs
  exact Nat.max_lt.mpr ⟨hm, slotOfName?_lt read⟩

private theorem lacksSlot_iff (a : Action) (g : ApiGraph) :
    g.lacksSlot a = true ↔ ∃ l n, a = .addLora l ∧ g.node? l.target = some n ∧
      largestSlot n.inputs + 1 = slotBound := by
  have words (n : ApiNode) :
      slotBound ≤ nextSlot n.inputs ↔ largestSlot n.inputs + 1 = slotBound := by
    have := largestSlot_lt n.inputs
    rw [nextSlot]
    omega
  cases a <;> simp [lacksSlot, Option.any_eq_true, words]

end ApiGraph

namespace Graph

/-- One more action, whatever the number of its slot is. -/
def runNext (s : Graph × Tally) (a : Action) : Graph × Tally :=
  ((s.1.applyAction a).1, ⟨s.2.actions + 1, s.2.skipped + (s.1.applyAction a).2⟩)

/-- What actions make of a graph one after another, whatever the numbers of their slots are. -/
def run (template : Graph) (actions : List Action) : Graph × Tally :=
  actions.foldl runNext (template, ⟨0, 0⟩)

def HasSlots : Graph → List Action → Prop
  | _, [] => True
  | g, a :: rest => g.lacksSlot a = false ∧ (g.applyAction a).1.HasSlots rest

instance decidableHasSlots : (g : Graph) → (actions : List Action) → Decidable (g.HasSlots actions)
  | _, [] => inferInstanceAs (Decidable True)
  | g, a :: rest =>
    have := decidableHasSlots (g.applyAction a).1 rest
    inferInstanceAs (Decidable (_ ∧ _))

/-- A run comes to an entry for a node that has the largest word as a slot. -/
def RunsOut (template : Graph) (actions : List Action) : Prop :=
  ∃ before l after g t n, actions = before ++ .addLora l :: after ∧
    template.applyAll before = some (api g, t) ∧ g.node? l.target = some n ∧
    ApiGraph.largestSlot n.inputs + 1 = ApiGraph.slotBound

private theorem foldlM_applyNext (actions : List Action) (s : Graph × Tally) :
    actions.foldlM applyNext s =
      if s.1.HasSlots actions then some (actions.foldl runNext s) else none := by
  induction actions generalizing s with
  | nil => simp [HasSlots]
  | cons a actions ih =>
    cases lacks : s.1.lacksSlot a with
    | true => simp [applyNext, HasSlots, lacks]
    | false =>
      have next : applyNext s a = some (runNext s a) := by
        rw [applyNext, lacks]
        rfl
      rw [List.foldlM_cons, next, Option.bind_eq_bind, Option.bind_some, ih, List.foldl_cons]
      simp only [HasSlots, lacks, true_and]
      rfl

theorem applyAll_eq (g : Graph) (actions : List Action) :
    g.applyAll actions = if g.HasSlots actions then some (g.run actions) else none :=
  foldlM_applyNext actions (g, ⟨0, 0⟩)

theorem applyAll_eq_some_iff {g : Graph} {actions : List Action} {result : Graph × Tally} :
    g.applyAll actions = some result ↔ g.HasSlots actions ∧ g.run actions = result := by
  rw [applyAll_eq, Option.ite_none_right_eq_some, Option.some.injEq]

theorem applyAll_of_hasSlots {g : Graph} {actions : List Action} (slots : g.HasSlots actions) :
    g.applyAll actions = some (g.run actions) :=
  applyAll_eq_some_iff.mpr ⟨slots, rfl⟩

theorem applyAll_of_not_hasSlots {g : Graph} {actions : List Action}
    (lacking : ¬ g.HasSlots actions) : g.applyAll actions = none := by
  rw [applyAll_eq, if_neg lacking]

/-- A run that starts from a tally adds its own counts to it. -/
theorem foldl_runNext (actions : List Action) (g : Graph) (r : Tally) :
    actions.foldl runNext (g, r) = ((g.run actions).1,
      ⟨r.actions + (g.run actions).2.actions, r.skipped + (g.run actions).2.skipped⟩) := by
  induction actions generalizing g r with
  | nil => rfl
  | cons a actions ih =>
    have first : runNext (g, r) a = ((g.applyAction a).1,
      ⟨r.actions + 1, r.skipped + (g.applyAction a).2⟩) := rfl
    have alone : g.run (a :: actions) = actions.foldl runNext ((g.applyAction a).1,
      ⟨0 + 1, 0 + (g.applyAction a).2⟩) := rfl
    rw [List.foldl_cons, first, ih, alone, ih]
    simp only [Nat.zero_add, Nat.add_assoc]

theorem run_append (g : Graph) (a b : List Action) :
    g.run (a ++ b) = (((g.run a).1.run b).1,
      ⟨(g.run a).2.actions + ((g.run a).1.run b).2.actions,
        (g.run a).2.skipped + ((g.run a).1.run b).2.skipped⟩) := by
  have split : g.run (a ++ b) = b.foldl runNext (g.run a) := List.foldl_append
  rw [split]
  exact foldl_runNext b _ _

theorem run_cons (g : Graph) (a : Action) (actions : List Action) :
    g.run (a :: actions) = (((g.applyAction a).1.run actions).1,
      ⟨1 + ((g.applyAction a).1.run actions).2.actions,
        (g.applyAction a).2 + ((g.applyAction a).1.run actions).2.skipped⟩) := by
  have split := g.run_append [a] actions
  simpa [run, runNext] using split

theorem hasSlots_append (g : Graph) (a b : List Action) :
    g.HasSlots (a ++ b) ↔ g.HasSlots a ∧ (g.run a).1.HasSlots b := by
  induction a generalizing g with
  | nil => simp [HasSlots, run]
  | cons x a ih =>
    rw [List.cons_append, HasSlots, HasSlots, ih, run_cons, and_assoc]

private theorem hasSlots_iff (g : Graph) (actions : List Action) :
    g.HasSlots actions ↔ ∀ before a after, actions = before ++ a :: after →
      (g.run before).1.lacksSlot a = false := by
  constructor
  · rintro slots before a after rfl
    exact ((g.hasSlots_append before (a :: after)).mp slots).2.1
  · intro all
    induction actions generalizing g with
    | nil => trivial
    | cons a actions ih =>
      refine ⟨all [] a actions rfl, ih _ fun before b after split => ?_⟩
      have later := all (a :: before) b after (by rw [split]; rfl)
      rwa [run_cons] at later

theorem lacksSlot_iff (a : Action) (g : Graph) :
    g.lacksSlot a = true ↔ ∃ h l n, g = api h ∧ a = .addLora l ∧ h.node? l.target = some n ∧
      ApiGraph.largestSlot n.inputs + 1 = ApiGraph.slotBound := by
  cases g with
  | canvas c => simp [lacksSlot]
  | api h => simp [lacksSlot, ApiGraph.lacksSlot_iff]

/-- The runs without a result are those that come to an entry for a node that has the largest word as
a slot. -/
theorem applyAll_eq_none_iff (template : Graph) (actions : List Action) :
    template.applyAll actions = none ↔ template.RunsOut actions := by
  constructor
  · intro none
    have lacking : ¬ template.HasSlots actions := by
      intro slots
      exact nomatch none.symm.trans (applyAll_of_hasSlots slots)
    clear none
    -- from the end, so that the first action that lacks a slot is found
    induction actions using List.reverseRecOn with
    | nil => exact absurd trivial lacking
    | append_singleton actions a ih =>
      by_cases slots : template.HasSlots actions
      · have lacks : (template.run actions).1.lacksSlot a = true := by
          by_contra enough
          rw [Bool.not_eq_true] at enough
          exact lacking ((template.hasSlots_append actions [a]).mpr ⟨slots, enough, trivial⟩)
        obtain ⟨g, l, n, same, rfl, node, full⟩ := (lacksSlot_iff _ _).mp lacks
        refine ⟨actions, l, [], g, (template.run actions).2, n, rfl, ?_, node, full⟩
        rw [applyAll_of_hasSlots slots, ← same]
      · obtain ⟨before, l, after, g, t, n, rfl, reached⟩ := ih slots
        exact ⟨before, l, after ++ [a], g, t, n, by simp, reached⟩
  · rintro ⟨before, l, after, g, t, n, rfl, reached, node, full⟩
    obtain ⟨-, made⟩ := applyAll_eq_some_iff.mp reached
    refine applyAll_of_not_hasSlots fun slots => ?_
    have next := ((template.hasSlots_append before _).mp slots).2.1
    have lacks : (api g).lacksSlot (.addLora l) = true :=
      (lacksSlot_iff _ _).mpr ⟨g, l, n, rfl, rfl, node, full⟩
    rw [made, lacks] at next
    exact nomatch next

/-- A node with an entry, and with an input that has the largest word in its name. -/
def crowded : ApiNode :=
  ⟨"PowerLoader", [
    ("lora_0", .obj [("on", .bool true), ("lora", .str "old"), ("strength", .ofDouble (.ofInt 1))]),
    ("lora_18446744073709551615", .ofNat 1)], []⟩

def crowdedGraph : ApiGraph := ⟨[("9", crowded)]⟩

def crowdedEntry : LoraEntry := ⟨.small 9, .small 9, "new", .ofInt 1, true, some .high⟩

theorem node?_crowdedGraph : crowdedGraph.node? crowdedEntry.target = some crowded := by
  have key : crowdedEntry.target.key = "9" := by decide +kernel
  rw [ApiGraph.node?, key]
  rfl

private theorem largestSlot_crowded :
    ApiGraph.largestSlot crowded.inputs + 1 = ApiGraph.slotBound := by
  decide

theorem applyAll_crowdedGraph : (api crowdedGraph).applyAll [.addLora crowdedEntry] = none :=
  ((api crowdedGraph).applyAll_eq_none_iff _).mpr
    ⟨[], crowdedEntry, [], crowdedGraph, ⟨0, 0⟩, crowded, rfl, rfl, node?_crowdedGraph,
      largestSlot_crowded⟩

private theorem hasSlots_of_canvas (c : Canvas) (actions : List Action) :
    (canvas c).HasSlots actions := by
  induction actions generalizing c with
  | nil => trivial
  | cons a actions ih => exact ⟨rfl, ih (c.applyAction a).1⟩

theorem applyAll_canvas (c : Canvas) (actions : List Action) :
    (canvas c).applyAll actions = some ((canvas c).run actions) :=
  applyAll_of_hasSlots (hasSlots_of_canvas c actions)

theorem hasSlots_of_noLora {actions : List Action} (noLora : ∀ l, .addLora l ∉ actions)
    (g : Graph) : g.HasSlots actions := by
  refine (g.hasSlots_iff actions).mpr fun before a after split => ?_
  rw [← Bool.not_eq_true, lacksSlot_iff]
  rintro ⟨h, l, n, -, rfl, -⟩
  exact noLora l (by simp [split])

end Graph

end WorkflowGraph
