/- Slots for entries of the flat form: each is fresh, as long as there are numbers for all of them. -/

import WorkflowGraph.Proofs.ApiSteps
import WorkflowGraph.Proofs.Assoc
import Mathlib.Data.List.Fold
import Mathlib.Data.List.MinMax
import Mathlib.Data.List.Nodup

set_option autoImplicit false
set_option relaxedAutoImplicit false

/-!
The next slot is one more than the largest slot in use, whatever else the inputs are called, so no
input has its name, and entries that are added one after another get consecutive slots behind all
inputs. Numbers of slots are words, and a run ends without a result when it needs one more.
-/

namespace WorkflowGraph

namespace ApiGraph

private theorem slotOfName?_slotName {slot : Nat} (h : slot < slotBound) :
    slotOfName? (slotName slot) = some slot := by
  have chars : (slotName slot).toList = "lora_".toList ++ Digits.ofNat slot := by
    simp [slotName, natText]
  rw [slotOfName?, chars, Text.dropFirst?_append, Option.bind_some, nat64OfText?_ofNat h]

private theorem slotName_injective {s t : Nat} (h : slotName s = slotName t) : s = t :=
  natText_injective ((String.append_right_inj "lora_").mp h)

private theorem slotName_not_mem_keys {inputs : Object} {slot : Nat}
    (beyond : largestSlot inputs < slot) (word : slot < slotBound) :
    slotName slot ∉ Assoc.keys inputs := by
  intro h
  have used : slot ∈ (Assoc.keys inputs).filterMap slotOfName? :=
    List.mem_filterMap.mpr ⟨slotName slot, h, slotOfName?_slotName word⟩
  have bound : slot ≤ largestSlot inputs := by
    rw [largestSlot, List.foldl_eq_foldr]
    exact List.le_max_of_le' 0 used (Nat.le_refl slot)
  omega

private theorem largestSlot_append_singleton (inputs : Object) {slot : Nat}
    (word : slot < slotBound) (v : Value) :
    largestSlot (inputs ++ [(slotName slot, v)]) = max (largestSlot inputs) slot := by
  simp [largestSlot, slotOfName?_slotName word]

def inSlots (first : Nat) (entries : List LoraEntry) : Object :=
  (entries.zipIdx first).map fun p => (slotName p.2, p.1.input)

private theorem keys_inSlots (first : Nat) (entries : List LoraEntry) :
    Assoc.keys (inSlots first entries) = (List.range' first entries.length).map slotName := by
  induction entries generalizing first with
  | nil => rfl
  | cons l entries ih => exact congrArg (slotName first :: ·) (ih (first + 1))

private theorem nodup_keys_inSlots (first : Nat) (entries : List LoraEntry) :
    (Assoc.keys (inSlots first entries)).Nodup := by
  rw [keys_inSlots]
  exact List.Nodup.map (fun _ _ => slotName_injective) List.nodup_range'

private theorem mem_keys_inSlots {first : Nat} {entries : List LoraEntry} {key : String} :
    key ∈ Assoc.keys (inSlots first entries) ↔
      ∃ slot, first ≤ slot ∧ slot < first + entries.length ∧ slotName slot = key := by
  simp [keys_inSlots, and_assoc]

end ApiGraph

namespace ApiNode

open ApiGraph

def addEntries (entries : List LoraEntry) (n : ApiNode) : ApiNode :=
  entries.foldl (fun n l => n.addEntry l) n

@[simp] theorem addEntries_nil (n : ApiNode) : n.addEntries [] = n := rfl

@[simp] theorem addEntries_cons (l : LoraEntry) (entries : List LoraEntry) (n : ApiNode) :
    n.addEntries (l :: entries) = (n.addEntry l).addEntries entries := rfl

private theorem addEntries_frame (entries : List LoraEntry) (n : ApiNode) :
    (n.addEntries entries).kind = n.kind ∧ (n.addEntries entries).extra = n.extra := by
  induction entries generalizing n with
  | nil => exact ⟨rfl, rfl⟩
  | cons l entries ih => exact ih (n.addEntry l)

private theorem after_addLora {entries : List LoraEntry} {key : String}
    (routed : ∀ l ∈ entries, l.target.key = key) (n : ApiNode) :
    n.after (entries.map .addLora) key = n.addEntries entries := by
  induction entries generalizing n with
  | nil => rfl
  | cons l entries ih =>
    have first : (Action.addLora l).onKeyed key n = n.addEntry l :=
      if_pos (routed l List.mem_cons_self).symm
    rw [List.map_cons, after_cons, first, addEntries_cons]
    exact ih (fun l' hl => routed l' (List.mem_cons_of_mem l hl)) (n.addEntry l)

private theorem addEntry_of_lt {n : ApiNode} (room : largestSlot n.inputs + 1 < slotBound)
    (l : LoraEntry) :
    n.addEntry l =
      { n with inputs := n.inputs ++ [(slotName (largestSlot n.inputs + 1), l.input)] } := by
  rw [addEntry, nextSlot,
    Assoc.insert_of_not_mem (slotName_not_mem_keys (Nat.lt_succ_self _) room)]

private theorem largestSlot_addEntry_of_lt {n : ApiNode}
    (room : largestSlot n.inputs + 1 < slotBound) (l : LoraEntry) :
    largestSlot (n.addEntry l).inputs = largestSlot n.inputs + 1 := by
  rw [addEntry_of_lt room, largestSlot_append_singleton n.inputs room]
  omega

private theorem addEntries_of_lt {entries : List LoraEntry} {n : ApiNode}
    (room : largestSlot n.inputs + entries.length < slotBound) :
    n.addEntries entries =
        { n with inputs := n.inputs ++ inSlots (largestSlot n.inputs + 1) entries } ∧
      largestSlot (n.addEntries entries).inputs = largestSlot n.inputs + entries.length := by
  induction entries generalizing n with
  | nil => simp [inSlots]
  | cons l entries ih =>
    rw [List.length_cons] at room
    have next : largestSlot n.inputs + 1 < slotBound := by omega
    have grown := largestSlot_addEntry_of_lt next l
    obtain ⟨rest, largest⟩ := ih (n := n.addEntry l) (by omega)
    refine ⟨?_, by rw [addEntries_cons, largest, grown, List.length_cons]; omega⟩
    rw [addEntries_cons, rest, grown, addEntry_of_lt next, List.append_assoc]
    rfl

/-- Entries stand behind the inputs of a node, in consecutive slots that none of them had. -/
structure InFreshSlots (n : ApiNode) (entries : List LoraEntry) (n' : ApiNode) : Prop where
  behind : n'.inputs = n.inputs ++ inSlots (largestSlot n.inputs + 1) entries
  absent : ∀ key ∈ Assoc.keys (inSlots (largestSlot n.inputs + 1) entries),
    key ∉ Assoc.keys n.inputs
  distinct : (Assoc.keys (inSlots (largestSlot n.inputs + 1) entries)).Nodup

private theorem inFreshSlots_addEntries {n : ApiNode} {entries : List LoraEntry}
    (room : largestSlot n.inputs + entries.length < slotBound) :
    n.InFreshSlots entries (n.addEntries entries) := by
  refine ⟨by rw [(addEntries_of_lt room).1], ?_, nodup_keys_inSlots _ _⟩
  intro key hk
  obtain ⟨slot, beyond, bound, rfl⟩ := mem_keys_inSlots.mp hk
  exact slotName_not_mem_keys beyond (by omega)

end ApiNode

private theorem ApiGraph.node?_applyAction (a : Action) (g : ApiGraph) (id : NodeId) :
    (g.applyAction a).1.node? id = (g.node? id).map (a.onKeyed id.key) := by
  rw [applyAction_fst]
  exact Assoc.get?_mapFirst id.key _ g.nodes

namespace Graph

open ApiGraph

private theorem hasSlots_addLora_iff {g : ApiGraph} {id : NodeId} {n : ApiNode}
    (node : g.node? id = some n) {entries : List LoraEntry}
    (routed : ∀ l ∈ entries, l.target.key = id.key) :
    (api g).HasSlots (entries.map .addLora) ↔
      largestSlot n.inputs + entries.length < slotBound := by
  induction entries generalizing g n with
  | nil => simpa [HasSlots] using largestSlot_lt n.inputs
  | cons l entries ih =>
    have here : g.node? l.target = some n := by
      rw [ApiGraph.node?, routed l List.mem_cons_self]
      exact node
    have lacks : (api g).lacksSlot (.addLora l) = true ↔ largestSlot n.inputs + 1 = slotBound := by
      simp [lacksSlot_iff, here]
    have word := largestSlot_lt n.inputs
    rw [List.map_cons, HasSlots, List.length_cons, ← Bool.not_eq_true, lacks]
    by_cases full : largestSlot n.inputs + 1 = slotBound
    · constructor
      · exact fun h => absurd full h.1
      · omega
    · have room : largestSlot n.inputs + 1 < slotBound := by omega
      have next : (g.applyAction (.addLora l)).1.node? id = some (n.addEntry l) := by
        rw [ApiGraph.node?_applyAction, node]
        exact congrArg some (if_pos (routed l List.mem_cons_self).symm)
      have rest := ih next fun l' hl => routed l' (List.mem_cons_of_mem l hl)
      rw [ApiNode.largestSlot_addEntry_of_lt room] at rest
      rw [and_iff_right full]
      refine rest.trans ?_
      omega

/-- Entries for one node get consecutive slots behind its inputs, which they leave as they are, and
none of the inputs had one of these slots, exactly when there are numbers for all of them. Otherwise
the run has no result, as the number of a slot overflows. -/
theorem fresh_slots_iff {g : ApiGraph} {id : NodeId} {n : ApiNode} (node : g.node? id = some n)
    {entries : List LoraEntry} (routed : ∀ l ∈ entries, l.target.key = id.key) :
    ((∃ result n', (api g).applyAll (entries.map .addLora) = some result ∧
        result.1.apiNode? id = some n' ∧ n'.kind = n.kind ∧ n'.extra = n.extra ∧
        n.InFreshSlots entries n') ↔
      largestSlot n.inputs + entries.length < slotBound) ∧
    ((api g).applyAll (entries.map .addLora) = none ↔
      slotBound ≤ largestSlot n.inputs + entries.length) := by
  have slots := hasSlots_addLora_iff node routed
  refine ⟨⟨?_, fun room => ?_⟩, ?_⟩
  · rintro ⟨result, -, made, -⟩
    exact slots.mp (applyAll_eq_some_iff.mp made).1
  · obtain ⟨kind, extra⟩ := ApiNode.addEntries_frame entries n
    refine ⟨_, n.addEntries entries, applyAll_of_hasSlots (slots.mpr room), ?_, kind, extra,
      ApiNode.inFreshSlots_addEntries room⟩
    rw [apiNode?_run, node, Option.map_some, ApiNode.after_addLora routed]
  · rw [← Nat.not_lt, ← slots, applyAll_eq]
    simp

def pairEntry (path : String) : LoraEntry :=
  ⟨.small 9, .small 9, path, .ofInt 1, true, some .high⟩

private theorem node?_nine (n : ApiNode) : (ApiGraph.mk [("9", n)]).node? (.small 9) = some n := by
  have key : (NodeId.small 9).key = "9" := by decide +kernel
  rw [ApiGraph.node?, key]
  rfl

/-- Inputs whose names spell the slots seven and three, no slot, and a number that is no word. -/
def oddlyNamed : ApiNode :=
  ⟨"PowerLoader", [("lora_007", .ofNat 1), ("lora_+3", .ofNat 2), ("lora_x", .ofNat 3),
    ("lora_99999999999999999999", .ofNat 4)], []⟩

/-- Slots are counted from the largest number that a name spells, however it is spelt. -/
theorem odd_names_passed :
    (ApiGraph.mk [("9", oddlyNamed)]).node? (.small 9) = some oddlyNamed ∧
      (∀ l ∈ [pairEntry "a", pairEntry "b"], l.target.key = (NodeId.small 9).key) ∧
      ∃ result n', (api ⟨[("9", oddlyNamed)]⟩).applyAll
          ([pairEntry "a", pairEntry "b"].map .addLora) = some result ∧
        result.1.apiNode? (.small 9) = some n' ∧
        n'.inputs = oddlyNamed.inputs ++
          [("lora_8", (pairEntry "a").input), ("lora_9", (pairEntry "b").input)] := by
  have node := node?_nine oddlyNamed
  have routed : ∀ l ∈ [pairEntry "a", pairEntry "b"], l.target.key = (NodeId.small 9).key := by
    simp [pairEntry, LoraEntry.target]
  have largest : largestSlot oddlyNamed.inputs = 7 := by decide
  have slots : inSlots 8 [pairEntry "a", pairEntry "b"] =
      [("lora_8", (pairEntry "a").input), ("lora_9", (pairEntry "b").input)] := by
    have eight : slotName 8 = "lora_8" := by decide +kernel
    have nine : slotName 9 = "lora_9" := by decide +kernel
    rw [← eight, ← nine]
    rfl
  have words : largestSlot oddlyNamed.inputs + 2 < slotBound := by
    rw [largest]
    decide
  obtain ⟨result, n', made, found, -, -, fresh⟩ := (fresh_slots_iff node routed).1.mpr words
  refine ⟨node, routed, result, n', made, found, ?_⟩
  rw [fresh.behind, largest, slots]

/-- One more entry for a node that has the largest word as a slot: no run adds it behind the inputs. -/
theorem crowded_entry_lost :
    crowdedGraph.node? crowdedEntry.target = some crowded ∧
      (api crowdedGraph).applyAll [.addLora crowdedEntry] = none ∧
      ¬ ∃ result n', (api crowdedGraph).applyAll [.addLora crowdedEntry] = some result ∧
        result.1.apiNode? crowdedEntry.target = some n' ∧
        n'.inputs = crowded.inputs ++
          [(slotName (largestSlot crowded.inputs + 1), crowdedEntry.input)] := by
  refine ⟨node?_crowdedGraph, applyAll_crowdedGraph, ?_⟩
  rintro ⟨result, -, made, -⟩
  exact nomatch applyAll_crowdedGraph.symm.trans made

end Graph

end WorkflowGraph
