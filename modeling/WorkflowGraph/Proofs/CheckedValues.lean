/- Checks and actions read values alike: what passes a check is what actions are made of. -/

import Mathlib.Data.List.DropRight
import Mathlib.Data.List.Sublists
import WorkflowGraph.Proofs.Conformance
import WorkflowGraph.Proofs.LoraEntries

set_option autoImplicit false
set_option relaxedAutoImplicit false

/-!
A check reads a value to see whether it can be used, and a mapping reads it again to use it. Both
look for paths and for truth values with functions of their own, through strings, objects and nested
objects, so that they find the same has to be proved shape by shape.
-/

namespace WorkflowGraph

namespace Text

theorem trimChars_eq (cs : List Char) :
    trimChars cs = (cs.dropWhile isBlank).rdropWhile isBlank := rfl

private theorem dropWhile_trimChars (cs : List Char) :
    (trimChars cs).dropWhile isBlank = trimChars cs := by
  rw [List.dropWhile_eq_self_iff]
  intro inhabited
  obtain ⟨rest, split⟩ : trimChars cs <+: cs.dropWhile isBlank := List.rdropWhile_prefix isBlank _
  have some : 0 < (cs.dropWhile isBlank).length := by
    rw [← split, List.length_append]
    omega
  -- trimming the end leaves the first character that is left of trimming the start
  have first : (trimChars cs)[0] = (cs.dropWhile isBlank)[0] := by
    simp only [← split, List.getElem_append_left inhabited]
  exact first ▸ List.dropWhile_get_zero_not isBlank cs some

private theorem trim_trim (s : String) : trim (trim s) = trim s := by
  have chars : (trim s).toList = trimChars s.toList := String.toList_ofList
  rw [trim, chars, trimChars_eq (trimChars s.toList), dropWhile_trimChars, trimChars_eq,
    List.rdropWhile_idempotent, ← trimChars_eq]
  rfl

private theorem trim_of_isBlankText {s : String} (h : isBlankText s = true) : trim s = "" := by
  rw [trim, trimChars_of_isBlankText h, String.ofList_nil]

end Text

namespace Value

private theorem trim_modelPath? {v : Value} {path : String} (h : v.modelPath? = some path) :
    Text.trim path = path := by
  obtain ⟨s, -, h⟩ := Option.bind_eq_some_iff.mp h
  by_cases empty : Text.trim s = ""
  · simp [empty] at h
  · obtain rfl : Text.trim s = path := by simpa [empty] using h
    exact Text.trim_trim s

private theorem exists_modelValue {v : Value} {path : String} (h : v.modelPath? = some path)
    (readable : (∃ s, v = .str s) ∨ ∃ members, v = .obj members) :
    ∃ s, modelValue v = .str s ∧ Text.isBlankText s = false := by
  rcases readable with ⟨s, rfl⟩ | ⟨members, rfl⟩
  · -- a bare path is written as it was supplied, with the blanks around it
    refine ⟨s, rfl, ?_⟩
    rw [← Bool.not_eq_true]
    intro blank
    simp [modelPath?, Text.trim_of_isBlankText blank] at h
  · refine ⟨path, ?_, modelPath?_not_blank h⟩
    cases found : Assoc.get? "path" members with
    | none => simp [modelPath?, found] at h
    | some w => simp [modelValue, Assoc.contains, found, h]

end Value

private theorem loraHalf?_eq_none_iff {entry : Object} {variant : NoiseVariant} :
    loraHalf? entry variant = none ↔
      (Assoc.get? variant.key entry).bind Value.modelPath? = none := by
  cases half : Assoc.get? variant.key entry with
  | none => simp [loraHalf?, half]
  | some v => cases path : v.modelPath? <;> simp [loraHalf?, half, path]

private theorem variant_loraHalf? {entry : Object} {variant : NoiseVariant} {t : LoraTarget}
    (h : loraHalf? entry variant = some t) : t.variant = variant := by
  obtain ⟨half, -, h⟩ := Option.bind_eq_some_iff.mp h
  obtain ⟨path, -, h⟩ := Option.bind_eq_some_iff.mp h
  obtain rfl := Option.some.inj h
  rfl

private theorem loraTargets_eq_nil_iff (v : Value) :
    loraTargets v = [] ↔ entryHasPath v = false := by
  cases v with
  | obj entry =>
    -- the single path of an entry counts only where neither half has one
    cases high : loraHalf? entry .high with
    | some t =>
      have found : (Assoc.get? NoiseVariant.high.key entry).bind Value.modelPath? ≠ none :=
        fun none => nomatch high.symm.trans (loraHalf?_eq_none_iff.mpr none)
      simp [loraTargets, entryHasPath, NoiseVariant.all, high, found]
    | none =>
      cases low : loraHalf? entry .low with
      | some t =>
        have found : (Assoc.get? NoiseVariant.low.key entry).bind Value.modelPath? ≠ none :=
          fun none => nomatch low.symm.trans (loraHalf?_eq_none_iff.mpr none)
        simp [loraTargets, entryHasPath, NoiseVariant.all, high, low, found]
      | none =>
        have noHigh := loraHalf?_eq_none_iff.mp high
        have noLow := loraHalf?_eq_none_iff.mp low
        cases path : (Assoc.get? "path" entry).bind Value.modelPath? <;>
          simp [loraTargets, entryHasPath, NoiseVariant.all, high, low, noHigh, noLow, path]
  | _ => simp only [loraTargets, entryHasPath]; split <;> simp_all

private theorem variants_loraTargets (v : Value) :
    ((loraTargets v).map LoraTarget.variant).Sublist NoiseVariant.all := by
  have single : ∀ variant : NoiseVariant, [variant].Sublist NoiseVariant.all := by
    intro variant
    cases variant <;> simp [NoiseVariant.all]
  have halves : ∀ (entry : Object) (variants : List NoiseVariant),
      ((variants.filterMap (loraHalf? entry)).map LoraTarget.variant).Sublist variants := by
    intro entry variants
    induction variants with
    | nil => exact .slnil
    | cons variant variants ih =>
      cases h : loraHalf? entry variant with
      | none => simpa [h] using ih.cons variant
      | some t => simpa [h, variant_loraHalf? h] using ih.cons_cons variant
  unfold loraTargets
  split
  · rename_i entry
    split
    · split
      · exact List.nil_sublist _
      · exact single _
    · exact halves entry NoiseVariant.all
  · split
    · exact single _
    · exact List.nil_sublist _

namespace Field

def pathlessWarning (f : Field) (i : Nat) : Finding :=
  .warning (f.label ++ " entry " ++ natText (i + 1) ++ " has no LoRA path and will be skipped")

private theorem pathlessWarning_injective {f : Field} {i j : Nat}
    (h : f.pathlessWarning i = f.pathlessWarning j) : i = j := by
  have texts := Finding.warning.inj h
  simp only [String.append_assoc, String.append_right_inj, String.append_left_inj] at texts
  exact Nat.succ.inj (natText_injective texts)

private theorem checkList_arr (maxLoras : Nat) (f : Field) (entries : List Value) :
    f.checkList maxLoras (.arr entries) =
      (if f.maxItems?.getD maxLoras < entries.length then
        [.warning (f.label ++ " has " ++ natText entries.length ++ " entries; at most " ++
          natText (f.maxItems?.getD maxLoras) ++ " are recommended")]
      else []) ++
      entries.zipIdx.flatMap fun p =>
        if entryHasPath p.1 then [] else [f.pathlessWarning p.2] := rfl

private theorem pathlessWarning_mem_iff {f : Field} {entries : List Value} {i : Nat} {entry : Value}
    (maxLoras : Nat) (found : entries[i]? = some entry) :
    f.pathlessWarning i ∈ f.checkList maxLoras (.arr entries) ↔ entryHasPath entry = false := by
  have listed : (entry, i) ∈ entries.zipIdx := List.mk_mem_zipIdx_iff_getElem?.mpr found
  rw [checkList_arr, List.mem_append]
  constructor
  · rintro (long | pathless)
    · -- that there are too many entries is said in other words
      split at long
      · have texts := Finding.warning.inj (List.mem_singleton.mp long)
        simp only [String.append_assoc, String.append_right_inj] at texts
        exact absurd (congrArg (fun s => s.toList[1]?) texts) (by simp)
      · exact absurd long List.not_mem_nil
    · obtain ⟨⟨other, j⟩, hj, own⟩ := List.mem_flatMap.mp pathless
      split at own
      · exact absurd own List.not_mem_nil
      · rename_i without
        obtain rfl := pathlessWarning_injective (List.mem_singleton.mp own)
        have same := List.mk_mem_zipIdx_iff_getElem?.mp hj
        rw [found] at same
        obtain rfl := Option.some.inj same
        simpa using without
  · intro without
    refine Or.inr (List.mem_flatMap.mpr ⟨_, listed, ?_⟩)
    simp [without]

end Field

namespace WidgetMapping

private theorem actions_of_conforms {f : Field} (pair : f.type = .modelPair)
    (required : f.required = true) {v : Value} (conforms : f.Conforms v) {w : WidgetMapping}
    {high low : NodeId} (toHigh : w.highNodeId = some high) (toLow : w.lowNodeId = some low) :
    ∃ highPath lowPath, Text.isBlankText highPath = false ∧ Text.isBlankText lowPath = false ∧
      w.actions v = [w.write (.str highPath) high, w.write (.str lowPath) low] := by
  obtain ⟨members, rfl, both⟩ : ∃ members, v = .obj members ∧
      (f.required = true → ∀ variant : NoiseVariant,
        ∃ path, (Assoc.get? variant.key members).bind Value.modelPath? = some path) := by
    simpa only [Field.Conforms, pair] using conforms
  have notBlank : ∀ {half : Option Value} {path : String},
      half.bind Value.modelPath? = some path → Text.isBlankText path = false := by
    intro half path h
    obtain ⟨v, -, h⟩ := Option.bind_eq_some_iff.mp h
    exact Value.modelPath?_not_blank h
  obtain ⟨highPath, hh⟩ := both required .high
  obtain ⟨lowPath, hl⟩ := both required .low
  have halves : w.hasPair = true := by simp [hasPair, toHigh]
  refine ⟨highPath, lowPath, notBlank hh, notBlank hl, ?_⟩
  simp [actions, halves, pairActions, NoiseVariant.all, half?, toHigh, toLow, hh, hl]

private theorem writes_of_conforms {f : Field} (model : f.type = .singleModel)
    (required : f.required = true) {v : Value} (conforms : f.Conforms v) {w : WidgetMapping}
    (single : w.hasPair = false) :
    ∃ s, Text.isBlankText s = false ∧ w.actions v = w.targets.map (w.write (.str s)) := by
  obtain ⟨readable, found⟩ : ((∃ s, v = .str s) ∨ ∃ members, v = .obj members) ∧
      (f.required = true → ∃ path, v.modelPath? = some path) := by
    simpa only [Field.Conforms, model] using conforms
  obtain ⟨path, hpath⟩ := found required
  obtain ⟨s, written, black⟩ := Value.exists_modelValue hpath readable
  refine ⟨s, black, ?_⟩
  rw [← written]
  simp [actions, single]

end WidgetMapping

namespace Double

private theorem truncate_of_equal {a b : Double} (h : a.equal b = true) :
    a.truncate = b.truncate := by
  have units : a.units = b.units := by simpa [equal] using h
  rw [truncate, units, truncate]

end Double

namespace NodeMode

private theorem disabling?_eq_none_iff {i : Int} : disabling? i = none ↔ i ≠ 2 ∧ i ≠ 4 := by
  unfold disabling?
  split
  · simp [*]
  · split <;> simp [*]

end NodeMode

namespace Value

private theorem int?_of_checkbox? {n : Number} {b : Bool} (h : (Value.num n).checkbox? = some b)
    {i : Int} (hi : (Value.num n).int? = some i) : i ≠ 2 ∧ i ≠ 4 := by
  have spelled : n.toDouble.equal (Double.ofInt 1) = true ∨
      n.toDouble.equal (Double.zero false) = true := by
    by_contra neither
    rw [not_or] at neither
    simp [checkbox?, neither.1, neither.2] at h
  cases whole : n.int64? with
  | some j =>
    -- the integer is kept as it is, while its spelling was compared as the nearest double
    obtain rfl : j = i := by simpa [int?, whole] using hi
    obtain ⟨fits, rfl⟩ : ∃ fits, n = .int j fits := by
      cases n with
      | int k fits =>
        obtain rfl : k = j := Option.some.inj (Option.ite_none_right_eq_some.mp whole).2
        exact ⟨fits, rfl⟩
      | double d => exact absurd whole (by simp [Number.int64?])
    have spelled : (Double.ofInt j).equal (Double.ofInt 1) = true ∨
        (Double.ofInt j).equal (Double.zero false) = true := spelled
    refine ⟨?_, ?_⟩
    all_goals
      rintro rfl
      exact absurd spelled (by decide +kernel)
  | none =>
    have cut : n.toDouble.truncate = i := by
      simp only [int?, whole] at hi
      exact Option.some.inj (Option.ite_none_right_eq_some.mp hi).2
    have one : (Double.ofInt 1).truncate = 1 := by decide +kernel
    have zero : (Double.zero false).truncate = 0 := by decide +kernel
    rcases spelled with h | h
    · rw [← cut, Double.truncate_of_equal h, one]
      decide
    · rw [← cut, Double.truncate_of_equal h, zero]
      decide

private theorem toggleState_of_checkbox? {v : Value} {b : Bool} (h : v.checkbox? = some b)
    (m : NodeMode) : toggleState v m = (b, m) := by
  have truth : v.truthy = b := by simp [truthy, h]
  have unnamed : (if v.isNumber then v.int?.bind NodeMode.disabling? else none) = none := by
    split
    · rename_i number
      obtain ⟨n, rfl⟩ : ∃ n, v = .num n := by cases v <;> simp_all [isNumber]
      rw [Option.bind_eq_none_iff]
      intro i hi
      exact NodeMode.disabling?_eq_none_iff.mpr (int?_of_checkbox? h hi)
    · rfl
  rw [toggleState, unnamed, truth]

end Value

private theorem variants_of_loraTargets_ne_nil {v : Value} (h : loraTargets v ≠ []) :
    (loraTargets v).map LoraTarget.variant ∈
      [[NoiseVariant.high], [NoiseVariant.low], [NoiseVariant.high, NoiseVariant.low]] := by
  have halves := List.mem_sublists.mpr (variants_loraTargets v)
  have some : (loraTargets v).map LoraTarget.variant ≠ [] := by simpa using h
  have choices : NoiseVariant.all.sublists = [[], [.high], [.low], [.high, .low]] := by decide
  rw [choices] at halves
  exact List.mem_of_ne_of_mem some halves

namespace Field

open Finding (Clean)

/-- What a check says of a value is what becomes of it in actions. An entry of a list has no targets
exactly when it is warned of, and else one for a half or one for each, with trimmed paths. A pair
that is required and passes is written to the nodes of both halves, a model that is required and
passes is written as a path, and a checkbox that passes switches to what it spells in the mode of
the mapping. -/
theorem checked_as_compiled (maxLoras : Nat) (f : Field) :
    (f.type = .loraList → ∀ (entries : List Value) (i : Nat) (entry : Value),
      entries[i]? = some entry →
      (loraTargets entry = [] ↔
        f.pathlessWarning i ∈ f.checkValue maxLoras (.arr entries)) ∧
      (f.pathlessWarning i ∉ f.checkValue maxLoras (.arr entries) →
        (loraTargets entry).map LoraTarget.variant ∈ [[.high], [.low], [.high, .low]]) ∧
      ∀ t ∈ loraTargets entry, Text.trim t.path = t.path ∧ Text.isBlankText t.path = false) ∧
    (f.type = .modelPair → f.required = true → ∀ v, Clean (f.checkValue maxLoras v) →
      ∀ (w : WidgetMapping) (high low : NodeId),
        w.highNodeId = some high → w.lowNodeId = some low →
        ∃ highPath lowPath, Text.isBlankText highPath = false ∧ Text.isBlankText lowPath = false ∧
          w.actions v = [
            .modifyWidget ⟨high, w.indices, w.names, .str highPath, w.nodeKind⟩,
            .modifyWidget ⟨low, w.indices, w.names, .str lowPath, w.nodeKind⟩]) ∧
    (f.type = .singleModel → f.required = true → ∀ v, Clean (f.checkValue maxLoras v) →
      ∀ w : WidgetMapping, w.hasPair = false →
        ∃ s, Text.isBlankText s = false ∧ w.actions v =
          w.targets.map fun id => .modifyWidget ⟨id, w.indices, w.names, .str s, w.nodeKind⟩) ∧
    (f.type = .checkbox → ∀ v, Clean (f.checkValue maxLoras v) →
      ∃ b, v.checkbox? = some b ∧ ∀ mode, toggleState v mode = (b, mode)) := by
  refine ⟨?_, ?_, ?_, ?_⟩
  · intro list entries i entry found
    have warned : loraTargets entry = [] ↔
        f.pathlessWarning i ∈ f.checkValue maxLoras (.arr entries) := by
      rw [checkValue, list]
      exact (loraTargets_eq_nil_iff entry).trans (pathlessWarning_mem_iff maxLoras found).symm
    refine ⟨warned, fun silent => variants_of_loraTargets_ne_nil (mt warned.mp silent), ?_⟩
    intro t ht
    obtain ⟨v, path⟩ := path_of_mem_loraTargets ht
    exact ⟨Value.trim_modelPath? path, Value.modelPath?_not_blank path⟩
  · intro pair required v clean w high low toHigh toLow
    exact WidgetMapping.actions_of_conforms pair required
      ((f.clean_checkValue_iff maxLoras).mp clean) toHigh toLow
  · intro model required v clean w single
    exact WidgetMapping.writes_of_conforms model required
      ((f.clean_checkValue_iff maxLoras).mp clean) single
  · intro checkbox v clean
    obtain ⟨b, spelled⟩ : ∃ b, v.checkbox? = some b := by
      simpa only [Conforms, checkbox] using (f.clean_checkValue_iff maxLoras).mp clean
    exact ⟨b, spelled, Value.toggleState_of_checkbox? spelled⟩

def pairWidget : WidgetMapping :=
  ⟨none, [], [0], none, [], none, some Graph.pairOfLoaders.highNodeId,
    some Graph.pairOfLoaders.lowNodeId⟩

def modelWidget : WidgetMapping :=
  ⟨some Graph.pairOfLoaders.highNodeId, [], [0], none, [], none, none, none⟩

def requiredField (id : String) (type : FieldType) : Field :=
  { Config.bareField id type with required := true }

theorem stack_checked_as_compiled :
    (loraTargets (.obj [("path", .str " ")]) = [] ∧
      (Config.bareField "stack" .loraList).pathlessWarning 0 ∈
        (Config.bareField "stack" .loraList).checkValue defaultMaxLoras
          (.arr [.obj [("path", .str " ")]])) ∧
    pairWidget.actions
        (.obj [("high_noise", .str "base_h"), ("low_noise", .obj [("path", .str " base_l ")])]) =
      [.modifyWidget ⟨.small 20, [0], [], .str "base_h", none⟩,
        .modifyWidget ⟨.small 21, [0], [], .str "base_l", none⟩] ∧
    modelWidget.actions (.str " base ") =
      [.modifyWidget ⟨.small 20, [0], [], .str " base ", none⟩] ∧
    toggleState (.ofNat 1) .muted = (true, .muted) := by
  obtain ⟨list, -, -, -⟩ := checked_as_compiled defaultMaxLoras (Config.bareField "stack" .loraList)
  obtain ⟨-, pair, -, -⟩ := checked_as_compiled defaultMaxLoras (requiredField "base" .modelPair)
  obtain ⟨-, -, model, -⟩ := checked_as_compiled defaultMaxLoras (requiredField "base" .singleModel)
  obtain ⟨-, -, -, box⟩ := checked_as_compiled defaultMaxLoras (Config.bareField "on" .checkbox)
  have blank : loraTargets (.obj [("path", .str " ")]) = [] := by decide +kernel
  refine ⟨⟨blank, ?_⟩, ?_, ?_, ?_⟩
  · obtain ⟨warned, -, -⟩ := list rfl [.obj [("path", .str " ")]] 0 _ rfl
    exact warned.mp blank
  · obtain ⟨highPath, lowPath, -, -, written⟩ := pair rfl rfl
      (.obj [("high_noise", .str "base_h"), ("low_noise", .obj [("path", .str " base_l ")])])
      (by decide +kernel) pairWidget _ _ rfl rfl
    have paths : pairWidget.actions
          (.obj [("high_noise", .str "base_h"), ("low_noise", .obj [("path", .str " base_l ")])]) =
        [pairWidget.write (.str "base_h") (.small 20),
          pairWidget.write (.str "base_l") (.small 21)] := rfl
    obtain ⟨rfl, rfl⟩ : highPath = "base_h" ∧ lowPath = "base_l" := by
      simpa [WidgetMapping.write, Graph.pairOfLoaders] using written.symm.trans paths
    exact written
  · obtain ⟨s, -, written⟩ :=
      model rfl rfl (.str " base ") (by decide +kernel) modelWidget rfl
    have path : modelWidget.actions (.str " base ") =
        [modelWidget.write (.str " base ") (.small 20)] := rfl
    have target : modelWidget.targets = [.small 20] := rfl
    rw [target] at written
    obtain rfl : s = " base " := by
      simpa [WidgetMapping.write] using written.symm.trans path
    exact written
  · obtain ⟨b, spelled, switched⟩ := box rfl (.ofNat 1) (by decide +kernel)
    obtain rfl : true = b := by
      have one : (Value.ofNat 1).checkbox? = some true := by decide +kernel
      exact Option.some.inj (one.symm.trans spelled)
    exact switched .muted

end Field

end WorkflowGraph
