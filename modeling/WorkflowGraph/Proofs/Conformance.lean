/- Which inputs a check accepts, and how it reports what it finds in the others. -/

import Mathlib.Data.List.Nodup
import WorkflowGraph.Proofs.Gating

set_option autoImplicit false
set_option relaxedAutoImplicit false

/-!
What a value has to be is decided by the type of its field, and a check asks for exactly that of
every field whose condition holds. What it finds goes into the report field by field, in the order
of declaration: two errors at most, from the two bounds of a number or the two halves of a pair, and
warnings for lists of entries alone.
-/

namespace WorkflowGraph

namespace Finding

def Clean (found : List Finding) : Prop := found.filterMap error? = []

instance (found : List Finding) : Decidable (Clean found) :=
  inferInstanceAs (Decidable (_ = []))

@[simp] theorem clean_nil : Clean [] := rfl

@[simp] theorem not_clean_error (message : String) : ¬ Clean [error message] :=
  List.cons_ne_nil message []

@[simp] theorem clean_append_iff {a b : List Finding} : Clean (a ++ b) ↔ Clean a ∧ Clean b := by
  rw [Clean, List.filterMap_append, List.append_eq_nil_iff]
  rfl

@[simp] theorem clean_errorIf_iff {condition : Bool} {message : String} :
    Clean (errorIf condition message) ↔ condition = false := by
  cases condition <;> simp [errorIf]

private theorem clean_of_warnings {found : List Finding} (h : ∀ a ∈ found, ∃ m, a = warning m) :
    Clean found := by
  apply List.filterMap_eq_nil_iff.mpr
  intro a ha
  obtain ⟨m, rfl⟩ := h a ha
  rfl

structure Strict (found : List Finding) : Prop where
  few : found.length ≤ 2
  unwarned : found.filterMap warning? = []

private theorem strict_error (message : String) : Strict [error message] := ⟨by simp, rfl⟩

private theorem strict_errorIf (condition : Bool) (message : String) :
    Strict (errorIf condition message) := by
  cases condition
  · exact ⟨by simp [errorIf], rfl⟩
  · exact strict_error message

private theorem strict_errorIf_append (first second : Bool) (message message' : String) :
    Strict (errorIf first message ++ errorIf second message') := by
  cases first <;> cases second <;> exact ⟨by simp [errorIf], rfl⟩

end Finding

open Finding (Clean Strict)

namespace Field

variable {f : Field} {v : Value}

def InBounds (f : Field) (n : Double) : Prop :=
  (∀ min ∈ f.min?, min.units ≤ n.units) ∧ ∀ max ∈ f.max?, n.units ≤ max.units

/-- What the type of a field asks of a value that is supplied. -/
def Conforms (f : Field) (v : Value) : Prop :=
  match f.type with
  | .slider => ∃ n, v.float? = some n ∧ f.InBounds n
  | .text | .textarea => ∃ s, v = .str s ∧ ∀ max ∈ f.maxLength?, s.length ≤ max
  | .seed => ∃ i, v.int? = some i ∧ -1 ≤ i
  | .checkbox => ∃ b, v.checkbox? = some b
  | .image => ∃ s, v = .str s
  | .modelPair => ∃ pair, v = .obj pair ∧ (f.required = true → ∀ variant : NoiseVariant,
      ∃ path, (Assoc.get? variant.key pair).bind Value.modelPath? = some path)
  | .loraList => ∃ entries, v = .arr entries
  | .singleModel => ((∃ s, v = .str s) ∨ ∃ members, v = .obj members) ∧
      (f.required = true → ∃ path, v.modelPath? = some path)
  | .select => ∃ s, v = .str s ∧ (f.allowed = [] ∨ s ∈ f.allowed)
  | .unknown => True

/-- What a field accepts: no value, where none is required, or one that conforms. -/
def Accepts (f : Field) (v : Option Value) : Prop :=
  isProvided v = false ∧ f.required = false ∨ ∃ w, v = some w ∧ w.isAbsent = false ∧ f.Conforms w

private theorem clean_checkSlider_iff :
    Clean (f.checkSlider v) ↔ ∃ n, v.float? = some n ∧ f.InBounds n := by
  cases h : v.float? with
  | none => simp [checkSlider, h]
  | some n => cases lower : f.min? <;> cases upper : f.max? <;>
      simp [checkSlider, h, InBounds, lower, upper, Double.less]

private theorem clean_checkText_iff :
    Clean (f.checkText v) ↔ ∃ s, v = .str s ∧ ∀ max ∈ f.maxLength?, s.length ≤ max := by
  cases v with
  | str s => cases h : f.maxLength? <;> simp [checkText, h]
  | _ => simp [checkText]

private theorem clean_checkSeed_iff : Clean (f.checkSeed v) ↔ ∃ i, v.int? = some i ∧ -1 ≤ i := by
  cases h : v.int? <;> simp [checkSeed, h]

private theorem clean_checkPair_iff :
    Clean (f.checkPair v) ↔ ∃ pair, v = .obj pair ∧
      (f.required = true → ∀ variant : NoiseVariant,
        ∃ path, (Assoc.get? variant.key pair).bind Value.modelPath? = some path) := by
  cases v with
  | obj pair =>
    cases required : f.required with
    | false => simp [checkPair, required]
    | true =>
      have both : ∀ p : NoiseVariant → Prop, (∀ variant, p variant) ↔ p .high ∧ p .low := by
        intro p
        refine ⟨fun h => ⟨h .high, h .low⟩, fun h variant => ?_⟩
        cases variant
        · exact h.1
        · exact h.2
      simp [checkPair, required, NoiseVariant.all, both, Option.isSome_iff_exists]
  | _ => simp [checkPair]

private theorem clean_checkModel_iff :
    Clean (f.checkModel v) ↔ ((∃ s, v = .str s) ∨ ∃ members, v = .obj members) ∧
      (f.required = true → ∃ path, v.modelPath? = some path) := by
  cases v <;> simp [checkModel, Option.isSome_iff_exists]

private theorem clean_checkSelect_iff :
    Clean (f.checkSelect v) ↔ ∃ s, v = .str s ∧ (f.allowed = [] ∨ s ∈ f.allowed) := by
  cases v <;> simp [checkSelect, or_iff_not_imp_left]

private theorem clean_checkList_iff (maxLoras : Nat) :
    Clean (f.checkList maxLoras v) ↔ ∃ entries, v = .arr entries := by
  cases v with
  | arr entries =>
    have warned : Clean (f.checkList maxLoras (.arr entries)) := by
      apply Finding.clean_of_warnings
      intro a ha
      rcases List.mem_append.mp ha with long | pathless
      · split at long
        · exact ⟨_, List.mem_singleton.mp long⟩
        · exact absurd long List.not_mem_nil
      · obtain ⟨p, -, hp⟩ := List.mem_flatMap.mp pathless
        split at hp
        · exact absurd hp List.not_mem_nil
        · exact ⟨_, List.mem_singleton.mp hp⟩
    simp [warned]
  | _ => simp [checkList]

theorem clean_checkValue_iff (maxLoras : Nat) : Clean (f.checkValue maxLoras v) ↔ f.Conforms v := by
  unfold checkValue Conforms
  cases f.type with
  | slider => exact clean_checkSlider_iff
  | text => exact clean_checkText_iff
  | textarea => exact clean_checkText_iff
  | seed => exact clean_checkSeed_iff
  | checkbox => simp [Option.isSome_iff_exists]
  | image => cases v <;> simp [Value.isString]
  | modelPair => exact clean_checkPair_iff
  | loraList => exact clean_checkList_iff maxLoras
  | singleModel => exact clean_checkModel_iff
  | select => exact clean_checkSelect_iff
  | unknown => simp

instance (f : Field) (v : Value) : Decidable (f.Conforms v) :=
  decidable_of_iff _ (clean_checkValue_iff defaultMaxLoras)

private theorem strict_checkSlider (f : Field) (v : Value) : Strict (f.checkSlider v) := by
  cases h : v.float? with
  | none => simpa [checkSlider, h] using Finding.strict_error _
  | some n =>
    rw [checkSlider, h]
    dsimp only
    split <;> split
    · exact Finding.strict_errorIf_append _ _ _ _
    · simpa using Finding.strict_errorIf _ _
    · exact Finding.strict_errorIf _ _
    · exact ⟨by simp, rfl⟩

private theorem strict_checkText (f : Field) (v : Value) : Strict (f.checkText v) := by
  unfold checkText
  split
  · split
    · exact Finding.strict_errorIf _ _
    · exact ⟨by simp, rfl⟩
  · exact Finding.strict_error _

private theorem strict_checkSeed (f : Field) (v : Value) : Strict (f.checkSeed v) := by
  unfold checkSeed
  split
  · exact Finding.strict_errorIf _ _
  · exact Finding.strict_error _

private theorem strict_checkPair (f : Field) (v : Value) : Strict (f.checkPair v) := by
  unfold checkPair
  split
  · split
    · simpa [NoiseVariant.all] using Finding.strict_errorIf_append _ _ _ _
    · exact ⟨by simp, rfl⟩
  · exact Finding.strict_error _

private theorem strict_checkModel (f : Field) (v : Value) : Strict (f.checkModel v) := by
  unfold checkModel
  split
  · exact Finding.strict_errorIf _ _
  · exact Finding.strict_errorIf _ _
  · exact Finding.strict_error _

private theorem strict_checkSelect (f : Field) (v : Value) : Strict (f.checkSelect v) := by
  unfold checkSelect
  split
  · exact Finding.strict_errorIf _ _
  · exact Finding.strict_error _

private theorem strict_checkValue (maxLoras : Nat) (v : Value) (notList : f.type ≠ .loraList) :
    Strict (f.checkValue maxLoras v) := by
  cases ht : f.type with
  | loraList => exact absurd ht notList
  | slider => simpa only [checkValue, ht] using f.strict_checkSlider v
  | text => simpa only [checkValue, ht] using f.strict_checkText v
  | textarea => simpa only [checkValue, ht] using f.strict_checkText v
  | seed => simpa only [checkValue, ht] using f.strict_checkSeed v
  | checkbox => simpa only [checkValue, ht] using Finding.strict_errorIf _ _
  | image => simpa only [checkValue, ht] using Finding.strict_errorIf _ _
  | modelPair => simpa only [checkValue, ht] using f.strict_checkPair v
  | singleModel => simpa only [checkValue, ht] using f.strict_checkModel v
  | select => simpa only [checkValue, ht] using f.strict_checkSelect v
  | unknown => simpa only [checkValue, ht] using ⟨by simp, rfl⟩

private theorem strict_check (maxLoras : Nat) (v : Option Value) (notList : f.type ≠ .loraList) :
    Strict (f.check maxLoras v) := by
  unfold check
  split
  · exact strict_checkValue maxLoras _ notList
  · exact Finding.strict_errorIf _ _

private theorem length_errors_checkList_le (maxLoras : Nat) (f : Field) (v : Value) :
    ((f.checkList maxLoras v).filterMap Finding.error?).length ≤ 1 := by
  cases v with
  | arr entries =>
    -- a list may be warned of any number of times
    have none : (f.checkList maxLoras (.arr entries)).filterMap Finding.error? = [] :=
      (clean_checkList_iff maxLoras).mpr ⟨entries, rfl⟩
    simp [none]
  | _ => exact Nat.le_refl 1

private theorem length_errors_check_le (maxLoras : Nat) (f : Field) (v : Option Value) :
    ((f.check maxLoras v).filterMap Finding.error?).length ≤ 2 := by
  by_cases list : f.type = .loraList
  · unfold check
    split
    · rename_i w _
      have once := f.length_errors_checkList_le maxLoras w
      rw [checkValue, list]
      exact Nat.le_succ_of_le once
    · exact (List.length_filterMap_le _ _).trans (Finding.strict_errorIf _ _).few
  · exact (List.length_filterMap_le _ _).trans (strict_check maxLoras v list).few

private theorem clean_check_iff (maxLoras : Nat) (f : Field) (v : Option Value) :
    Clean (f.check maxLoras v) ↔ f.Accepts v := by
  have missing : Clean (f.check maxLoras none) ↔ f.required = false :=
    Finding.clean_errorIf_iff
  cases v with
  | none => simp [missing, Accepts, isProvided]
  | some w =>
    cases absent : w.isAbsent with
    | true =>
      rw [check_of_isAbsent maxLoras absent, missing]
      simp [Accepts, isProvided, absent]
    | false =>
      rw [check_of_not_isAbsent maxLoras absent, clean_checkValue_iff]
      simp [Accepts, isProvided, absent]

end Field

namespace Config

variable {c : Config} {inputs : Object} {f : Field}

private theorem errors_check (maxLoras : Nat) (c : Config) (inputs : Object) :
    (c.check maxLoras inputs).errors = c.inputs.flatMap fun f =>
      ((c.fieldFindings maxLoras (c.flatten inputs) f).filterMap Finding.error?).map
        (Issue.mk f.id) := rfl

private theorem warnings_check (maxLoras : Nat) (c : Config) (inputs : Object) :
    (c.check maxLoras inputs).warnings = c.inputs.flatMap fun f =>
      ((c.fieldFindings maxLoras (c.flatten inputs) f).filterMap Finding.warning?).map
        (Issue.mk f.id) := rfl

private theorem fieldFindings_of_off (maxLoras : Nat) {flat : Object}
    (off : c.dependencyMet f flat = false) :
    c.fieldFindings maxLoras flat f = [] := by
  simp [fieldFindings, off]

private theorem length_errors_fieldFindings_le (maxLoras : Nat) (c : Config) (flat : Object)
    (f : Field) :
    ((c.fieldFindings maxLoras flat f).filterMap Finding.error?).length ≤ 2 := by
  unfold fieldFindings
  split
  · exact f.length_errors_check_le maxLoras _
  · simp

private theorem errors_check_eq_nil_iff (maxLoras : Nat) (c : Config) (inputs : Object) :
    (c.check maxLoras inputs).errors = [] ↔
      ∀ f ∈ c.inputs, c.dependencyMet f (c.flatten inputs) = true →
        f.Accepts (Assoc.get? f.id (c.flatten inputs)) := by
  have valid : (c.check maxLoras inputs).errors = [] ↔ (c.check maxLoras inputs).isValid = true :=
    List.isEmpty_iff.symm
  rw [valid, check_isValid_iff]
  refine forall₃_congr fun f _ _ => ?_
  exact f.clean_check_iff maxLoras _

private theorem map_field_errors_sublist (maxLoras : Nat) (c : Config) (inputs : Object) :
    ((c.check maxLoras inputs).errors.map Issue.field).Sublist
      ((c.inputs.map Field.id).flatMap (List.replicate 2)) := by
  rw [errors_check]
  induction c.inputs with
  | nil => simp
  | cons f fields ih =>
    rw [List.flatMap_cons, List.map_append, List.map_cons, List.flatMap_cons]
    refine List.Sublist.append ?_ ih
    rw [List.map_map]
    have own : (Issue.field ∘ Issue.mk f.id) = fun _ => f.id := rfl
    have few := length_errors_fieldFindings_le maxLoras c (c.flatten inputs) f
    rwa [own, List.map_const', List.replicate_sublist_iff, List.count_replicate_self]

private theorem count_flatMap_replicate (n : Nat) (id : String) (ids : List String) :
    (ids.flatMap (List.replicate n)).count id = n * ids.count id := by
  induction ids with
  | nil => simp
  | cons other ids ih =>
    rw [List.flatMap_cons, List.count_append, ih, List.count_replicate, List.count_cons,
      Nat.mul_add]
    split <;> omega

private theorem type_of_mem_warnings {maxLoras : Nat} {i : Issue}
    (h : i ∈ (c.check maxLoras inputs).warnings) :
    ∃ f ∈ c.inputs, f.id = i.field ∧ f.type = .loraList := by
  rw [warnings_check] at h
  obtain ⟨f, hf, h⟩ := List.mem_flatMap.mp h
  obtain ⟨message, found, rfl⟩ := List.mem_map.mp h
  refine ⟨f, hf, rfl, ?_⟩
  by_contra notList
  have none : (c.fieldFindings maxLoras (c.flatten inputs) f).filterMap Finding.warning? = [] := by
    unfold fieldFindings
    split
    · exact (Field.strict_check maxLoras _ notList).unwarned
    · rfl
  rw [none] at found
  exact List.not_mem_nil found

private theorem issuesFor_of_off (distinct : (c.inputs.map Field.id).Nodup) (hf : f ∈ c.inputs)
    (maxLoras : Nat) (off : c.dependencyMet f (c.flatten inputs) = false) :
    (c.check maxLoras inputs).issuesFor f.id = [] := by
  have silent : ∀ (pick : Finding → Option String), ∀ g ∈ c.inputs,
      ∀ i ∈ ((c.fieldFindings maxLoras (c.flatten inputs) g).filterMap pick).map (Issue.mk g.id),
        i.field ≠ f.id := by
    intro pick g hg i hi same
    obtain ⟨message, found, rfl⟩ := List.mem_map.mp hi
    -- with distinct ids no other field reports under this one's id
    obtain rfl : g = f := List.inj_on_of_nodup_map distinct hg hf same
    rw [fieldFindings_of_off maxLoras off] at found
    exact List.not_mem_nil found
  rw [Report.issuesFor, List.filter_eq_nil_iff]
  intro i hi
  rw [decide_eq_true_eq]
  rcases List.mem_append.mp hi with hi | hi
  · obtain ⟨g, hg, hi⟩ := List.mem_flatMap.mp (errors_check maxLoras c inputs ▸ hi)
    exact silent _ g hg i hi
  · obtain ⟨g, hg, hi⟩ := List.mem_flatMap.mp (warnings_check maxLoras c inputs ▸ hi)
    exact silent _ g hg i hi

end Config

end WorkflowGraph
