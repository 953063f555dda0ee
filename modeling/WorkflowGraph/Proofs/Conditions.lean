/- Conditions of fields before and after resolving: when a default that goes in keeps its reason. -/

import Mathlib.Data.List.Nodup
import WorkflowGraph.Proofs.Gating
import WorkflowGraph.Proofs.Replay

set_option autoImplicit false
set_option relaxedAutoImplicit false

/-!
A default goes in where the condition of its field holds for the supplied values. The condition looks
at the value of another field, and resolving may change that value: a text on a slider becomes a
number, and a default that the condition fell back to is withheld if its own field has a condition
that does not hold. Conditions may form chains and cycles; what becomes of one condition depends on
the field that it looks at and on no other.
-/

namespace WorkflowGraph

namespace Value

private theorem looseEq_str_iff {v : Value} {s : String} :
    v.looseEq (.str s) = true ↔ v = .str s := by
  cases v <;> simp [looseEq, same]

private theorem str_looseEq_iff {v : Value} {s : String} :
    (Value.str s).looseEq v = true ↔ v = .str s := by
  rw [eq_comm (a := v)]
  cases v <;> simp [looseEq, same]

private theorem looseEq_null_iff {v : Value} : v.looseEq .null = true ↔ v = .null := by
  cases v <;> simp [looseEq, same]

private theorem null_looseEq_iff {v : Value} : Value.null.looseEq v = true ↔ v = .null := by
  cases v <;> simp [looseEq, same]

end Value

namespace Field

variable {f : Field} {v w x : Value}

theorem Settles.eq_reading (h : f.Settles v w) (notSeed : f.type ≠ .seed) : w = f.reading v := by
  cases h with
  | kept _ => rfl
  | drawn words asks => exact absurd asks.1 notSeed

private theorem looseEq_reading_iff (notSeed : f.type ≠ .seed) (h : v.looseEq x = true) :
    (f.reading v).looseEq x = true ↔
      (f.type = .slider → x.isString = true → x.float? = none) := by
  cases numeral : Config.numeral? f.type v with
  | none =>
    rw [reading_of_numeral?_eq_none numeral]
    refine iff_of_true h fun slider text => ?_
    obtain ⟨s, rfl⟩ : ∃ s, x = .str s := by cases x <;> simp_all [Value.isString]
    obtain rfl := Value.looseEq_str_iff.mp h
    simpa [Config.numeral?, slider] using numeral
  | some y =>
    -- a numeral equals nothing but itself, and the number it is read as equals no text
    obtain ⟨⟨s, rfl⟩, n, rfl⟩ := Config.numeral?_eq_some numeral
    obtain rfl := Value.str_looseEq_iff.mp h
    have read : f.reading (.str s) = .num n := by rw [reading, numeral, Option.getD_some]
    have slider : f.type = .slider := by
      by_contra other
      have kept := reading_of_type (v := .str s) other notSeed
      exact Value.noConfusion (read.symm.trans kept)
    have spelled : (Value.str s).float? ≠ none := by
      intro none
      simp [Config.numeral?, slider, none] at numeral
    rw [read, Value.looseEq_str_iff]
    refine iff_of_false Value.noConfusion fun unread => ?_
    exact spelled (unread slider rfl)

end Field

/-- The field that a condition looks at has a value that is not null, and it is the one asked for. -/
def Dependency.Fulfilled (d : Dependency) (flat : Object) : Prop :=
  ∃ w, suppliedValue? flat d.field = some w ∧ w.looseEq d.value = true

instance (d : Dependency) (flat : Object) : Decidable (d.Fulfilled flat) :=
  decidable_of_iff ((suppliedValue? flat d.field).any (fun w => w.looseEq d.value) = true)
    (Option.any_eq_true _ _)

namespace Config

variable {c : Config} {f g : Field} {d : Dependency} {flat : Object}

/-- The default of a field goes in: the field has no value and its condition holds. -/
structure Fills (c : Config) (supplied : Object) (f : Field) : Prop where
  missing : isMissing supplied f.id = true
  default : f.default?.isSome = true
  applies : c.dependencyMet f supplied = true

private theorem Fills.get?_fillDefaults (h : c.Fills flat f)
    (distinct : (c.inputs.map Field.id).Nodup) (hf : f ∈ c.inputs) :
    Assoc.get? f.id (c.fillDefaults flat) = f.default? := by
  obtain ⟨v, default⟩ := Option.isSome_iff_exists.mp h.default
  rw [Config.get?_fillDefaults distinct hf, filled?, h.missing, h.applies, default]
  rfl

/-- The default of a field is withheld: the field has no value and its condition does not hold. -/
def Withholds (c : Config) (supplied : Object) (g : Field) : Prop :=
  isMissing supplied g.id = true ∧ c.dependencyMet g supplied = false

private theorem exists_of_dependsOn (accepted : c.validate = .ok ()) (hf : f ∈ c.inputs)
    (depends : f.dependsOn? = some d) : ∃ g ∈ c.inputs, g.id = d.field := by
  have none := (flaws_of_validate accepted).2 f hf
  simp only [Field.flaws, depends, List.append_eq_nil_iff, flawIf_eq_nil_iff,
    decide_eq_false_iff_not, not_not] at none
  exact List.mem_map.mp none.1.2

private theorem gateValue?_eq (distinct : (c.inputs.map Field.id).Nodup) (hg : g ∈ c.inputs)
    (flat : Object) :
    c.gateValue? flat g.id =
      if isMissing flat g.id then g.default? else Assoc.get? g.id flat := by
  rw [gateValue?, field?_of_mem distinct hg, isMissing]
  cases Assoc.get? g.id flat with
  | none => simp
  | some v => cases null : v.isNull <;> simp [Option.filter, null]

private theorem filter_filled?_of_withholds (h : c.Withholds flat g) :
    (c.filled? flat g).filter (fun v => !v.isNull) = none := by
  rw [filled?, h.2, Bool.and_false]
  exact (isMissing_iff flat g.id).mp h.1

private theorem filter_filled?_of_not_withholds (distinct : (c.inputs.map Field.id).Nodup)
    (hg : g ∈ c.inputs) (h : ¬ c.Withholds flat g) :
    (c.filled? flat g).filter (fun v => !v.isNull) =
      (c.gateValue? flat g.id).filter fun v => !v.isNull := by
  rw [gateValue?_eq distinct hg, filled?]
  cases missing : isMissing flat g.id with
  | false => rfl
  | true =>
    have applies : c.dependencyMet g flat = true := by
      simpa [Withholds, missing] using h
    rw [applies]
    have none := (isMissing_iff flat g.id).mp missing
    cases default : g.default? with
    | none => simpa using none
    | some v => rfl

private theorem suppliedValue?_resolve (distinct : (c.inputs.map Field.id).Nodup)
    (hg : g ∈ c.inputs) (notSeed : g.type ≠ .seed) (inputs : Object) (words : Words) :
    suppliedValue? (c.resolve inputs words).1 g.id =
      ((c.filled? (c.flatten inputs) g).filter fun v => !v.isNull).map g.reading := by
  have settled := get?_resolve distinct hg inputs words
  rw [suppliedValue?]
  generalize c.filled? (c.flatten inputs) g = filled at settled ⊢
  generalize Assoc.get? g.id (c.resolve inputs words).1 = resolved at settled ⊢
  cases settled with
  | none => rfl
  | @some v w settles =>
    obtain rfl := settles.eq_reading notSeed
    cases null : v.isNull <;> simp [Option.filter, null, g.isNull_reading v]

private theorem fulfilled_resolve_iff (distinct : (c.inputs.map Field.id).Nodup) (hg : g ∈ c.inputs)
    (notSeed : g.type ≠ .seed) {inputs : Object} {x v : Value}
    (gate : c.gateValue? (c.flatten inputs) g.id = some v) (equal : v.looseEq x = true)
    (words : Words) :
    Dependency.Fulfilled ⟨g.id, x⟩ (c.resolve inputs words).1 ↔
      x ≠ .null ∧ (g.type = .slider → x.isString = true → x.float? = none) ∧
        ¬ c.Withholds (c.flatten inputs) g := by
  rw [Dependency.Fulfilled, suppliedValue?_resolve distinct hg notSeed]
  by_cases withheld : c.Withholds (c.flatten inputs) g
  · rw [filter_filled?_of_withholds withheld]
    simp [withheld]
  · rw [filter_filled?_of_not_withholds distinct hg withheld, gate]
    by_cases null : v = .null
    · -- a default may be null, which decides a condition on null but is no value afterwards
      subst null
      obtain rfl := Value.null_looseEq_iff.mp equal
      simp [Value.isNull]
    · have notNull : v.isNull = false := by
        rw [← Bool.not_eq_true, Value.isNull_eq_true_iff]
        exact null
      have other : x ≠ .null := by
        rintro rfl
        exact null (Value.looseEq_null_iff.mp equal)
      simp [Option.filter, notNull, withheld, other, Field.looseEq_reading_iff notSeed equal]

/-- Where the default of a field goes in, its condition looks at a declared field. Unless that is a
seed, the resolved values fulfil the condition exactly when it does not ask for null, does not ask a
slider for a numeral, and was not decided by a default that is withheld. -/
theorem condition_of_default_resolved_iff (accepted : c.validate = .ok ()) (hf : f ∈ c.inputs)
    (depends : f.dependsOn? = some d) {inputs : Object} (fills : c.Fills (c.flatten inputs) f)
    (words : Words) :
    Assoc.get? f.id (c.fillDefaults (c.flatten inputs)) = f.default? ∧
    ∃ g ∈ c.inputs, g.id = d.field ∧ (g.type ≠ .seed →
      (d.Fulfilled (c.resolve inputs words).1 ↔
        d.value ≠ .null ∧
        (g.type = .slider → d.value.isString = true → d.value.float? = none) ∧
        ¬ c.Withholds (c.flatten inputs) g)) := by
  have distinct := nodup_ids accepted
  obtain ⟨g, hg, same⟩ := exists_of_dependsOn accepted hf depends
  refine ⟨fills.get?_fillDefaults distinct hf, g, hg, same, fun notSeed => ?_⟩
  obtain ⟨id, x⟩ := d
  obtain rfl : g.id = id := same
  have applies := fills.applies
  simp only [dependencyMet, depends] at applies
  split at applies
  · rename_i v gate
    exact fulfilled_resolve_iff distinct hg notSeed gate applies words
  · exact absurd applies Bool.false_ne_true

def fullBlend : Field := { blend with default? := some (.ofNat 1) }

def videoMode : Field := { bareField "mode" .select with
  default? := some (.str "flf2v")
  dependsOn? := some ⟨"source", .str "video"⟩ }

/-- A source, an image by default, a mode for videos and a share for that mode. -/
def chained : Config := { blending with
  inputs := [{ bareField "source" .select with default? := some (.str "image") },
    videoMode, fullBlend] }

private theorem chained_accepted : chained.validate = .ok () := by
  rw [validate_eq_ok_iff, ← List.isEmpty_iff]
  decide +kernel

/-- For a video the mode goes in, and the share for it. -/
theorem video_mode_resolved :
    chained.validate = .ok () ∧ chained.Fills (chained.flatten [("source", .str "video")]) fullBlend ∧
      Dependency.Fulfilled ⟨"mode", .str "flf2v"⟩
        (chained.resolve [("source", .str "video")] ⟨[], 0⟩).1 := by
  have fills : chained.Fills (chained.flatten [("source", .str "video")]) fullBlend :=
    ⟨by decide +kernel, rfl, by decide +kernel⟩
  refine ⟨chained_accepted, fills, ?_⟩
  obtain ⟨-, g, hg, same, agrees⟩ := condition_of_default_resolved_iff chained_accepted
    (List.mem_of_getLast? rfl) rfl fills ⟨[], 0⟩
  obtain rfl : g = videoMode :=
    List.inj_on_of_nodup_map (nodup_ids chained_accepted) hg
      (List.mem_cons_of_mem _ List.mem_cons_self) same
  refine (agrees (by decide)).mpr ⟨nofun, nofun, ?_⟩
  rintro ⟨-, off⟩
  exact absurd off (by decide +kernel)

/-- A number of steps, and a share that applies to the text of eight of them. -/
def textSteps : Config := { blending with
  inputs := [bareField "steps" .slider,
    { fullBlend with dependsOn? := some ⟨"steps", .str "8"⟩ }] }

/-- A mode that is null by default, and a share that applies to null. -/
def nullMode : Config := { blending with
  inputs := [{ bareField "mode" .select with default? := some .null },
    { fullBlend with dependsOn? := some ⟨"mode", .null⟩ }] }

/-- The share goes in for the mode that is a default, and that mode is withheld from an image; it
goes in for the text of a number of steps, and the number takes the place of the text; and it goes in
for a mode that is null by default, and null is no value. -/
theorem conditions_lost :
    (chained.validate = .ok () ∧ (∀ g ∈ chained.inputs, g.type ≠ .seed) ∧
      ∃ f ∈ chained.inputs, f.dependsOn? = some ⟨"mode", .str "flf2v"⟩ ∧
        chained.Fills (chained.flatten []) f ∧
        ¬ Dependency.Fulfilled ⟨"mode", .str "flf2v"⟩ (chained.resolve [] ⟨[], 0⟩).1) ∧
    (textSteps.validate = .ok () ∧ (∀ g ∈ textSteps.inputs, g.type ≠ .seed) ∧
      ∃ f ∈ textSteps.inputs, f.dependsOn? = some ⟨"steps", .str "8"⟩ ∧
        textSteps.Fills (textSteps.flatten [("steps", .str "8")]) f ∧
        ¬ Dependency.Fulfilled ⟨"steps", .str "8"⟩
          (textSteps.resolve [("steps", .str "8")] ⟨[], 0⟩).1) ∧
    (nullMode.validate = .ok () ∧ (∀ g ∈ nullMode.inputs, g.type ≠ .seed) ∧
      ∃ f ∈ nullMode.inputs, f.dependsOn? = some ⟨"mode", .null⟩ ∧
        nullMode.Fills (nullMode.flatten []) f ∧
        ¬ Dependency.Fulfilled ⟨"mode", .null⟩ (nullMode.resolve [] ⟨[], 0⟩).1) := by
  have accepted : ∀ c ∈ [chained, textSteps, nullMode], c.validate = .ok () := by
    simp only [validate_eq_ok_iff, ← List.isEmpty_iff]
    decide +kernel
  refine ⟨⟨accepted _ (by simp), by decide, _, List.mem_of_getLast? rfl, rfl, ?_, ?_⟩,
    ⟨accepted _ (by simp), by decide, _, List.mem_of_getLast? rfl, rfl, ?_, ?_⟩,
    ⟨accepted _ (by simp), by decide, _, List.mem_of_getLast? rfl, rfl, ?_, ?_⟩⟩
  all_goals first
    | exact ⟨by decide +kernel, rfl, by decide +kernel⟩
    | decide +kernel

end Config

end WorkflowGraph
