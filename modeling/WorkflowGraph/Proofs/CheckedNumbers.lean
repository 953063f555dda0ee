/- Numbers behind the check: what sliders and seeds that pass it are resolved to. -/

import WorkflowGraph.Proofs.Conditions
import WorkflowGraph.Proofs.Conformance
import WorkflowGraph.Proofs.IntegerRounding

set_option autoImplicit false
set_option relaxedAutoImplicit false

/-!
The check of a slider or a seed reads a number from the supplied value; what is resolved is the value
itself, unless it is a text. A slider is checked by the double nearest to its value, which differs
from the value only for integers beyond `2 ^ 53`, and a seed by its integer part, so that a double
passes for a seed and stays a double.
-/

namespace WorkflowGraph

namespace Number

/-- The number counted in units of `2 ^ (-1074)`, which a double is a whole number of. -/
def units : Number → Int
  | .int i _ => i * Double.one
  | .double d => d.units

/-- An integer that has too many digits for a double, and rounds to this one. -/
def RoundsOnto (n : Number) (b : Double) : Prop :=
  n.toDouble.units = b.units ∧ ∃ i fits, n = .int i fits ∧ 2 ^ 53 < i.natAbs

private theorem units_toDouble (n : Number) :
    n.toDouble.units = n.units ∨ ∃ i fits, n = .int i fits ∧ 2 ^ 53 < i.natAbs := by
  cases n with
  | double d => exact Or.inl rfl
  | int i fits =>
    rcases le_or_gt i.natAbs (2 ^ 53) with small | large
    · exact Or.inl (Double.units_ofInt small)
    · exact Or.inr ⟨i, fits, rfl, large⟩

private theorem le_units_of_toDouble {n : Number} {b : Double} (h : b.units ≤ n.toDouble.units) :
    b.units ≤ n.units ∨ n.RoundsOnto b := by
  rcases n.units_toDouble with same | ⟨i, fits, rfl, large⟩
  · exact Or.inl (same ▸ h)
  · rcases le_or_gt b.units (i * Double.one) with reached | short
    · exact Or.inl reached
    · have le : (Double.ofInt i).units ≤ b.units := Double.units_ofInt_le fits b short.le
      exact Or.inr ⟨le_antisymm le h, i, fits, rfl, large⟩

private theorem units_le_of_toDouble {n : Number} {b : Double} (h : n.toDouble.units ≤ b.units) :
    n.units ≤ b.units ∨ n.RoundsOnto b := by
  rcases n.units_toDouble with same | ⟨i, fits, rfl, large⟩
  · exact Or.inl (same ▸ h)
  · rcases le_or_gt (i * Double.one) b.units with within | beyond
    · exact Or.inl within
    · have le : b.units ≤ (Double.ofInt i).units := Double.le_units_ofInt fits b beyond.le
      exact Or.inr ⟨le_antisymm h le, i, fits, rfl, large⟩

end Number

namespace Value

variable {v : Value}

private theorem num_or_str_of_float? {d : Double} (h : v.float? = some d) :
    (∃ n, v = .num n) ∨ ∃ s, v = .str s := by
  cases v with
  | num n => exact Or.inl ⟨n, rfl⟩
  | str s => exact Or.inr ⟨s, rfl⟩
  | _ => simp [float?] at h

private theorem num_or_str_of_int? {i : Int} (h : v.int? = some i) :
    (∃ n, v = .num n) ∨ ∃ s, v = .str s := by
  cases v with
  | num n => exact Or.inl ⟨n, rfl⟩
  | str s => exact Or.inr ⟨s, rfl⟩
  | _ => simp [int?] at h

end Value

namespace Field

variable {f : Field} {v w : Value}

/-- A number within the declared bounds, save for an integer that rounds onto a bound. -/
def Admits (f : Field) (n : Number) : Prop :=
  (∀ min ∈ f.min?, min.units ≤ n.units ∨ n.RoundsOnto min) ∧
    ∀ max ∈ f.max?, n.units ≤ max.units ∨ n.RoundsOnto max

private theorem InBounds.admits {n : Number} (h : f.InBounds n.toDouble) : f.Admits n :=
  ⟨fun min hmin => Number.le_units_of_toDouble (h.1 min hmin),
    fun max hmax => Number.units_le_of_toDouble (h.2 max hmax)⟩

private theorem exists_reading_slider (slider : f.type = .slider) {d : Double}
    (h : v.float? = some d) :
    ∃ n : Number, f.reading v = .num n ∧ n.toDouble = d := by
  rcases Value.num_or_str_of_float? h with ⟨n, rfl⟩ | ⟨s, rfl⟩
  · exact ⟨n, f.reading_num n, Option.some.inj h⟩
  · refine ⟨.double d, ?_, rfl⟩
    rw [reading_str_of_slider slider, h]
    rfl

private theorem Settles.exists_int?_nonneg (settles : f.Settles v w) (seed : f.type = .seed)
    (conforms : f.Conforms v) : ∃ i, w.int? = some i ∧ 0 ≤ i := by
  simp only [Conforms, seed] at conforms
  obtain ⟨i, spelt, least⟩ := conforms
  cases settles with
  | drawn words _ => exact ⟨_, Value.int?_seed words, Int.natCast_nonneg _⟩
  | kept asksNone =>
    rw [AsksSeed, int?_reading seed, spelt, Option.some.injEq] at asksNone
    have other : i ≠ -1 := fun minus => asksNone ⟨seed, minus⟩
    exact ⟨i, (int?_reading seed).trans spelt, by omega⟩

private theorem Settles.isInteger_iff (settles : f.Settles v w) (seed : f.type = .seed)
    (conforms : f.Conforms v) :
    (∃ i fits, w = .num (.int i fits) ∧ 0 ≤ i) ↔
      ∀ d, v = .num (.double d) → d.truncate = -1 := by
  obtain ⟨j, spelt, nonneg⟩ := settles.exists_int?_nonneg seed conforms
  cases settles with
  | drawn words asks =>
    have small := Words.draw_fst_lt words
    have fits : FitsNumber (words.draw.1 : Int) := by
      simp only [FitsNumber, Words.seedBound] at *
      omega
    refine iff_of_true ⟨_, fits, Value.ofInt_of_fits fits, Int.natCast_nonneg _⟩ ?_
    rintro d rfl
    exact Value.truncate_of_int? asks.2
  | kept asksNone =>
    rw [int?_reading seed] at spelt
    rcases Value.num_or_str_of_int? spelt with ⟨n, rfl⟩ | ⟨s, rfl⟩
    · rw [reading_num]
      cases n with
      | int i fits =>
        refine iff_of_true ⟨i, fits, rfl, ?_⟩ fun d other => absurd other (by simp)
        -- an integer of more than 63 bits is positive, and any other one is the seed itself
        by_cases range : InInt64 i
        · simp only [Value.int?, Number.int64?, if_pos range, Option.some.injEq] at spelt
          omega
        · simp only [InInt64, FitsNumber] at range fits
          omega
      | double d =>
        refine iff_of_false (by simp) fun asks => ?_
        have part := Value.truncate_of_int? spelt
        rw [asks d rfl] at part
        omega
    · have fits : FitsNumber j := (Value.inInt64_of_int? spelt).fits
      rw [reading_str_of_seed seed, spelt, Option.map_some, Option.getD_some,
        Value.ofInt_of_fits fits]
      exact iff_of_true ⟨j, fits, rfl, nonneg⟩ fun d other => absurd other (by simp)

end Field

namespace Config

variable {c : Config} {f : Field} {v : Value} {inputs : Object} {maxLoras : Nat}

private theorem exists_settles_of_checked (distinct : (c.inputs.map Field.id).Nodup)
    (hf : f ∈ c.inputs) (valid : (c.check maxLoras inputs).isValid = true)
    (applies : c.dependencyMet f (c.flatten inputs) = true)
    (supplied : Assoc.get? f.id (c.flatten inputs) = some v) (given : v.isAbsent = false)
    (words : Words) :
    f.Conforms v ∧
      ∃ w, Assoc.get? f.id (c.resolve inputs words).1 = some w ∧ f.Settles v w := by
  constructor
  · have passes := (check_isValid_iff maxLoras c inputs).mp valid f hf applies
    rw [supplied, Field.Passes, Field.check_of_not_isAbsent maxLoras given] at passes
    exact (Field.clean_checkValue_iff maxLoras).mp passes
  · have present : isMissing (c.flatten inputs) f.id = false := by
      rw [isMissing_of_get? supplied, ← Bool.not_eq_true, Value.isNull_eq_true_iff]
      rintro rfl
      exact absurd given (by decide)
    have unfilled : c.filled? (c.flatten inputs) f = some v := by
      rw [filled?_eq_get? (by simp [present]), supplied]
    have settled := get?_resolve distinct hf inputs words
    rw [unfilled] at settled
    generalize Assoc.get? f.id (c.resolve inputs words).1 = resolved at settled
    cases settled with
    | some settles => exact ⟨_, rfl, settles⟩

/-- A slider's value that passes the check is resolved to a number that reads as the value does. The
number is within the bounds as it was checked, by its nearest double; exactly, it is within them too,
save for an integer beyond `2 ^ 53` that rounds onto a bound. -/
theorem checked_slider_resolved (accepted : c.validate = .ok ()) (hf : f ∈ c.inputs)
    (slider : f.type = .slider) (valid : (c.check maxLoras inputs).isValid = true)
    (applies : c.dependencyMet f (c.flatten inputs) = true)
    (supplied : Assoc.get? f.id (c.flatten inputs) = some v) (given : v.isAbsent = false)
    (words : Words) :
    ∃ r : Number, Assoc.get? f.id (c.resolve inputs words).1 = some (.num r) ∧
      (Value.num r).float? = v.float? ∧ f.InBounds r.toDouble ∧ f.Admits r := by
  obtain ⟨conforms, w, resolved, settles⟩ :=
    exists_settles_of_checked (nodup_ids accepted) hf valid applies supplied given words
  simp only [Field.Conforms, slider] at conforms
  obtain ⟨d, read, bounds⟩ := conforms
  obtain ⟨r, reading, rfl⟩ := Field.exists_reading_slider slider read
  have notSeed : f.type ≠ .seed := by simp [slider]
  obtain rfl : w = .num r := (settles.eq_reading notSeed).trans reading
  exact ⟨r, resolved, read.symm, bounds, bounds.admits⟩

/-- A share spelt with an exponent, at its bound, is resolved to the bound. -/
theorem spelt_share_resolved :
    blending.validate = .ok () ∧
      (blending.check defaultMaxLoras [("mode", .str "flf2v"), ("blend", .str " 10e-1 ")]).isValid =
        true ∧
      ∃ r : Number, Assoc.get? "blend"
          (blending.resolve [("mode", .str "flf2v"), ("blend", .str " 10e-1 ")] ⟨[], 0⟩).1 =
            some (.num r) ∧
        (Value.num r).float? = some (Double.ofInt 1) ∧ blend.Admits r := by
  have valid : (blending.check defaultMaxLoras
      [("mode", .str "flf2v"), ("blend", .str " 10e-1 ")]).isValid = true := by decide +kernel
  obtain ⟨r, resolved, read, -, admits⟩ := checked_slider_resolved blending_accepted (f := blend)
    (List.mem_cons_of_mem _ List.mem_cons_self) rfl valid (by decide +kernel) rfl rfl ⟨[], 0⟩
  have spelt : (Value.str " 10e-1 ").float? = some (Double.ofInt 1) := by decide +kernel
  exact ⟨blending_accepted, valid, r, resolved, read.trans spelt, admits⟩

def wideSize : Field := { bareField "size" .slider with max? := some (Double.ofInt (2 ^ 53)) }

/-- The integer behind `2 ^ 53` rounds to it, so it passes for a size, and it is what is resolved. -/
theorem size_beyond_bound :
    (sampling [wideSize]).validate = .ok () ∧ wideSize ∈ (sampling [wideSize]).inputs ∧
      wideSize.type = .slider ∧
      ((sampling [wideSize]).check defaultMaxLoras [("size", .ofInt (2 ^ 53 + 1))]).isValid = true ∧
      (sampling [wideSize]).dependencyMet wideSize
        ((sampling [wideSize]).flatten [("size", .ofInt (2 ^ 53 + 1))]) = true ∧
      ∃ r : Number, Assoc.get? "size"
          ((sampling [wideSize]).resolve [("size", .ofInt (2 ^ 53 + 1))] ⟨[], 0⟩).1 =
            some (.num r) ∧
        ∃ max ∈ wideSize.max?, max.units < r.units := by
  have accepted : (sampling [wideSize]).validate = .ok () := by
    rw [validate_eq_ok_iff, ← List.isEmpty_iff]
    decide +kernel
  exact ⟨accepted, List.mem_cons_self, rfl, by decide +kernel, rfl, .int (2 ^ 53 + 1) (by decide),
    rfl, Double.ofInt (2 ^ 53), rfl, by decide +kernel⟩

/-- A seed that passes the check is resolved to a seed that is read as an integer, not a negative
one. It is such an integer unless a double was supplied for it that does not ask for a random seed:
doubles pass by their integer parts, and are kept with their fractions. -/
theorem checked_seed_integer_iff (accepted : c.validate = .ok ()) (hf : f ∈ c.inputs)
    (seed : f.type = .seed) (valid : (c.check maxLoras inputs).isValid = true)
    (applies : c.dependencyMet f (c.flatten inputs) = true)
    (supplied : Assoc.get? f.id (c.flatten inputs) = some v) (given : v.isAbsent = false)
    (words : Words) :
    ∃ w, Assoc.get? f.id (c.resolve inputs words).1 = some w ∧
      (∃ i, w.int? = some i ∧ 0 ≤ i) ∧
      ((∃ i fits, w = .num (.int i fits) ∧ 0 ≤ i) ↔
        ∀ d, v = .num (.double d) → d.truncate = randomSeed) := by
  obtain ⟨conforms, w, resolved, settles⟩ :=
    exists_settles_of_checked (nodup_ids accepted) hf valid applies supplied given words
  exact ⟨w, resolved, settles.exists_int?_nonneg seed conforms, settles.isInteger_iff seed conforms⟩

/-- A double that asks for a random seed is resolved to an integer. -/
theorem drawn_noise_integer :
    (sampling [noise]).validate = .ok () ∧
      ((sampling [noise]).check defaultMaxLoras
        [("noise", .ofDouble (Double.ofInt (-1)))]).isValid = true ∧
      ∃ i fits, Assoc.get? "noise" ((sampling [noise]).resolve
          [("noise", .ofDouble (Double.ofInt (-1)))] ⟨[42], 0⟩).1 = some (.num (.int i fits)) ∧
        0 ≤ i := by
  have accepted : (sampling [noise]).validate = .ok () := by
    rw [validate_eq_ok_iff, ← List.isEmpty_iff]
    decide +kernel
  have valid : ((sampling [noise]).check defaultMaxLoras
      [("noise", .ofDouble (Double.ofInt (-1)))]).isValid = true := by decide +kernel
  obtain ⟨w, resolved, -, integer⟩ := checked_seed_integer_iff accepted (f := noise)
    List.mem_cons_self rfl valid (by decide +kernel) rfl rfl ⟨[42], 0⟩
  have asks : ∀ d, Value.ofDouble (Double.ofInt (-1)) = .num (.double d) →
      d.truncate = randomSeed := by
    rintro d ⟨⟩
    exact Double.truncate_ofInt (by decide)
  obtain ⟨i, fits, rfl, nonneg⟩ := integer.mpr asks
  exact ⟨accepted, valid, i, fits, resolved, nonneg⟩

def sevenHalf : Double := ⟨false, 8444249301319680, -50, by decide⟩

def minusHalf : Double := ⟨true, 4503599627370496, -53, by decide⟩

/-- A fraction passes for a seed by its integer part and is resolved as it is, even below zero. -/
theorem fractional_noise_kept :
    (sampling [noise]).validate = .ok () ∧ noise ∈ (sampling [noise]).inputs ∧
      noise.type = .seed ∧ ∀ d ∈ [sevenHalf, minusHalf],
        ((sampling [noise]).check defaultMaxLoras [("noise", .ofDouble d)]).isValid = true ∧
        (sampling [noise]).dependencyMet noise
          ((sampling [noise]).flatten [("noise", .ofDouble d)]) = true ∧
        Assoc.get? "noise" ((sampling [noise]).resolve [("noise", .ofDouble d)] ⟨[42], 0⟩).1 =
          some (.num (.double d)) ∧ d.isIntegral = false := by
  have accepted : (sampling [noise]).validate = .ok () := by
    rw [validate_eq_ok_iff, ← List.isEmpty_iff]
    decide +kernel
  have valid : ∀ d ∈ [sevenHalf, minusHalf],
      ((sampling [noise]).check defaultMaxLoras [("noise", .ofDouble d)]).isValid = true := by
    decide +kernel
  have keeps : ∀ d ∈ [sevenHalf, minusHalf], ¬ noise.AsksSeed (.ofDouble d) := by decide +kernel
  have fraction : ∀ d ∈ [sevenHalf, minusHalf], d.isIntegral = false := by decide +kernel
  refine ⟨accepted, List.mem_cons_self, rfl, fun d hd => ⟨valid d hd, rfl, ?_, fraction d hd⟩⟩
  obtain ⟨-, w, resolved, settles⟩ := exists_settles_of_checked (nodup_ids accepted) (f := noise)
    List.mem_cons_self (valid d hd) rfl rfl rfl ⟨[42], 0⟩
  cases settles with
  | kept _ => exact resolved
  | drawn words asks => exact absurd asks (keeps d hd)

end Config

end WorkflowGraph
