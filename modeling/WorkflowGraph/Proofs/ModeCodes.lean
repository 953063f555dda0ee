/- Toggles by number: which numbers name a disabling mode. -/

import Mathlib.Data.Rat.Floor
import WorkflowGraph.Proofs.IntegerRounding

set_option autoImplicit false
set_option relaxedAutoImplicit false

/-!
A toggle reads a number as an integer and compares it with the codes of the disabling modes. Reading
cuts off the fraction, so a number names the mode of its integer part. Integers beyond 64 bits with
a sign are read through their nearest double, but none of these comes near a code.
-/

namespace WorkflowGraph

namespace Double

@[simp] theorem units_zero (negative : Bool) : (zero negative).units = 0 := by
  simp [units, zero]

private theorem equal_zero_iff (d : Double) : d.equal (zero false) = true ↔ d.units = 0 := by
  simp [equal]

theorem value_eq_div (d : Double) : d.value = d.units / one :=
  (eq_div_iff cast_one_pos.ne').mpr d.units_eq.symm

private theorem floor_value (d : Double) : ⌊d.value⌋ = d.units / one := by
  rw [value_eq_div, one]
  exact Rat.floor_intCast_div_natCast d.units (Nat.pow 2 1074)

private theorem truncate_eq_iff {d : Double} {k : Int} (positive : 0 < k) :
    d.truncate = k ↔ ⌊d.value⌋ = k := by
  rw [floor_value]
  rcases le_or_gt 0 d.units with nonneg | negative
  · rw [truncate, Int.tdiv_eq_ediv_of_nonneg nonneg]
  · have cut : d.truncate ≤ (zero false).truncate := truncate_mono negative.le
    have none_ : (zero false).truncate = 0 := by simp [truncate]
    have floor : d.units / one < 0 := Int.ediv_neg_of_neg_of_pos negative one_units_pos
    exact iff_of_false (by omega) (by omega)

private theorem magnitudeBelow_iff (d : Double) (bound : Nat) :
    d.magnitudeBelow bound = true ↔ (d.units.natAbs : Int) < bound * one := by
  rw [magnitudeBelow, decide_eq_true_iff, one]
  exact_mod_cast Iff.rfl

private theorem magnitudeBelow_of_truncate {d : Double} {k : Int} (positive : 0 < k)
    (part : d.truncate = k) {bound : Nat} (small : k < bound) :
    d.magnitudeBelow bound = true := by
  have floor := (truncate_eq_iff positive).mp part
  rw [floor_value] at floor
  have nonneg : 0 ≤ d.units := by
    by_contra negative
    have below := Int.ediv_neg_of_neg_of_pos (not_le.mp negative) one_units_pos
    omega
  rw [magnitudeBelow_iff, Int.natAbs_of_nonneg nonneg]
  exact (Int.ediv_lt_iff_lt_mul one_units_pos).mp (floor.trans_lt small)

end Double

namespace Number

def value : Number → Rat
  | .int i _ => i
  | .double d => d.value

private theorem int?_eq_some_iff {n : Number} {k : Int} (positive : 0 < k) (small : k < 2 ^ 53) :
    (Value.num n).int? = some k ↔ ⌊n.value⌋ = k := by
  cases n with
  | int i fits =>
    rw [value, Int.floor_intCast]
    by_cases range : InInt64 i
    · simp [Value.int?, int64?, range]
    · have large : 2 ^ 53 ≤ i := by
        simp only [InInt64, FitsNumber] at range fits
        omega
      have part := Double.le_truncate_ofInt fits (by decide) large
      refine iff_of_false (fun read => ?_) (by omega)
      simp only [Value.int?, int64?, range, if_false, toDouble] at read
      have cut := Option.some.inj (Option.ite_none_right_eq_some.mp read).2
      omega
  | double d =>
    rw [value, ← Double.truncate_eq_iff positive, Value.int?_double]
    constructor
    · intro read
      exact Option.some.inj (Option.ite_none_right_eq_some.mp read).2
    · intro part
      have inside : d.magnitudeBelow 9223372036854775808 = true :=
        Double.magnitudeBelow_of_truncate positive part (by omega)
      rw [if_pos inside, part]

end Number

namespace NodeMode

private theorem bind_disabling? (read : Option Int) : read.bind disabling? =
    if read = some 2 then some bypassed else if read = some 4 then some muted else none := by
  cases read with
  | none => rfl
  | some i => simp [disabling?]

end NodeMode

namespace Value

/-- The number that a value is, if it is one; a text is none. -/
def number? : Value → Option Rat
  | .num n => some n.value
  | _ => none

def namedMode? (v : Value) : Option NodeMode :=
  if v.number? = some 2 then some .bypassed
  else if v.number? = some 4 then some .muted
  else none

/-- Off in the mode that was named, or else by truth and with the mapping's own mode. -/
def switchedBy (v : Value) (own : NodeMode) : Option NodeMode → Bool × NodeMode
  | some mode => (false, mode)
  | none => (v.truthy, own)

private theorem toggleState_eq (v : Value) (own : NodeMode) :
    toggleState v own =
      v.switchedBy own ((v.number?.map Int.floor).bind NodeMode.disabling?) := by
  have named : (if v.isNumber then v.int?.bind NodeMode.disabling? else none) =
      (v.number?.map Int.floor).bind NodeMode.disabling? := by
    cases v with
    | num n =>
      have two := n.int?_eq_some_iff (k := 2) (by decide) (by decide)
      have four := n.int?_eq_some_iff (k := 4) (by decide) (by decide)
      simp only [isNumber, if_true, number?, NodeMode.bind_disabling?, two, four, Option.map_some,
        Option.some.injEq]
    | _ => rfl
  rw [toggleState, named]
  cases (v.number?.map Int.floor).bind NodeMode.disabling? <;> rfl

private theorem truthy_num (n : Number) :
    (num n).truthy = !n.toDouble.equal (Double.zero false) := by
  have spelled : (num n).checkbox? =
      if n.toDouble.equal (Double.ofInt 1) then some true
      else if n.toDouble.equal (Double.zero false) then some false else none := rfl
  have truth : (num n).truthy =
      (num n).checkbox?.getD (!n.toDouble.equal (Double.zero false)) := by
    delta truthy
    cases (num n).checkbox? <;> rfl
  rw [truth, spelled]
  by_cases one : n.toDouble.equal (Double.ofInt 1) = true
  · have notZero : ¬ n.toDouble.equal (Double.zero false) = true := by
      intro zero
      have same := Double.equal_trans ((Double.equal_comm _ _).trans one) zero
      rw [Double.equal_zero_iff, Double.units_ofInt (by decide), Int.one_mul] at same
      exact Double.one_units_pos.ne' same
    rw [if_pos one, Option.getD_some, Bool.eq_false_iff.mpr notZero, Bool.not_false]
  · rw [if_neg one]
    cases n.toDouble.equal (Double.zero false) <;> rfl

private theorem truthy_double {d : Double} (positive : 0 < d.value) :
    (num (.double d)).truthy = true := by
  rw [truthy_num, Bool.not_eq_true', ← Bool.not_eq_true, Number.toDouble, Double.equal_zero_iff]
  intro units
  have none_ : d.value = 0 := by rw [Double.value_eq_div, units, Int.cast_zero, zero_div]
  exact positive.ne' none_

private theorem bind_disabling?_floor {v : Value}
    (whole : ∀ q ∈ v.number?, ⌊q⌋ = 2 ∨ ⌊q⌋ = 4 → q = ⌊q⌋) :
    (v.number?.map Int.floor).bind NodeMode.disabling? = v.namedMode? := by
  rw [NodeMode.bind_disabling?, namedMode?]
  cases number : v.number? with
  | none => rfl
  | some q =>
    have part := whole q number
    have two : ⌊q⌋ = 2 ↔ q = 2 :=
      ⟨fun floor => by simpa [floor] using part (Or.inl floor), fun same => by simp [same]⟩
    have four : ⌊q⌋ = 4 ↔ q = 4 :=
      ⟨fun floor => by simpa [floor] using part (Or.inr floor), fun same => by simp [same]⟩
    simp only [Option.map_some, Option.some.injEq, two, four]

private theorem exists_double_of_fraction {v : Value} {q : Rat} (number : v.number? = some q)
    (fraction : q ≠ ⌊q⌋) : ∃ d : Double, v = .num (.double d) ∧ d.value = q := by
  cases v with
  | num n =>
    obtain rfl : n.value = q := Option.some.inj number
    cases n with
    | int i fits => exact absurd (by simp [Number.value]) fraction
    | double d => exact ⟨d, rfl, rfl⟩
  | _ => simp [number?] at number

/-- A toggle goes by the integer part of a number: 2 and 4 switch off in the mode with this code,
and any other value switches by its truth and keeps the mapping's own mode. This is what it does for
the value itself in place of the integer part, unless the value has a fraction behind 2 or 4. -/
theorem toggle_by_code_iff (v : Value) (own : NodeMode) :
    toggleState v own =
        v.switchedBy own ((v.number?.map Int.floor).bind NodeMode.disabling?) ∧
      (toggleState v own = v.switchedBy own v.namedMode? ↔
        ∀ q ∈ v.number?, ⌊q⌋ = 2 ∨ ⌊q⌋ = 4 → q = ⌊q⌋) := by
  refine ⟨toggleState_eq v own, fun same q number part => ?_, fun whole => ?_⟩
  · by_contra fraction
    obtain ⟨d, rfl, value⟩ := exists_double_of_fraction number fraction
    -- a fraction names no mode, and it is true, yet its integer part switches off
    have positive : 0 < ⌊q⌋ := by omega
    have true_ : (num (.double d)).truthy = true :=
      truthy_double (value ▸ (Int.cast_pos.mpr positive).trans_le (Int.floor_le q))
    have unnamed : (num (.double d)).namedMode? = none := by
      have two : q ≠ 2 := by
        rintro rfl
        simp at fraction
      have four : q ≠ 4 := by
        rintro rfl
        simp at fraction
      rw [Option.mem_def] at number
      simp [namedMode?, number, two, four]
    rw [toggleState_eq, unnamed, Option.mem_def.mp number, Option.map_some,
      NodeMode.bind_disabling?] at same
    rcases part with two | four
    · simp [two, switchedBy, true_] at same
    · simp [four, switchedBy, true_] at same
  · rw [toggleState_eq, bind_disabling?_floor whole]

def twoHalf : Double := ⟨false, 5629499534213120, -51, by decide⟩

/-- Two and a half is true and no code, but it bypasses the nodes of a toggle that mutes them. -/
theorem fraction_bypasses :
    (ofDouble twoHalf).number? = some (5 / 2) ∧ (ofDouble twoHalf).truthy = true ∧
      toggleState (ofDouble twoHalf) .muted = (false, .bypassed) := by
  have value : twoHalf.value = 5 / 2 := by norm_num [Double.value, Double.magnitude, twoHalf]
  have number : (ofDouble twoHalf).number? = some (5 / 2) := congrArg some value
  have part : ⌊(5 / 2 : Rat)⌋ = 2 := by norm_num
  refine ⟨number, truthy_double (by norm_num [value]), ?_⟩
  rw [toggleState_eq, number, Option.map_some, part]
  rfl

end Value

end WorkflowGraph
