/- Correct rounding: a quotient is rounded to the double nearest to it, and there is only one. -/

import Mathlib.Algebra.Ring.Parity
import WorkflowGraph.Proofs.ModeCodes

set_option autoImplicit false
set_option relaxedAutoImplicit false

/-!
Rounding keeps the digits of a quotient down to a last place, so it moves the quotient by half a unit
of that place at most. Every other double is at least half a unit away: the doubles from the quotient
on are whole units apart, and those of a smaller exponent end a half unit before the first of them.
Between two doubles with even significands lies a third one, and thus a tie has one even side only.
-/

namespace WorkflowGraph

namespace Double

/-- The rounding rule: no double is nearer to the number, and of two that are equally near it is the
one with an even significand. -/
structure IsNearest (x : Rat) (d : Double) : Prop where
  closest : ∀ b : Double, |x - d.value| ≤ |x - b.value|
  even : ∀ b : Double, b.value ≠ d.value → |x - b.value| = |x - d.value| → Even d.significand

theorem isNearest_value (d : Double) : IsNearest d.value d := by
  constructor
  · intro b
    rw [sub_self, abs_zero]
    exact abs_nonneg _
  · intro b other tie
    rw [sub_self, abs_zero, abs_eq_zero, sub_eq_zero] at tie
    exact absurd tie.symm other

section Quotient

variable {negative : Bool} {num den : Nat} {d : Double}

private theorem abs_sub_divideHalfEven (num : Nat) (hd : 0 < den) :
    |(num / den : Rat) - divideHalfEven num den| ≤ 1 / 2 ∧
      (|(num / den : Rat) - divideHalfEven num den| = 1 / 2 → Even (divideHalfEven num den)) := by
  have den_pos : (0 : Rat) < den := by exact_mod_cast hd
  have parts : (num / den : Rat) = (num / den : Nat) + (num % den : Nat) / (den : Rat) := by
    field_simp
    exact_mod_cast (Nat.div_add_mod num den).symm
  have rest_nonneg : (0 : Rat) ≤ (num % den : Nat) / (den : Rat) := by positivity
  have rest_lt : ((num % den : Nat) : Rat) / den < 1 := by
    rw [div_lt_one den_pos]
    exact_mod_cast Nat.mod_lt num hd
  have below : 2 * (num % den) < den ↔ ((num % den : Nat) : Rat) / den < 1 / 2 := by
    rw [div_lt_div_iff₀ den_pos two_pos, one_mul, mul_comm]
    exact_mod_cast Iff.rfl
  have half : 2 * (num % den) = den ↔ ((num % den : Nat) : Rat) / den = 1 / 2 := by
    rw [div_eq_div_iff den_pos.ne' two_ne_zero, one_mul, mul_comm]
    exact_mod_cast Iff.rfl
  rw [divideHalfEven, parts]
  split_ifs with down
  · rw [below, half] at down
    rw [add_sub_cancel_left, abs_of_nonneg rest_nonneg]
    rcases down with less | ⟨tie, even⟩
    · exact ⟨less.le, fun tie => absurd tie less.ne⟩
    · exact ⟨tie.le, fun _ => Nat.even_iff.mpr even⟩
  · rw [below, half, not_or, not_lt, not_and] at down
    have distance : |((num / den : Nat) : Rat) + (num % den : Nat) / (den : Rat) -
        (num / den + 1 : Nat)| = 1 - (num % den : Nat) / (den : Rat) := by
      rw [Nat.cast_add, Nat.cast_one, add_sub_add_left_eq_sub, abs_sub_comm,
        abs_of_nonneg (sub_nonneg.mpr rest_lt.le)]
    rw [distance]
    refine ⟨by linarith [down.1], fun tie => ?_⟩
    have odd := down.2 (by linarith)
    rwa [Nat.even_add_one, Nat.even_iff]

private theorem abs_sub_rounded (num : Nat) (hd : 0 < den) :
    |(num / den : Rat) - rounded num den * 2 ^ lastPlace num den| ≤ 2 ^ lastPlace num den / 2 ∧
      (|(num / den : Rat) - rounded num den * 2 ^ lastPlace num den| = 2 ^ lastPlace num den / 2 →
        Even (rounded num den)) := by
  have unit_pos : (0 : Rat) < 2 ^ lastPlace num den := by positivity
  have scale_ne : ((den * Nat.pow 2 (lastPlace num den).toNat : Nat) : Rat) ≠ 0 := by
    exact_mod_cast (scale_pos hd _).ne'
  have near := abs_sub_divideHalfEven (num * Nat.pow 2 (-lastPlace num den).toNat)
    (scale_pos hd (lastPlace num den))
  rw [scaled_eq num hd, mul_div_cancel_right₀ _ scale_ne, ← rounded] at near
  have distance : |(num / den : Rat) - rounded num den * 2 ^ lastPlace num den| =
      |(num / den / 2 ^ lastPlace num den - rounded num den : Rat)| * 2 ^ lastPlace num den := by
    rw [← abs_of_pos unit_pos, ← abs_mul, abs_of_pos unit_pos, sub_mul,
      div_mul_cancel₀ _ unit_pos.ne']
  rw [distance]
  constructor
  · linarith [mul_le_mul_of_nonneg_right near.1 unit_pos.le]
  · intro tie
    exact near.2 (mul_right_cancel₀ unit_pos.ne' (by linarith))

private theorem half_le_of_multiples {x unit : Rat} {j k : Nat} (unit_pos : 0 < unit)
    (other : j ≠ k) (near : |x - k * unit| ≤ unit / 2) : unit / 2 ≤ |x - j * unit| := by
  have apart : unit ≤ |(j : Rat) * unit - k * unit| := by
    have one_le : (1 : Rat) ≤ |(j : Rat) - k| := by
      have whole : (1 : Int) ≤ |(j : Int) - k| := Int.one_le_abs (by omega)
      exact_mod_cast whole
    rw [← sub_mul, abs_mul, abs_of_pos unit_pos]
    exact le_mul_of_one_le_left unit_pos.le one_le
  have triangle := abs_sub_le ((j : Rat) * unit) x (k * unit)
  rw [abs_sub_comm ((j : Rat) * unit) x] at triangle
  linarith

private theorem half_le_abs_sub (hn : 0 < num) (hd : 0 < den) (b : Double)
    (other : b.magnitude ≠ rounded num den * 2 ^ lastPlace num den) :
    2 ^ lastPlace num den / 2 ≤ |(num / den : Rat) - b.magnitude| := by
  have unit_pos : (0 : Rat) < 2 ^ lastPlace num den := by positivity
  rcases le_or_gt (lastPlace num den) b.exponent with coarse | fine
  · rw [magnitude_eq_mul coarse] at other ⊢
    apply half_le_of_multiples unit_pos _ (abs_sub_rounded num hd).1
    intro same
    exact other (by rw [same])
  · -- the greatest double of a smaller exponent is half a unit short of the least full significand
    have normal : 2 ^ 52 * 2 ^ lastPlace num den ≤ (num / den : Rat) := by
      have least := b.canonical.2.1
      have above := (lastPlace_lastPlace hn hd).above.resolve_right fun deepest => by omega
      rw [zpow_add₀ two_ne_zero] at above
      exact_mod_cast above
    have step : (2 : Rat) ^ b.exponent ≤ 2 ^ lastPlace num den / 2 := by
      rw [div_eq_mul_inv, ← zpow_sub_one₀ two_ne_zero]
      exact zpow_le_zpow_right₀ (by norm_num) (by omega)
    have digits : (b.significand : Rat) ≤ 2 ^ 53 - 1 := by
      have small : b.significand + 1 ≤ 2 ^ 53 := b.canonical.1
      rw [le_sub_iff_add_le]
      exact_mod_cast small
    have below : b.magnitude ≤ (2 ^ 53 - 1) * (2 ^ lastPlace num den / 2) := by
      rw [magnitude]
      gcongr
    refine le_trans ?_ (le_abs_self _)
    linarith

private theorem significand_of_ofCanonical? {significand : Nat} {exponent : Int}
    (h : ofCanonical? negative significand exponent = some d) : d.significand = significand := by
  rw [ofCanonical?, Option.dite_none_right_eq_some] at h
  obtain ⟨canonical, made⟩ := h
  obtain rfl := Option.some.inj made
  rfl

private theorem even_significand_of_nearest (hn : 0 < num) (h : nearest negative num den = some d)
    (even : Even (rounded num den)) : Even d.significand := by
  rw [nearest_eq_ofRounded negative den hn, ofRounded] at h
  split_ifs at h with full
  · rw [significand_of_ofCanonical? h]
    decide
  · rwa [significand_of_ofCanonical? h]

/-- Of all magnitudes of doubles a quotient is rounded to the nearest one, by the rounding rule. -/
theorem nearest_magnitude (hn : 0 < num) (hd : 0 < den) (h : nearest negative num den = some d)
    (b : Double) :
    |(num / den : Rat) - d.magnitude| ≤ |num / den - b.magnitude| ∧
      (b.magnitude ≠ d.magnitude → |(num / den : Rat) - b.magnitude| ≤ |num / den - d.magnitude| →
        Even d.significand) := by
  have near := abs_sub_rounded num hd
  have far := half_le_abs_sub hn hd b
  rw [← magnitude_of_nearest hn h] at near far
  constructor
  · rcases eq_or_ne b.magnitude d.magnitude with same | other
    · rw [same]
    · exact near.1.trans (far other)
  · intro other le
    have tie := le_antisymm near.1 ((far other).trans le)
    exact even_significand_of_nearest hn h (near.2 tie)

private theorem abs_value (d : Double) : |d.value| = d.magnitude := by
  rw [value]
  split_ifs
  · rw [abs_neg, abs_of_nonneg d.magnitude_nonneg]
  · exact abs_of_nonneg d.magnitude_nonneg

private theorem abs_sub_value {x : Rat} (sign : d.negative = decide (x < 0)) :
    |x - d.value| = |(|x| - d.magnitude)| := by
  rw [value, sign]
  rcases lt_or_ge x 0 with below | above
  · simp only [below, decide_true, if_true, abs_of_neg below]
    rw [← abs_neg, neg_sub, sub_eq_neg_add, add_comm, ← sub_eq_add_neg, neg_sub_comm]
  · simp only [not_lt.mpr above, decide_false, abs_of_nonneg above, Bool.false_eq_true, if_false]

private theorem magnitude_ne_of_tie {x : Rat} {a b : Double} (nonzero : x ≠ 0)
    (other : b.value ≠ a.value) (tie : |x - b.value| = |x - a.value|) :
    b.magnitude ≠ a.magnitude := by
  rw [← abs_value, ← abs_value, ne_eq, abs_eq_abs, not_or]
  refine ⟨other, fun opposite => ?_⟩
  rw [opposite, abs_eq_abs] at tie
  rcases tie with same | same
  · have zero_ : a.value = 0 := by linarith
    exact other (by rw [opposite, zero_, neg_zero])
  · exact nonzero (by linarith)

private theorem isNearest_of_nearest {x : Rat} (hd : 0 < den) (size : |x| = num / den)
    (h : nearest (x < 0) num den = some d) : IsNearest x d := by
  rcases Nat.eq_zero_or_pos num with rfl | hn
  · obtain rfl : x = 0 := by simpa using size
    obtain rfl := Option.some.inj h
    have own := isNearest_value (zero (decide ((0 : Rat) < 0)))
    rwa [value_zero] at own
  · have distance : |x - d.value| = |(num / den : Rat) - d.magnitude| := by
      rw [← size, abs_sub_value (negative_of_nearest h)]
    have reach (b : Double) : |(num / den : Rat) - b.magnitude| ≤ |x - b.value| := by
      rw [← size, ← abs_value]
      exact abs_abs_sub_abs_le x b.value
    have nonzero : x ≠ 0 := by
      rw [← abs_pos, size]
      positivity
    have rounded := nearest_magnitude hn hd h
    constructor
    · intro b
      rw [distance]
      exact (rounded b).1.trans (reach b)
    · intro b other tie
      apply (rounded b).2 (magnitude_ne_of_tie nonzero other tie)
      rw [← distance, ← tie]
      exact reach b

end Quotient

private theorem significand_of_magnitude {a b : Double} (same : a.magnitude = b.magnitude) :
    a.significand = b.significand := by
  have own := nearest_of_magnitude false a.ratio_pos a a.ratio_eq
  have others := nearest_of_magnitude false a.ratio_pos b (a.ratio_eq.trans same)
  have signless : a.withSign false = b.withSign false := Option.some.inj (own.symm.trans others)
  calc a.significand = (a.withSign false).significand := rfl
    _ = (b.withSign false).significand := by rw [signless]
    _ = b.significand := rfl

private theorem exists_magnitude_between {a b : Double} (less : a.magnitude < b.magnitude)
    (ha : Even a.significand) (hb : Even b.significand) :
    ∃ c : Double, a.magnitude < c.magnitude ∧ c.magnitude < b.magnitude := by
  have unit_pos : (0 : Rat) < 2 ^ a.exponent := by positivity
  obtain ⟨small, least, greatest, large⟩ := a.canonical
  have canonical : CanonicalDouble (a.significand + 1) a.exponent := by
    refine ⟨?_, least, greatest, large.imp_left fun _ => by omega⟩
    rw [Nat.even_iff] at ha
    omega
  have place := a.lastPlace_magnitude.mono b.lastPlace_magnitude less.le
  let next : Double := ⟨false, a.significand + 1, a.exponent, canonical⟩
  have follows : next.magnitude = (a.significand + 1 : Nat) * 2 ^ a.exponent := rfl
  refine ⟨next, ?_, ?_⟩
  · rw [follows, magnitude]
    gcongr
    exact Nat.lt_succ_self _
  · have le : next.magnitude ≤ b.magnitude := by
      rw [magnitude_eq_mul place, magnitude, mul_lt_mul_iff_left₀ unit_pos, Nat.cast_lt] at less
      rw [follows, magnitude_eq_mul place, mul_le_mul_iff_left₀ unit_pos, Nat.cast_le]
      exact less
    refine lt_of_le_of_ne le fun same => ?_
    have odd : b.significand = a.significand + 1 := (significand_of_magnitude same).symm
    rw [odd, Nat.even_add_one] at hb
    exact hb ha

private theorem exists_between {a b : Double} (less : a.value < b.value) (ha : Even a.significand)
    (hb : Even b.significand) : ∃ c : Double, a.value < c.value ∧ c.value < b.value := by
  rcases le_or_gt 0 a.value with nonneg | below
  · have magnitudes : a.magnitude < b.magnitude := by
      rwa [← abs_value, ← abs_value, abs_of_nonneg nonneg, abs_of_nonneg (nonneg.trans less.le)]
    obtain ⟨c, above, below⟩ := exists_magnitude_between magnitudes ha hb
    rw [← abs_value, abs_of_nonneg nonneg] at above
    rw [← abs_value b, abs_of_nonneg (nonneg.trans less.le)] at below
    exact ⟨c.withSign false, above, below⟩
  · rcases le_or_gt b.value 0 with nonpos | above
    · have magnitudes : b.magnitude < a.magnitude := by
        rwa [← abs_value, ← abs_value, abs_of_nonpos nonpos, abs_of_neg below, neg_lt_neg_iff]
      obtain ⟨c, above, below'⟩ := exists_magnitude_between magnitudes hb ha
      rw [← abs_value, abs_of_nonpos nonpos, neg_lt] at above
      rw [← abs_value a, abs_of_neg below, lt_neg] at below'
      exact ⟨c.withSign true, below', above⟩
    · refine ⟨zero false, ?_, ?_⟩
      · rwa [value_zero]
      · rwa [value_zero]

/-- The doubles nearest to a number are one number. -/
theorem IsNearest.unique {x : Rat} {a b : Double} (ha : IsNearest x a) (hb : IsNearest x b) :
    a.value = b.value := by
  wlog less : a.value < b.value generalizing a b
  · rcases (not_lt.mp less).lt_or_eq with greater | same
    · exact (this hb ha greater).symm
    · exact same.symm
  have tie : |x - a.value| = |x - b.value| := le_antisymm (ha.closest b) (hb.closest a)
  have middle : x - a.value = b.value - x := by
    rcases abs_eq_abs.mp tie with same | opposite
    · exact absurd (sub_right_inj.mp same) less.ne
    · rw [opposite, neg_sub]
  -- a double between two that are equally near would be nearer
  obtain ⟨c, above, below⟩ := exists_between less (ha.even b less.ne' tie.symm)
    (hb.even a less.ne tie)
  have nearer : |x - c.value| < |x - a.value| := by
    have apart : |x - a.value| = b.value - x := by rw [middle, abs_of_pos (by linarith)]
    rw [apart, abs_lt]
    constructor <;> linarith
  exact absurd (ha.closest c) (not_le.mpr nearer)

theorem IsNearest.of_value_eq {x : Rat} {a b : Double} (ha : IsNearest x a)
    (same : a.value = b.value) : IsNearest x b := by
  have magnitudes : a.magnitude = b.magnitude := by rw [← abs_value, ← abs_value, same]
  have digits := significand_of_magnitude magnitudes
  constructor
  · intro c
    rw [← same]
    exact ha.closest c
  · intro c other tie
    rw [← same] at other tie
    exact digits ▸ ha.even c other tie

end Double

namespace Number

/-- A number becomes the double nearest to it. -/
theorem isNearest_toDouble (n : Number) : Double.IsNearest n.value n.toDouble := by
  cases n with
  | double d => exact Double.isNearest_value d
  | int i fits =>
    have size : |(i : Rat)| = (i.natAbs : Nat) / (1 : Nat) := by
      rw [Nat.cast_one, div_one, Nat.cast_natAbs, Int.cast_abs]
    have negative : decide ((i : Rat) < 0) = decide (i < 0) := by
      rw [decide_eq_decide, Int.cast_lt_zero]
    have rounded := Double.nearest_natAbs (Double.natAbs_lt_of_fits fits)
    rw [← negative] at rounded
    exact Double.isNearest_of_nearest one_pos size rounded

end Number

end WorkflowGraph
