/- Integers as doubles: rounding keeps their order against doubles, and their texts round alike. -/

import WorkflowGraph.Proofs.CheckedValues
import WorkflowGraph.Proofs.Numerals

set_option autoImplicit false
set_option relaxedAutoImplicit false

/-!
A quotient and the double nearest to it lie on the same side of every double, so a comparison with a
double comes out the same before rounding and after, save where the rounded quotient meets the double
itself. Integers of 64 bits are such quotients: up to `2 ^ 53` they are doubles, and beyond it an
integer can round onto a bound that it exceeds.
-/

namespace WorkflowGraph

namespace Double

private theorem divideHalfEven_le {num den k : Nat} (h : num ≤ k * den) :
    divideHalfEven num den ≤ k := by
  have floor_le : num / den ≤ k := Nat.div_le_of_le_mul (Nat.mul_comm k den ▸ h)
  rw [divideHalfEven]
  split_ifs with down
  · exact floor_le
  · -- a quotient that reaches the bound leaves no rest, and is not rounded up
    have below : num / den ≠ k := by
      rintro rfl
      have exact_ : num % den = 0 := by
        have parts := Nat.div_add_mod' num den
        omega
      rcases Nat.eq_zero_or_pos den with rfl | positive
      · simp at exact_ down
        omega
      · omega
    omega

private theorem le_divideHalfEven {num den k : Nat} (hd : 0 < den) (h : k * den ≤ num) :
    k ≤ divideHalfEven num den := by
  have le_floor : k ≤ num / den := (Nat.le_div_iff_mul_le hd).mpr h
  rw [divideHalfEven]
  split_ifs <;> omega

theorem scale_pos {den : Nat} (hd : 0 < den) (e : Int) : 0 < den * Nat.pow 2 e.toNat :=
  Nat.mul_pos hd (Nat.pow_pos (by decide))

theorem scaled_eq (num : Nat) {den : Nat} (hd : 0 < den) (e : Int) :
    ((num * Nat.pow 2 (-e).toNat : Nat) : Rat) =
      num / den / 2 ^ e * (den * Nat.pow 2 e.toNat : Nat) := by
  have den_ne : (den : Rat) ≠ 0 := by exact_mod_cast hd.ne'
  have split := zpow_mul_pow_toNat_neg (b := 2) two_ne_zero e
  simp only [Nat.pow_eq]
  push_cast
  rw [← split]
  field_simp

private theorem scaled_le_iff {num den : Nat} (hd : 0 < den) (k : Nat) (e : Int) :
    num * Nat.pow 2 (-e).toNat ≤ k * (den * Nat.pow 2 e.toNat) ↔ (num / den : Rat) ≤ k * 2 ^ e := by
  have scale : (0 : Rat) < (den * Nat.pow 2 e.toNat : Nat) := by exact_mod_cast scale_pos hd e
  rw [← Nat.cast_le (α := Rat), scaled_eq num hd, Nat.cast_mul k, mul_le_mul_iff_left₀ scale,
    div_le_iff₀ (by positivity)]

private theorem le_scaled_iff {num den : Nat} (hd : 0 < den) (k : Nat) (e : Int) :
    k * (den * Nat.pow 2 e.toNat) ≤ num * Nat.pow 2 (-e).toNat ↔ k * 2 ^ e ≤ (num / den : Rat) := by
  have scale : (0 : Rat) < (den * Nat.pow 2 e.toNat : Nat) := by exact_mod_cast scale_pos hd e
  rw [← Nat.cast_le (α := Rat), scaled_eq num hd, Nat.cast_mul k, mul_le_mul_iff_left₀ scale,
    le_div_iff₀ (by positivity)]

/-- The significand that a positive quotient rounds to in its last place; it may have a digit too
many. -/
def rounded (num den : Nat) : Nat :=
  divideHalfEven (num * Nat.pow 2 (-lastPlace num den).toNat)
    (den * Nat.pow 2 (lastPlace num den).toNat)

theorem nearest_eq_ofRounded (negative : Bool) {num : Nat} (den : Nat) (hn : 0 < num) :
    nearest negative num den = ofRounded negative (rounded num den) (lastPlace num den) :=
  nearest_of_pos negative den hn

private theorem rounded_le {num den k : Nat} (hd : 0 < den)
    (h : (num / den : Rat) ≤ k * 2 ^ lastPlace num den) : rounded num den ≤ k :=
  divideHalfEven_le ((scaled_le_iff hd k _).mpr h)

private theorem le_rounded {num den k : Nat} (hd : 0 < den)
    (h : k * 2 ^ lastPlace num den ≤ (num / den : Rat)) : k ≤ rounded num den :=
  le_divideHalfEven (scale_pos hd _) ((le_scaled_iff hd k _).mpr h)

private theorem magnitude_of_ofCanonical? {negative : Bool} {significand : Nat} {exponent : Int}
    {d : Double} (h : ofCanonical? negative significand exponent = some d) :
    d.magnitude = significand * 2 ^ exponent := by
  rw [ofCanonical?, Option.dite_none_right_eq_some] at h
  obtain ⟨canonical, made⟩ := h
  obtain rfl := Option.some.inj made
  rfl

theorem magnitude_of_nearest {negative : Bool} {num den : Nat} {d : Double} (hn : 0 < num)
    (h : nearest negative num den = some d) :
    d.magnitude = rounded num den * 2 ^ lastPlace num den := by
  rw [nearest_eq_ofRounded negative den hn, ofRounded] at h
  split_ifs at h with full
  · rw [magnitude_of_ofCanonical? h, full, zpow_add_one₀ two_ne_zero]
    push_cast
    ring
  · exact magnitude_of_ofCanonical? h

theorem magnitude_eq_mul {b : Double} {e : Int} (h : e ≤ b.exponent) :
    b.magnitude = (b.significand * 2 ^ (b.exponent - e).toNat : Nat) * 2 ^ e := by
  have split : (2 : Rat) ^ b.exponent = 2 ^ (b.exponent - e).toNat * 2 ^ e := by
    rw [← zpow_natCast, ← zpow_add₀ two_ne_zero]
    congr 1
    omega
  rw [magnitude, split]
  push_cast
  ring

private theorem nearest_le_magnitude {negative : Bool} {num den : Nat} {d : Double} (hn : 0 < num)
    (hd : 0 < den) (h : nearest negative num den = some d) (b : Double)
    (le : (num / den : Rat) ≤ b.magnitude) : d.magnitude ≤ b.magnitude := by
  have place : lastPlace num den ≤ b.exponent :=
    (lastPlace_lastPlace hn hd).mono b.lastPlace_magnitude le
  rw [magnitude_eq_mul place] at le ⊢
  rw [magnitude_of_nearest hn h]
  have bound := rounded_le hd le
  gcongr

private theorem magnitude_le_nearest {negative : Bool} {num den : Nat} {d : Double} (hn : 0 < num)
    (hd : 0 < den) (h : nearest negative num den = some d) (b : Double)
    (le : b.magnitude ≤ (num / den : Rat)) : b.magnitude ≤ d.magnitude := by
  have place := lastPlace_lastPlace hn hd
  rw [magnitude_of_nearest hn h]
  rcases le_or_gt (lastPlace num den) b.exponent with coarse | fine
  · rw [magnitude_eq_mul coarse] at le ⊢
    have bound := le_rounded hd le
    gcongr
  · -- a double with places below the last one has too few digits to reach the least significand
    have normal : (2 : Rat) ^ (52 + lastPlace num den) ≤ num / den := by
      have least := b.canonical.2.1
      exact place.above.resolve_right fun deepest => by omega
    have full : 2 ^ 52 ≤ rounded num den := by
      apply le_rounded hd
      rwa [zpow_add₀ two_ne_zero] at normal
    calc b.magnitude ≤ 2 ^ (53 + b.exponent) := b.lastPlace_magnitude.below.le
      _ ≤ 2 ^ (52 + lastPlace num den) := zpow_le_zpow_right₀ (by norm_num) (by omega)
      _ = ((2 ^ 52 : Nat) : Rat) * 2 ^ lastPlace num den := by
          rw [zpow_add₀ two_ne_zero]
          norm_cast
      _ ≤ rounded num den * 2 ^ lastPlace num den := by gcongr

private theorem rounded_le_full {num den : Nat} (hn : 0 < num) (hd : 0 < den) :
    rounded num den ≤ 2 ^ 53 := by
  have below := (lastPlace_lastPlace hn hd).below
  rw [zpow_add₀ two_ne_zero] at below
  apply rounded_le hd
  exact_mod_cast below.le

private theorem full_le_rounded {num den : Nat} (hn : 0 < num) (hd : 0 < den) :
    2 ^ 52 ≤ rounded num den ∨ lastPlace num den = -1074 := by
  refine (lastPlace_lastPlace hn hd).above.imp_left fun above => ?_
  rw [zpow_add₀ two_ne_zero] at above
  apply le_rounded hd
  exact_mod_cast above

private theorem exists_nearest (negative : Bool) {num den : Nat} (hn : 0 < num) (hd : 0 < den)
    (small : (num / den : Rat) < 2 ^ (1023 : Int)) : ∃ d, nearest negative num den = some d := by
  have place := lastPlace_lastPlace hn hd
  have greatest : lastPlace num den ≤ 970 := by
    rcases place.above with above | deepest
    · have powers := (zpow_lt_zpow_iff_right₀ (by norm_num)).mp (above.trans_lt small)
      omega
    · omega
  have high := rounded_le_full hn hd
  have low := full_le_rounded hn hd
  have least := place.least
  rw [nearest_eq_ofRounded negative den hn, ofRounded]
  split_ifs with full
  · have canonical : CanonicalDouble (Nat.pow 2 52) (lastPlace num den + 1) :=
      ⟨by decide, by omega, by omega, Or.inl (by decide)⟩
    exact ⟨_, dif_pos canonical⟩
  · have canonical : CanonicalDouble (rounded num den) (lastPlace num den) := by
      rw [Nat.pow_eq] at full
      exact ⟨by omega, least, by omega, low⟩
    exact ⟨_, dif_pos canonical⟩

theorem magnitude_nonneg (d : Double) : 0 ≤ d.magnitude := by
  rw [magnitude]
  positivity

private theorem magnitude_zero (negative : Bool) : (zero negative).magnitude = 0 := by
  simp [magnitude, zero]

def value (d : Double) : Rat := if d.negative then -d.magnitude else d.magnitude

@[simp] theorem value_zero (negative : Bool) : (zero negative).value = 0 := by
  simp [value, magnitude_zero]

private theorem cast_pow_two (n : Nat) : (((Nat.pow 2 n : Nat) : Int) : Rat) = 2 ^ (n : Int) := by
  rw [Int.cast_natCast, Nat.pow_eq, Nat.cast_pow, Nat.cast_ofNat, zpow_natCast]

private theorem one_eq : (one : Rat) = 2 ^ ((1074 : Nat) : Int) := by
  unfold one
  generalize 1074 = n
  exact cast_pow_two n

theorem one_units_pos : 0 < one := by
  unfold one
  generalize 1074 = n
  exact Int.natCast_pos.mpr (Nat.pow_pos Nat.two_pos)

theorem cast_one_pos : (0 : Rat) < one := by exact_mod_cast one_units_pos

theorem units_eq (d : Double) : (d.units : Rat) = d.value * one := by
  have least := d.canonical.2.1
  have split : (((Nat.pow 2 (d.exponent + 1074).toNat : Nat) : Int) : Rat) =
      2 ^ d.exponent * one := by
    rw [cast_pow_two, one_eq, ← zpow_add₀ two_ne_zero]
    congr 1
    omega
  have size : (((d.significand * Nat.pow 2 (d.exponent + 1074).toNat : Nat) : Int) : Rat) =
      d.magnitude * one := by
    rw [magnitude, mul_assoc, ← split]
    push_cast
    rfl
  rw [units, value]
  split_ifs
  · rw [Int.cast_neg, size, neg_mul]
  · rw [size]

theorem units_le_units_iff {a b : Double} : a.units ≤ b.units ↔ a.value ≤ b.value := by
  rw [← Int.cast_le (R := Rat), units_eq, units_eq, mul_le_mul_iff_left₀ cast_one_pos]

theorem natAbs_lt_of_fits {i : Int} (fits : FitsNumber i) : i.natAbs < 2 ^ 64 := by
  unfold FitsNumber at fits
  omega

section Integer

variable {i : Int}

theorem nearest_natAbs (small : i.natAbs < 2 ^ 64) :
    nearest (i < 0) i.natAbs 1 = some (ofInt i) := by
  obtain ⟨d, found⟩ : ∃ d, nearest (i < 0) i.natAbs 1 = some d := by
    rcases Nat.eq_zero_or_pos i.natAbs with none | positive
    · rw [none]
      exact ⟨_, nearest_zero _ 1⟩
    · apply exists_nearest _ positive one_pos
      have wider : ∀ n, 64 < n → 2 ^ 64 < 2 ^ n := fun _ => Nat.pow_lt_pow_right Nat.one_lt_two
      have bound : i.natAbs < 2 ^ 1023 := small.trans (wider 1023 (by decide))
      rw [Nat.cast_one, div_one]
      exact_mod_cast bound
  rw [ofInt, found, Option.getD_some]

private theorem negative_ofInt (small : i.natAbs < 2 ^ 64) : (ofInt i).negative = decide (i < 0) :=
  negative_of_nearest (nearest_natAbs small)

private theorem magnitude_ofInt_le (small : i.natAbs < 2 ^ 64) (b : Double)
    (le : (i.natAbs : Rat) ≤ b.magnitude) : (ofInt i).magnitude ≤ b.magnitude := by
  have found := nearest_natAbs small
  rcases Nat.eq_zero_or_pos i.natAbs with none | positive
  · rw [none, nearest_zero] at found
    rw [← Option.some.inj found, magnitude_zero]
    exact b.magnitude_nonneg
  · apply nearest_le_magnitude positive one_pos found
    rwa [Nat.cast_one, div_one]

private theorem magnitude_le_ofInt (small : i.natAbs < 2 ^ 64) (b : Double)
    (le : b.magnitude ≤ (i.natAbs : Rat)) : b.magnitude ≤ (ofInt i).magnitude := by
  have found := nearest_natAbs small
  rcases Nat.eq_zero_or_pos i.natAbs with none | positive
  · rw [none, Nat.cast_zero] at le
    exact le.trans (ofInt i).magnitude_nonneg
  · apply magnitude_le_nearest positive one_pos found
    rwa [Nat.cast_one, div_one]

private theorem cast_eq_natAbs (i : Int) :
    (i : Rat) = if i < 0 then -(i.natAbs : Rat) else i.natAbs := by
  rw [Nat.cast_natAbs, Int.cast_abs]
  split_ifs with negative
  · rw [abs_of_neg (by exact_mod_cast negative), neg_neg]
  · rw [abs_of_nonneg (by exact_mod_cast not_lt.mp negative)]

private theorem value_ofInt_between (small : i.natAbs < 2 ^ 64) (b : Double) :
    ((i : Rat) ≤ b.value → (ofInt i).value ≤ b.value) ∧
      (b.value ≤ i → b.value ≤ (ofInt i).value) := by
  have ofInt_nonneg := (ofInt i).magnitude_nonneg
  have nonneg := b.magnitude_nonneg
  have size_nonneg : (0 : Rat) ≤ i.natAbs := Nat.cast_nonneg _
  have upper := magnitude_ofInt_le small b
  have lower := magnitude_le_ofInt small b
  rw [cast_eq_natAbs, value, value, negative_ofInt small]
  -- with equal signs the magnitudes are compared, with different ones the signs decide
  cases sign : b.negative with
  | true =>
    by_cases negative : i < 0
    · simp only [negative, decide_true, if_true, neg_le_neg_iff]
      exact ⟨lower, upper⟩
    · simp only [negative, decide_false, if_true, if_false, Bool.false_eq_true]
      refine ⟨fun le => ?_, fun _ => by linarith⟩
      have zero := upper (by linarith)
      linarith
  | false =>
    by_cases negative : i < 0
    · simp only [negative, decide_true, if_true, if_false, Bool.false_eq_true]
      refine ⟨fun _ => by linarith, fun le => ?_⟩
      have zero := upper (by linarith)
      linarith
    · simp only [negative, decide_false, if_false, Bool.false_eq_true]
      exact ⟨upper, lower⟩

private theorem magnitude_ofInt_of_eq (small : i.natAbs < 2 ^ 64) (positive : 0 < i.natAbs)
    {k : Nat} (whole : (i.natAbs : Rat) = k * 2 ^ lastPlace i.natAbs 1) :
    (ofInt i).magnitude = i.natAbs := by
  have quotient : ((i.natAbs : Nat) : Rat) / (1 : Nat) = k * 2 ^ lastPlace i.natAbs 1 := by
    rw [Nat.cast_one, div_one, whole]
  have digits : rounded i.natAbs 1 = k :=
    le_antisymm (rounded_le one_pos quotient.le) (le_rounded one_pos quotient.ge)
  rw [magnitude_of_nearest positive (nearest_natAbs small), digits, whole]

private theorem lastPlace_nonpos {n : Nat} (positive : 0 < n) (small : n < 2 ^ 53) :
    lastPlace n 1 ≤ 0 := by
  rcases (lastPlace_lastPlace positive one_pos).above with above | deepest
  · have bound : (n : Rat) / (1 : Nat) < 2 ^ (53 : Int) := by
      rw [Nat.cast_one, div_one]
      exact_mod_cast small
    have powers := (zpow_lt_zpow_iff_right₀ (by norm_num)).mp (above.trans_lt bound)
    omega
  · omega

theorem magnitude_ofInt (small : i.natAbs ≤ 2 ^ 53) : (ofInt i).magnitude = i.natAbs := by
  have wide : i.natAbs < 2 ^ 64 := small.trans_lt (by decide)
  rcases Nat.eq_zero_or_pos i.natAbs with none | positive
  · obtain rfl : i = 0 := by omega
    simp [ofInt, nearest_zero, magnitude_zero]
  · rcases small.lt_or_eq with below | full
    · have whole := lastPlace_nonpos positive below
      have split := zpow_mul_pow_toNat_neg (b := 2) (two_ne_zero (α := Rat)) (lastPlace i.natAbs 1)
      apply magnitude_ofInt_of_eq wide positive
        (k := i.natAbs * 2 ^ (-lastPlace i.natAbs 1).toNat)
      push_cast
      rw [mul_assoc, mul_comm _ ((2 : Rat) ^ lastPlace i.natAbs 1), split,
        Int.toNat_of_nonpos whole, pow_zero, mul_one]
    · -- the first integer of 54 digits ends with a zero
      have place : lastPlace (2 ^ 53) 1 = 1 := rfl
      apply magnitude_ofInt_of_eq wide positive (k := 2 ^ 52)
      rw [full, place]
      norm_num

theorem value_ofInt (small : i.natAbs ≤ 2 ^ 53) : (ofInt i).value = i := by
  have wide : i.natAbs < 2 ^ 64 := small.trans_lt (by decide)
  rw [value, negative_ofInt wide, magnitude_ofInt small, cast_eq_natAbs]
  simp only [decide_eq_true_eq]

theorem units_ofInt (small : i.natAbs ≤ 2 ^ 53) : (ofInt i).units = i * one := by
  have cast : ((ofInt i).units : Rat) = i * one := by rw [units_eq, value_ofInt small]
  exact_mod_cast cast

theorem units_ofInt_le (fits : FitsNumber i) (b : Double) (le : i * one ≤ b.units) :
    (ofInt i).units ≤ b.units := by
  rw [units_le_units_iff]
  apply (value_ofInt_between (natAbs_lt_of_fits fits) b).1
  rw [← mul_le_mul_iff_left₀ cast_one_pos, ← units_eq]
  exact_mod_cast le

theorem le_units_ofInt (fits : FitsNumber i) (b : Double) (le : b.units ≤ i * one) :
    b.units ≤ (ofInt i).units := by
  rw [units_le_units_iff]
  apply (value_ofInt_between (natAbs_lt_of_fits fits) b).2
  rw [← mul_le_mul_iff_left₀ cast_one_pos, ← units_eq]
  exact_mod_cast le

theorem truncate_ofInt (small : i.natAbs ≤ 2 ^ 53) : (ofInt i).truncate = i := by
  rw [truncate, units_ofInt small, Int.mul_tdiv_cancel _ one_units_pos.ne']

theorem truncate_mono {a b : Double} (le : a.units ≤ b.units) : a.truncate ≤ b.truncate :=
  Int.tdiv_le_tdiv one_units_pos le

private theorem truncate_ofInt_le (fits : FitsNumber i) {k : Int} (small : k.natAbs ≤ 2 ^ 53)
    (le : i ≤ k) : (ofInt i).truncate ≤ k := by
  rw [← truncate_ofInt small]
  apply truncate_mono
  apply units_ofInt_le fits
  rw [units_ofInt small]
  exact mul_le_mul_of_nonneg_right le one_units_pos.le

theorem le_truncate_ofInt (fits : FitsNumber i) {k : Int} (small : k.natAbs ≤ 2 ^ 53)
    (le : k ≤ i) : k ≤ (ofInt i).truncate := by
  rw [← truncate_ofInt small]
  apply truncate_mono
  apply le_units_ofInt fits
  rw [units_ofInt small]
  exact mul_le_mul_of_nonneg_right le one_units_pos.le

theorem truncate_ofInt_eq_neg_one_iff (fits : FitsNumber i) :
    (ofInt i).truncate = -1 ↔ i = -1 := by
  constructor
  · intro minus
    by_contra other
    rcases lt_or_ge i 0 with negative | nonneg
    · have below := truncate_ofInt_le fits (k := -2) (by decide) (by omega)
      omega
    · have above := le_truncate_ofInt fits (k := 0) (by decide) nonneg
      omega
  · rintro rfl
    exact truncate_ofInt (by decide)

end Integer

end Double

namespace Decimal

private theorem nearest_natAbs {i : Int} (fits : FitsNumber i) :
    nearest ⟨decide (i < 0), i.natAbs, 0⟩ = some (Double.ofInt i) := by
  have rounded := Double.nearest_natAbs (Double.natAbs_lt_of_fits fits)
  rcases Nat.eq_zero_or_pos i.natAbs with none | positive
  · rw [none, Double.nearest_zero] at rounded
    rw [nearest_of_zero none, rounded]
  · have few : (Digits.ofNat i.natAbs).length ≤ 20 := by
      have small := Double.natAbs_lt_of_fits fits
      have long := (Digits.between_ofNat positive).1
      by_contra many
      have power : 10 ^ 21 ≤ 10 ^ (Digits.ofNat i.natAbs).length :=
        Nat.pow_le_pow_right (by decide) (by omega)
      omega
    have notLarge : ¬ 310 < places ⟨decide (i < 0), i.natAbs, 0⟩ := by
      simp only [places]
      omega
    have notSmall : ¬ places ⟨decide (i < 0), i.natAbs, 0⟩ < -330 := by
      simp only [places]
      omega
    rw [nearest_of_pos positive, if_neg notLarge, if_neg notSmall, ← rounded]
    simp

private theorem takeSign_ofInt (i : Int) :
    takeSign (Digits.ofInt i) = (decide (i < 0), Digits.ofNat i.natAbs) := by
  rw [Digits.ofInt]
  split
  next negative => simp [takeSign, negative]
  next nonneg =>
    rw [decide_eq_false nonneg]
    unfold takeSign
    split
    next text =>
      have digit : Digits.isDigit '-' = true :=
        Digits.isDigit_of_mem_ofNat (text ▸ List.mem_cons_self)
      exact absurd digit (by decide)
    next text =>
      have digit : Digits.isDigit '+' = true :=
        Digits.isDigit_of_mem_ofNat (text ▸ List.mem_cons_self)
      exact absurd digit (by decide)
    next => rfl

private theorem readReal64?_ofInt {i : Int} (fits : FitsNumber i) :
    readReal64? (Digits.ofInt i) = some (.finite (Double.ofInt i)) := by
  have digits : ofUnsigned? (decide (i < 0)) (Digits.ofNat i.natAbs) =
      some ⟨decide (i < 0), i.natAbs, 0⟩ := by
    have noFraction : ∀ c ∈ ([] : List Char), Digits.isDigit c = true := by simp
    have read := ofUnsigned?_numeral (decide (i < 0)) none (Digits.isWhole_ofNat i.natAbs)
      noFraction
    simpa [behindWhole, Digits.value_ofNat] using read
  simp only [readReal64?, takeSign_ofInt, digits, real64, nearest_natAbs fits]

end Decimal

namespace Text

private theorem trimChars_of_not_isBlank {cs : List Char} (h : ∀ c ∈ cs, isBlank c = false) :
    trimChars cs = cs := by
  have start : cs.dropWhile isBlank = cs := by
    rw [List.dropWhile_eq_self_iff]
    intro nonempty
    simp [h cs[0] (List.getElem_mem nonempty)]
  rw [trimChars_eq, start, List.rdropWhile_eq_self_iff]
  intro nonempty
  simp [h _ (List.getLast_mem nonempty)]

private theorem not_isBlank_of_mem_ofInt {i : Int} {c : Char} (h : c ∈ Digits.ofInt i) :
    isBlank c = false := by
  have digit (d : Char) (isDigit : Digits.isDigit d = true) : isBlank d = false := by
    simp only [Digits.isDigit, Bool.and_eq_true, decide_eq_true_eq] at isDigit
    simp only [isBlank, Bool.or_eq_false_iff, Bool.and_eq_false_iff, decide_eq_false_iff_not,
      beq_eq_false_iff_ne]
    omega
  rw [Digits.ofInt] at h
  split at h
  · rcases List.mem_cons.mp h with rfl | mem
    · rfl
    · exact digit c (Digits.isDigit_of_mem_ofNat mem)
  · exact digit c (Digits.isDigit_of_mem_ofNat h)

end Text

namespace Value

private theorem trimChars_intText (i : Int) :
    Text.trimChars (intText i).toList = Digits.ofInt i := by
  rw [intText, String.toList_ofList]
  exact Text.trimChars_of_not_isBlank fun _ => Text.not_isBlank_of_mem_ofInt

theorem float?_intText {i : Int} (fits : FitsNumber i) :
    (str (intText i)).float? = some (Double.ofInt i) := by
  simp only [float?, trimChars_intText, Decimal.readReal64?_ofInt fits, Option.bind_some,
    Real64.finite?]

theorem int?_intText {i : Int} (h : InInt64 i) : (str (intText i)).int? = some i := by
  simp only [int?, trimChars_intText, int64OfText?, Digits.toInt?_ofInt, Option.bind_some, if_pos h]

theorem int?_double (d : Double) : (num (.double d)).int? =
    if d.magnitudeBelow 9223372036854775808 = true then some d.truncate else none := rfl

theorem truncate_of_int? {d : Double} {i : Int} (h : (num (.double d)).int? = some i) :
    d.truncate = i := by
  rw [int?_double] at h
  by_cases below : d.magnitudeBelow 9223372036854775808 = true
  · rw [if_pos below] at h
    exact Option.some.inj h
  · rw [if_neg below] at h
    exact absurd h (Option.some_ne_none i).symm

end Value

end WorkflowGraph
