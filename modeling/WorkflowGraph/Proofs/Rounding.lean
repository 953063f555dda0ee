/- Rounding to doubles: it depends on the quotient alone, and a double's own quotient rounds to it. -/

import Mathlib.Algebra.Order.Field.Power
import Mathlib.Algebra.Order.Field.Rat
import Mathlib.Tactic.FieldSimp
import Mathlib.Tactic.NormNum.Pow
import Mathlib.Tactic.Linarith
import Mathlib.Tactic.Positivity
import Mathlib.Tactic.Ring
import WorkflowGraph.Number.Shortest

set_option autoImplicit false
set_option relaxedAutoImplicit false

namespace WorkflowGraph

theorem zpow_mul_pow_toNat_neg {b : Rat} (hb : b ≠ 0) (e : Int) :
    b ^ e * b ^ (-e).toNat = b ^ e.toNat := by
  rw [← zpow_natCast, ← zpow_natCast, ← zpow_add₀ hb]
  congr 1
  omega

namespace Double

/-- The place of the last of 53 binary digits of a positive number, as far down as doubles go. -/
structure LastPlace (x : Rat) (e : Int) : Prop where
  least : -1074 ≤ e
  below : x < 2 ^ (53 + e)
  above : 2 ^ (52 + e) ≤ x ∨ e = -1074

theorem LastPlace.mono {x y : Rat} {e e' : Int} (h : LastPlace x e) (h' : LastPlace y e')
    (le : x ≤ y) : e ≤ e' := by
  rcases h.above with above | rfl
  · have powers : (2 : Rat) ^ (52 + e) < 2 ^ (53 + e') := (above.trans le).trans_lt h'.below
    have := (zpow_lt_zpow_iff_right₀ (by norm_num)).mp powers
    omega
  · exact h'.least

private theorem LastPlace.unique {x : Rat} {e e' : Int} (h : LastPlace x e) (h' : LastPlace x e') :
    e = e' := le_antisymm (h.mono h' le_rfl) (h'.mono h le_rfl)

private theorem scaled_lt_iff {num den : Nat} (hd : 0 < den) (e : Int) :
    num * Nat.pow 2 (-e).toNat < den * Nat.pow 2 52 * Nat.pow 2 e.toNat ↔
      (num / den : Rat) < 2 ^ (52 + e) := by
  have den_pos : (0 : Rat) < den := by exact_mod_cast hd
  have scale_pos : (0 : Rat) < 2 ^ (-e).toNat := by positivity
  have split : (2 : Rat) ^ e * 2 ^ (-e).toNat = 2 ^ e.toNat :=
    zpow_mul_pow_toNat_neg two_ne_zero e
  have power : (2 : Rat) ^ (52 + e) = 2 ^ 52 * 2 ^ e := by
    rw [zpow_add₀ two_ne_zero]
    norm_cast
  calc num * Nat.pow 2 (-e).toNat < den * Nat.pow 2 52 * Nat.pow 2 e.toNat
      ↔ (num * 2 ^ (-e).toNat : Rat) < den * 2 ^ 52 * 2 ^ e.toNat := by
        simp only [Nat.pow_eq]
        exact_mod_cast Iff.rfl
    _ ↔ (num * 2 ^ (-e).toNat : Rat) < 2 ^ (52 + e) * den * 2 ^ (-e).toNat := by
        rw [← split, power]
        ring_nf
    _ ↔ (num / den : Rat) < 2 ^ (52 + e) := by
        rw [mul_lt_mul_iff_left₀ scale_pos, div_lt_iff₀ den_pos]

private theorem quotient_between {num den : Nat} (hn : 0 < num) (hd : 0 < den) :
    (2 : Rat) ^ ((num.log2 : Int) - den.log2 - 1) ≤ num / den ∧
      (num / den : Rat) < 2 ^ ((num.log2 : Int) - den.log2 + 1) := by
  have den_pos : (0 : Rat) < den := by exact_mod_cast hd
  have low (n : Nat) (h : 0 < n) : (2 : Rat) ^ (n.log2 : Int) ≤ n := by
    rw [zpow_natCast]
    exact_mod_cast Nat.log2_self_le h.ne'
  have high (n : Nat) : (n : Rat) < 2 ^ ((n.log2 : Int) + 1) := by
    have bound : n < 2 ^ (n.log2 + 1) := Nat.lt_log2_self
    exact_mod_cast bound
  constructor
  · rw [le_div_iff₀ den_pos]
    calc (2 : Rat) ^ ((num.log2 : Int) - den.log2 - 1) * den
        ≤ 2 ^ ((num.log2 : Int) - den.log2 - 1) * 2 ^ ((den.log2 : Int) + 1) := by
          gcongr
          exact (high den).le
      _ = 2 ^ (num.log2 : Int) := by
          rw [← zpow_add₀ two_ne_zero]
          congr 1
          omega
      _ ≤ num := low num hn
  · rw [div_lt_iff₀ den_pos]
    calc (num : Rat) < 2 ^ ((num.log2 : Int) + 1) := high num
      _ = 2 ^ ((num.log2 : Int) - den.log2 + 1) * 2 ^ (den.log2 : Int) := by
          rw [← zpow_add₀ two_ne_zero]
          congr 1
          omega
      _ ≤ 2 ^ ((num.log2 : Int) - den.log2 + 1) * den := by
          gcongr
          exact low den hd

private theorem lastPlace_of_between {x : Rat} {e : Int} (low : 2 ^ (52 + e) ≤ x)
    (high : x < 2 ^ (53 + e)) : LastPlace x (max e (-1074)) := by
  have wider : (2 : Rat) ^ (53 + e) ≤ 2 ^ (53 + max e (-1074)) :=
    zpow_le_zpow_right₀ (by norm_num) (by omega)
  refine ⟨le_max_right e (-1074), high.trans_le wider, ?_⟩
  rcases le_total e (-1074) with small | large
  · exact Or.inr (max_eq_right small)
  · rw [max_eq_left large]
    exact Or.inl low

theorem lastPlace_lastPlace {num den : Nat} (hn : 0 < num) (hd : 0 < den) :
    LastPlace (num / den) (lastPlace num den) := by
  obtain ⟨low, high⟩ := quotient_between hn hd
  generalize hg : (num.log2 : Int) - den.log2 - 52 = guess
  have place : lastPlace num den = max (if num * Nat.pow 2 (-guess).toNat <
      den * Nat.pow 2 52 * Nat.pow 2 guess.toNat then guess - 1 else guess) (-1074) := by
    rw [← hg]
    rfl
  rw [place]
  split
  next smaller =>
    apply lastPlace_of_between
    · convert low using 2
      omega
    · convert (scaled_lt_iff hd guess).mp smaller using 2
      omega
  next larger =>
    apply lastPlace_of_between
    · exact not_lt.mp fun smaller => larger ((scaled_lt_iff hd guess).mpr smaller)
    · convert high using 2
      omega

private theorem divideHalfEven_mul_right (num den : Nat) {k : Nat} (hk : 0 < k) :
    divideHalfEven (num * k) (den * k) = divideHalfEven num den := by
  have quotient : num * k / (den * k) = num / den := Nat.mul_div_mul_right num den hk
  have rest : num * k % (den * k) = num % den * k := Nat.mul_mod_mul_right k num den
  have less : 2 * (num % den * k) < den * k ↔ 2 * (num % den) < den := by
    rw [← Nat.mul_assoc]
    exact Nat.mul_lt_mul_right hk
  have half : 2 * (num % den * k) = den * k ↔ 2 * (num % den) = den := by
    rw [← Nat.mul_assoc]
    exact Nat.mul_left_inj hk.ne'
  simp only [divideHalfEven, quotient, rest, less, half]

private theorem divideHalfEven_exact (n : Nat) {den : Nat} (hd : 0 < den) :
    divideHalfEven (n * den) den = n := by
  simp [divideHalfEven, Nat.mul_div_cancel n hd, hd]

/-- The double of a significand and an exponent, if they are canonical. -/
def ofCanonical? (negative : Bool) (significand : Nat) (exponent : Int) : Option Double :=
  if h : CanonicalDouble significand exponent then some ⟨negative, significand, exponent, h⟩
  else none

/-- The double of a rounded significand in its place; rounding up may have given one digit more. -/
def ofRounded (negative : Bool) (significand : Nat) (place : Int) : Option Double :=
  if significand = Nat.pow 2 53 then ofCanonical? negative (Nat.pow 2 52) (place + 1)
  else ofCanonical? negative significand place

private theorem ofRounded_canonical (negative : Bool) {significand : Nat} {place : Int}
    (h : CanonicalDouble significand place) :
    ofRounded negative significand place = some ⟨negative, significand, place, h⟩ := by
  have inside : significand ≠ Nat.pow 2 53 := Nat.ne_of_lt h.1
  rw [ofRounded, if_neg inside]
  exact dif_pos h

theorem nearest_zero (negative : Bool) (den : Nat) :
    nearest negative 0 den = some (zero negative) := rfl

theorem nearest_of_pos (negative : Bool) {num : Nat} (den : Nat) (hn : 0 < num) :
    nearest negative num den = ofRounded negative
      (divideHalfEven (num * Nat.pow 2 (-lastPlace num den).toNat)
        (den * Nat.pow 2 (lastPlace num den).toNat)) (lastPlace num den) := by
  unfold nearest ofRounded
  rw [if_neg hn.ne']
  dsimp -iota only
  generalize lastPlace num den = e
  generalize divideHalfEven (num * Nat.pow 2 (-e).toNat) (den * Nat.pow 2 e.toNat) = q
  -- The cases come before the match on the pair, which is then one of two pairs.
  by_cases full : q = Nat.pow 2 53
  · rw [if_pos full, if_pos full]
    rfl
  · rw [if_neg full, if_neg full]
    rfl

private theorem nearest_mul_right (negative : Bool) (num : Nat) {den k : Nat} (hd : 0 < den)
    (hk : 0 < k) : nearest negative (num * k) (den * k) = nearest negative num den := by
  rcases Nat.eq_zero_or_pos num with rfl | hn
  · rw [Nat.zero_mul, nearest_zero, nearest_zero]
  · have same : (((num * k : Nat) : Rat) / ((den * k : Nat) : Rat)) = num / den := by
      push_cast
      rw [mul_div_mul_right]
      exact_mod_cast hk.ne'
    have place : lastPlace (num * k) (den * k) = lastPlace num den := by
      have scaled := lastPlace_lastPlace (Nat.mul_pos hn hk) (Nat.mul_pos hd hk)
      rw [same] at scaled
      exact scaled.unique (lastPlace_lastPlace hn hd)
    have swap (a b : Nat) : a * k * b = a * b * k := Nat.mul_right_comm a k b
    rw [nearest_of_pos negative _ (Nat.mul_pos hn hk), nearest_of_pos negative _ hn, place, swap,
      swap, divideHalfEven_mul_right _ _ hk]

theorem nearest_congr (negative : Bool) {num den num' den' : Nat} (hd : 0 < den) (hd' : 0 < den')
    (same : (num / den : Rat) = num' / den') :
    nearest negative num den = nearest negative num' den' := by
  have den_ne : (den : Rat) ≠ 0 := by exact_mod_cast hd.ne'
  have den_ne' : (den' : Rat) ≠ 0 := by exact_mod_cast hd'.ne'
  have cross : num * den' = num' * den := by
    rw [div_eq_div_iff den_ne den_ne'] at same
    exact_mod_cast same
  calc nearest negative num den
      = nearest negative (num * den') (den * den') := (nearest_mul_right negative num hd hd').symm
    _ = nearest negative (num' * den) (den' * den) := by rw [cross, Nat.mul_comm den]
    _ = nearest negative num' den' := nearest_mul_right negative num' hd' hd

def withSign (negative : Bool) (d : Double) : Double :=
  ⟨negative, d.significand, d.exponent, d.canonical⟩

private theorem ofCanonical?_withSign (negative : Bool) (significand : Nat) (exponent : Int) :
    ofCanonical? negative significand exponent =
      (ofCanonical? false significand exponent).map (withSign negative) := by
  by_cases h : CanonicalDouble significand exponent
  · rw [ofCanonical?, ofCanonical?, dif_pos h, dif_pos h]
    rfl
  · rw [ofCanonical?, ofCanonical?, dif_neg h, dif_neg h]
    rfl

theorem nearest_withSign (negative : Bool) (num den : Nat) :
    nearest negative num den = (nearest false num den).map (withSign negative) := by
  rcases Nat.eq_zero_or_pos num with rfl | hn
  · rfl
  · rw [nearest_of_pos _ _ hn, nearest_of_pos _ _ hn, ofRounded, ofRounded]
    split
    · exact ofCanonical?_withSign negative _ _
    · exact ofCanonical?_withSign negative _ _

theorem negative_of_nearest {negative : Bool} {num den : Nat} {d : Double}
    (h : nearest negative num den = some d) : d.negative = negative := by
  rw [nearest_withSign] at h
  obtain ⟨e, -, rfl⟩ := Option.map_eq_some_iff.mp h
  rfl

theorem not_less_zero_ofInt (n : Nat) : (ofInt n).less (zero false) = false := by
  have sign : (ofInt n).negative = false := by
    unfold ofInt
    cases h : nearest ((n : Int) < 0) (n : Int).natAbs 1 with
    | none => rfl
    | some d =>
      have nonneg : ¬(n : Int) < 0 := by omega
      exact (negative_of_nearest h).trans (decide_eq_false nonneg)
  have units_zero : (zero false).units = 0 := by simp [units, zero]
  have units_nonneg : 0 ≤ (ofInt n).units := by
    rw [units, sign]
    exact Int.natCast_nonneg _
  rw [less, units_zero]
  simpa using units_nonneg

def magnitude (d : Double) : Rat := d.significand * 2 ^ d.exponent

theorem ratio_pos (d : Double) : 0 < d.ratio.2 := Nat.pow_pos (by decide)

theorem ratio_eq (d : Double) : (d.ratio.1 / d.ratio.2 : Rat) = d.magnitude := by
  have scale_ne : (2 : Rat) ^ (-d.exponent).toNat ≠ 0 := by positivity
  have split := zpow_mul_pow_toNat_neg (b := 2) two_ne_zero d.exponent
  simp only [ratio, magnitude, Nat.pow_eq]
  push_cast
  rw [← split, div_eq_iff scale_ne]
  ring

theorem lastPlace_magnitude (d : Double) : LastPlace d.magnitude d.exponent := by
  obtain ⟨small, least, -, large⟩ := d.canonical
  have power_pos : (0 : Rat) < 2 ^ d.exponent := by positivity
  have split (n : Int) : (2 : Rat) ^ (n + d.exponent) = 2 ^ n * 2 ^ d.exponent :=
    zpow_add₀ two_ne_zero n d.exponent
  refine ⟨least, ?_, large.imp_left fun large => ?_⟩
  · rw [magnitude, split, mul_lt_mul_iff_left₀ power_pos]
    exact_mod_cast small
  · rw [magnitude, split, mul_le_mul_iff_left₀ power_pos]
    exact_mod_cast large

theorem nearest_of_magnitude (negative : Bool) {num den : Nat} (hd : 0 < den) (d : Double)
    (same : (num / den : Rat) = d.magnitude) :
    nearest negative num den = some (d.withSign negative) := by
  rw [← d.ratio_eq] at same
  rw [nearest_congr negative hd d.ratio_pos same]
  rcases Nat.eq_zero_or_pos d.significand with none | positive
  · obtain ⟨-, -, -, large⟩ := d.canonical
    have least : d.exponent = -1074 := by omega
    have num_zero : d.ratio.1 = 0 := by rw [ratio, none, Nat.zero_mul]
    rw [num_zero, nearest_zero]
    simp only [zero, withSign, none, least]
  · have num_pos : 0 < d.ratio.1 := Nat.mul_pos positive (Nat.pow_pos (by decide))
    have place : lastPlace d.ratio.1 d.ratio.2 = d.exponent := by
      have found := lastPlace_lastPlace num_pos d.ratio_pos
      rw [ratio_eq] at found
      exact found.unique d.lastPlace_magnitude
    have swap : d.ratio.1 * Nat.pow 2 (-d.exponent).toNat =
        d.significand * (d.ratio.2 * Nat.pow 2 d.exponent.toNat) := by
      simp only [ratio, Nat.mul_assoc, Nat.mul_comm]
    have scale_pos : 0 < d.ratio.2 * Nat.pow 2 d.exponent.toNat :=
      Nat.mul_pos d.ratio_pos (Nat.pow_pos (by decide))
    rw [nearest_of_pos _ _ num_pos, place, swap, divideHalfEven_exact _ scale_pos,
      ofRounded_canonical negative d.canonical]
    rfl

private theorem magnitude_lt (d : Double) : d.magnitude < 2 ^ (1024 : Int) := by
  obtain ⟨small, -, greatest, -⟩ := d.canonical
  have significand_lt : (d.significand : Rat) < 2 ^ (53 : Int) := by exact_mod_cast small
  calc d.magnitude < 2 ^ (53 : Int) * 2 ^ d.exponent := by
        rw [magnitude]
        gcongr
    _ = 2 ^ (53 + d.exponent) := (zpow_add₀ two_ne_zero 53 d.exponent).symm
    _ ≤ 2 ^ (1024 : Int) := zpow_le_zpow_right₀ (by norm_num) (by omega)

private theorem le_magnitude {d : Double} (positive : 0 < d.significand) :
    (2 : Rat) ^ (-1074 : Int) ≤ d.magnitude := by
  obtain ⟨-, least, -, -⟩ := d.canonical
  have one_le : (1 : Rat) ≤ d.significand := by exact_mod_cast positive
  calc (2 : Rat) ^ (-1074 : Int) ≤ 2 ^ d.exponent := zpow_le_zpow_right₀ (by norm_num) least
    _ = 1 * 2 ^ d.exponent := (one_mul _).symm
    _ ≤ d.magnitude := by
        rw [magnitude]
        gcongr

end Double

namespace Digits

theorem between_ofNat {n : Nat} (h : 0 < n) :
    10 ^ (ofNat n).length ≤ 10 * n ∧ n < 10 ^ (ofNat n).length := by
  induction n using Nat.strongRecOn with
  | ind n ih =>
    rw [ofNat]
    split
    next small =>
      rw [List.length_singleton]
      omega
    next large =>
      obtain ⟨low, high⟩ := ih (n / 10) (by omega) (by omega)
      rw [List.length_append, List.length_singleton, Nat.pow_succ]
      omega

end Digits

namespace Decimal

def magnitude (d : Decimal) : Rat := d.coefficient * 10 ^ d.exponent

def places (d : Decimal) : Int := (Digits.ofNat d.coefficient).length + d.exponent

theorem nearest_of_zero {d : Decimal} (h : d.coefficient = 0) :
    d.nearest = some (Double.zero d.negative) := if_pos h

theorem nearest_of_pos {d : Decimal} (h : 0 < d.coefficient) :
    d.nearest = if 310 < d.places then none
      else if d.places < -330 then some (Double.zero d.negative)
      else Double.nearest d.negative (d.coefficient * Nat.pow 10 d.exponent.toNat)
        (Nat.pow 10 (-d.exponent).toNat) := if_neg h.ne'

private theorem magnitude_between {d : Decimal} (h : 0 < d.coefficient) :
    10 ^ d.places ≤ 10 * d.magnitude ∧ d.magnitude < 10 ^ d.places := by
  obtain ⟨low, high⟩ := Digits.between_ofNat h
  have power_pos : (0 : Rat) < 10 ^ d.exponent := by positivity
  have split : (10 : Rat) ^ d.places =
      10 ^ (Digits.ofNat d.coefficient).length * 10 ^ d.exponent := by
    rw [places, zpow_add₀ (by norm_num), zpow_natCast]
  rw [split, magnitude, ← mul_assoc, mul_le_mul_iff_left₀ power_pos,
    mul_lt_mul_iff_left₀ power_pos]
  exact_mod_cast And.intro low high

private theorem places_le {d d' : Decimal} (h : 0 < d.coefficient) (h' : 0 < d'.coefficient)
    (le : d.magnitude ≤ d'.magnitude) : d.places ≤ d'.places := by
  have powers : (10 : Rat) ^ d.places < 10 ^ (d'.places + 1) := by
    have low := (magnitude_between h).1
    have high := (magnitude_between h').2
    rw [zpow_add_one₀ (by norm_num)]
    linarith
  have := (zpow_lt_zpow_iff_right₀ (by norm_num)).mp powers
  omega

theorem ten_pos (n : Nat) : 0 < Nat.pow 10 n := Nat.pow_pos (by decide)

private theorem ratio_eq (d : Decimal) :
    ((d.coefficient * Nat.pow 10 d.exponent.toNat : Nat) : Rat) /
      (Nat.pow 10 (-d.exponent).toNat : Nat) = d.magnitude := by
  have scale_ne : (10 : Rat) ^ (-d.exponent).toNat ≠ 0 := by positivity
  have split := zpow_mul_pow_toNat_neg (b := 10) (by norm_num) d.exponent
  simp only [Nat.pow_eq, magnitude]
  push_cast
  rw [← split, div_eq_iff scale_ne]
  ring

private theorem magnitude_eq_zero_iff (d : Decimal) : d.magnitude = 0 ↔ d.coefficient = 0 := by
  have power_ne : (10 : Rat) ^ d.exponent ≠ 0 := by positivity
  rw [magnitude, mul_eq_zero, or_iff_left power_ne]
  exact Nat.cast_eq_zero

theorem nearest_congr {d d' : Decimal} (sign : d.negative = d'.negative)
    (same : d.magnitude = d'.magnitude) : d.nearest = d'.nearest := by
  rcases Nat.eq_zero_or_pos d.coefficient with none | positive
  · have none' : d'.coefficient = 0 := by
      rw [← magnitude_eq_zero_iff, ← same, magnitude_eq_zero_iff, none]
    rw [nearest_of_zero none, nearest_of_zero none', sign]
  · have positive' : 0 < d'.coefficient := by
      rw [Nat.pos_iff_ne_zero, ne_eq, ← magnitude_eq_zero_iff, ← same, magnitude_eq_zero_iff]
      omega
    have places : d.places = d'.places :=
      le_antisymm (places_le positive positive' same.le) (places_le positive' positive same.ge)
    have rounded := Double.nearest_congr d'.negative (ten_pos _) (ten_pos _)
      (d.ratio_eq.trans (same.trans d'.ratio_eq.symm))
    rw [nearest_of_pos positive, nearest_of_pos positive', places, sign, rounded]

theorem nearest_withSign (negative : Bool) (coefficient : Nat) (exponent : Int) :
    nearest ⟨negative, coefficient, exponent⟩ =
      (nearest ⟨false, coefficient, exponent⟩).map (Double.withSign negative) := by
  rcases Nat.eq_zero_or_pos coefficient with rfl | positive
  · rfl
  · have places : places ⟨negative, coefficient, exponent⟩ =
        places ⟨false, coefficient, exponent⟩ := rfl
    rw [nearest_of_pos positive, nearest_of_pos positive, places]
    split_ifs
    · rfl
    · rfl
    · exact Double.nearest_withSign negative _ _

theorem nearest_of_magnitude {d : Decimal} {x : Double} (same : d.magnitude = x.magnitude) :
    d.nearest = some (x.withSign d.negative) := by
  have rounded : Double.nearest d.negative (d.coefficient * Nat.pow 10 d.exponent.toNat)
      (Nat.pow 10 (-d.exponent).toNat) = some (x.withSign d.negative) :=
    Double.nearest_of_magnitude d.negative (ten_pos _) x (d.ratio_eq.trans same)
  rcases Nat.eq_zero_or_pos d.coefficient with none | positive
  · rw [none, Nat.zero_mul, Double.nearest_zero] at rounded
    rw [nearest_of_zero none, rounded]
  · obtain ⟨low, high⟩ := magnitude_between positive
    have significand_pos : 0 < x.significand := by
      rw [Nat.pos_iff_ne_zero]
      intro none
      have zero : x.magnitude = 0 := by rw [Double.magnitude, none, Nat.cast_zero, zero_mul]
      rw [← same, magnitude_eq_zero_iff] at zero
      omega
    have notLarge : ¬ 310 < d.places := by
      have powers : (10 : Rat) ^ d.places < 10 ^ (309 + 1 : Int) :=
        calc (10 : Rat) ^ d.places ≤ 10 * x.magnitude := same ▸ low
          _ < 10 * 2 ^ (1024 : Int) := by
              gcongr
              exact x.magnitude_lt
          _ ≤ 10 * 10 ^ (309 : Int) := by
              have bound : 2 ^ 1024 ≤ 10 ^ 309 := by decide +kernel
              gcongr
              exact_mod_cast bound
          _ = 10 ^ (309 + 1 : Int) := by rw [zpow_add_one₀ (by norm_num), mul_comm]
      have := (zpow_lt_zpow_iff_right₀ (by norm_num)).mp powers
      omega
    have notSmall : ¬ d.places < -330 := by
      have powers : (10 : Rat) ^ (-330 : Int) < 10 ^ d.places :=
        calc (10 : Rat) ^ (-330 : Int) ≤ 2 ^ (-1074 : Int) := by
              have bound : 2 ^ 1074 ≤ 10 ^ 330 := by decide +kernel
              rw [zpow_neg, zpow_neg]
              apply inv_anti₀ (by positivity)
              exact_mod_cast bound
          _ ≤ x.magnitude := Double.le_magnitude significand_pos
          _ < 10 ^ d.places := same ▸ high
      have := (zpow_lt_zpow_iff_right₀ (by norm_num)).mp powers
      omega
    rw [nearest_of_pos positive, if_neg notLarge, if_neg notSmall, rounded]

end Decimal

end WorkflowGraph
