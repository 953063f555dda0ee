/- Short decimals: numerals of few digits read as the nearest double, and doubles of few digits as
themselves. -/

import WorkflowGraph.Proofs.IntegerRounding
import WorkflowGraph.Proofs.JsonTexts

set_option autoImplicit false
set_option relaxedAutoImplicit false

/-!
The words up to `2 ^ 53` are doubles, and so are the powers of ten up to `10 ^ 22`. With no more than
that, a numeral is rounded once: when its digits are multiplied with the power of ten or divided by
it. So it is read as the nearest double, and the text of a short double as the double.
-/

namespace WorkflowGraph

namespace Double

variable {a b d : Double}

private theorem times_eq_nearest {num den : Nat} (hd : 0 < den)
    (same : a.magnitude * b.magnitude = num / den) :
    a.times b = nearest (a.negative != b.negative) num den := by
  apply nearest_congr _ (Nat.mul_pos a.ratio_pos b.ratio_pos) hd
  push_cast
  rw [mul_div_mul_comm, ratio_eq, ratio_eq, same]

private theorem dividedBy_eq_nearest {num den : Nat} (hd : 0 < den) (positive : 0 < b.ratio.1)
    (same : a.magnitude / b.magnitude = num / den) :
    a.dividedBy b = nearest (a.negative != b.negative) num den := by
  apply nearest_congr _ (Nat.mul_pos a.ratio_pos positive) hd
  push_cast
  rw [← div_div_div_eq, ratio_eq, ratio_eq, same]

private theorem ratio_tenPower {k : Nat} (small : k ≤ 22) :
    (tenPower k).ratio.1 = 10 ^ k * (tenPower k).ratio.2 := by
  have all : ∀ k ≤ 22, (tenPower k).ratio.1 = 10 ^ k * (tenPower k).ratio.2 := by decide +kernel
  exact all k small

private theorem magnitude_tenPower {k : Nat} (small : k ≤ 22) :
    (tenPower k).magnitude = 10 ^ k := by
  have den_ne : ((tenPower k).ratio.2 : Rat) ≠ 0 := by exact_mod_cast (ratio_pos _).ne'
  rw [← ratio_eq, ratio_tenPower small]
  push_cast
  exact mul_div_cancel_right₀ _ den_ne

private theorem negative_tenPower (k : Nat) : (tenPower k).negative = false := by
  unfold tenPower
  cases found : nearest false (Nat.pow 10 k) 1 with
  | none => rfl
  | some d => exact negative_of_nearest found

private theorem scaleByTen_eq_nearest {word : Nat} (whole : d.magnitude = word) {e : Int}
    (small : e.natAbs ≤ 22) : d.scaleByTen e =
      nearest d.negative (word * Nat.pow 10 e.toNat) (Nat.pow 10 (-e).toNat) := by
  have sign (k : Nat) : (d.negative != (tenPower k).negative) = d.negative := by
    rw [negative_tenPower, Bool.bne_false]
  unfold scaleByTen
  split
  next nonneg =>
    have below : e ≤ maxPower := by
      unfold maxPower
      omega
    have none : (-e).toNat = 0 := by omega
    have product : d.magnitude * (tenPower e.toNat).magnitude =
        (word * Nat.pow 10 e.toNat : Nat) / (1 : Nat) := by
      rw [whole, magnitude_tenPower (by omega)]
      simp
    rw [if_pos below, none, times_eq_nearest one_pos product, sign]
    rfl
  next negative =>
    have once : (e.natAbs - 1) / maxPower = 0 := Nat.div_eq_of_lt (by unfold maxPower; omega)
    have none : e.toNat = 0 := by omega
    have size : e.natAbs = (-e).toNat := by omega
    have positive : 0 < (tenPower (-e).toNat).ratio.1 := by
      rw [ratio_tenPower (by omega)]
      exact Nat.mul_pos (Nat.pow_pos (by decide)) (ratio_pos _)
    simp only [once, Nat.mul_zero, Nat.sub_zero, shrink, Option.bind_some]
    have quotient : d.magnitude / (tenPower (-e).toNat).magnitude =
        (word * Nat.pow 10 0 : Nat) / (Nat.pow 10 (-e).toNat : Nat) := by
      rw [whole, magnitude_tenPower (by omega)]
      simp
    rw [size, none, dividedBy_eq_nearest (Decimal.ten_pos _) positive quotient, sign]

private theorem exists_nearest_word (negative : Bool) {word : Nat} (few : word ≤ 2 ^ 53) :
    ∃ d, nearest negative word 1 = some d ∧ d.negative = negative ∧ d.magnitude = word := by
  have rounded : nearest false word 1 = some (ofInt word) := by
    have nonneg : decide ((word : Int) < 0) = false := by simp
    simpa [nonneg] using nearest_natAbs (i := word) (few.trans_lt (by decide))
  refine ⟨(ofInt word).withSign negative, ?_, rfl, magnitude_ofInt (i := word) few⟩
  rw [nearest_withSign, rounded, Option.map_some]

end Double

namespace Decimal

private theorem nearest_of_few {negative : Bool} {c : Nat} {e : Int} (few : c ≤ 2 ^ 53)
    (small : e.natAbs ≤ 22) : nearest ⟨negative, c, e⟩ =
      Double.nearest negative (c * Nat.pow 10 e.toNat) (Nat.pow 10 (-e).toNat) := by
  rcases Nat.eq_zero_or_pos c with rfl | positive
  · rw [Nat.zero_mul, Double.nearest_zero]
    rfl
  · have digits : (Digits.ofNat c).length ≤ 17 := by
      have long := (Digits.between_ofNat positive).1
      by_contra many
      have power : 10 ^ 18 ≤ 10 ^ (Digits.ofNat c).length :=
        Nat.pow_le_pow_right (by decide) (by omega)
      omega
    have notLarge : ¬ 310 < places ⟨negative, c, e⟩ := by
      simp only [places]
      omega
    have notSmall : ¬ places ⟨negative, c, e⟩ < -330 := by
      simp only [places]
      omega
    rw [nearest_of_pos positive, if_neg notLarge, if_neg notSmall]

end Decimal

namespace Json

private theorem takeDigits_of_lt {word : Nat} {cs : List Char}
    (small : cs.foldl (fun acc c => 10 * acc + Digits.digitValue c) word < wordBound) :
    takeDigits word cs =
      (cs.foldl (fun acc c => 10 * acc + Digits.digitValue c) word, cs.length) := by
  have grows (cs : List Char) (word : Nat) :
      word ≤ cs.foldl (fun acc c => 10 * acc + Digits.digitValue c) word := by
    induction cs generalizing word with
    | nil => exact le_rfl
    | cons c cs ih =>
      have next : word ≤ 10 * word + Digits.digitValue c := by omega
      exact next.trans (ih _)
  induction cs generalizing word with
  | nil => rfl
  | cons c cs ih =>
    have next : 10 * word + Digits.digitValue c < wordBound := (grows cs _).trans_lt small
    rw [takeDigits, if_pos next, ih small]
    rfl

/-- A numeral of few digits reads as the nearest double. -/
theorem doubleOfParts?_eq_nearest (negative : Bool) {whole fraction : List Char} (power : Int)
    (few : Digits.value (whole ++ fraction) ≤ 2 ^ 53)
    (small : (power - fraction.length).natAbs ≤ 22) :
    doubleOfParts? negative whole fraction power =
      Decimal.nearest ⟨negative, Digits.value (whole ++ fraction), power - fraction.length⟩ := by
  have wide : 2 ^ 53 < wordBound := by decide
  have behind : takeDigits (Digits.value whole) fraction =
      (Digits.value (whole ++ fraction), fraction.length) := by
    rw [Digits.value, Digits.value, List.foldl_append]
    apply takeDigits_of_lt
    rw [← List.foldl_append]
    exact few.trans_lt wide
  have before : takeDigits 0 whole = (Digits.value whole, whole.length) := by
    apply takeDigits_of_lt
    have shorter : Digits.value whole ≤ Digits.value (whole ++ fraction) := by
      rw [Digits.value_append]
      exact le_add_right (Nat.le_mul_of_pos_right _ (Nat.pow_pos (by decide)))
    exact shorter.trans_lt (few.trans_lt wide)
  have place : power + (whole.length - whole.length : Nat) - (fraction.length : Int) =
      power - fraction.length := by omega
  -- the word is a double, so it is the magnitude that is scaled
  obtain ⟨d, rounded, sign, size⟩ := Double.exists_nearest_word negative few
  simp only [doubleOfParts?, before, behind, place, rounded, Option.bind_some]
  rw [Double.scaleByTen_eq_nearest size small, Decimal.nearest_of_few few small, sign]

end Json

/-- A double with so few digits is what its text reads as. -/
theorem Double.survives_of_few_digits {d : Double} {ds : List Char} {e : Int}
    (digits : FloatLayout.json.digits d = (ds, e)) (few : ds.length + e.toNat < 15)
    (small : -22 ≤ e) : (Number.double d).Survives := by
  obtain ⟨ds', e', k, body, digits', decimal, written, zeros, spelt, reads⟩ :=
    FloatLayout.exists_write d
  obtain ⟨rfl, rfl⟩ := Prod.mk.inj (digits.symm.trans digits')
  obtain ⟨whole, fraction, power, rfl, hw, hf, some, value, place⟩ := spelt
  have word : Digits.value (whole ++ fraction) ≤ 2 ^ 53 :=
    calc Digits.value (whole ++ fraction) = Digits.value ds * 10 ^ k := value
      _ ≤ 10 ^ ds.length * 10 ^ k := Nat.mul_le_mul_right _ (Digits.value_lt decimal.digits).le
      _ = 10 ^ (ds.length + k) := (Nat.pow_add ..).symm
      _ ≤ 10 ^ 15 := Nat.pow_le_pow_right (by decide) (by omega)
      _ ≤ 2 ^ 53 := by decide
  have read := Json.doubleOfParts?_eq_nearest d.negative (power.getD 0) word (by omega)
  rw [Number.Survives, Number.reread?, Json.writeNumber, written,
    Json.numberOfText?_numeral d.negative hw hf some, read, value, place,
    Double.nearest_of_readsBack reads]
  rfl

end WorkflowGraph
