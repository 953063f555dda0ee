/- Numbers as texts: the numerals that are written, and what they are the nearest double of. -/

import WorkflowGraph.Json.Printer
import WorkflowGraph.Json.Token
import WorkflowGraph.Proofs.Rounding

set_option autoImplicit false
set_option relaxedAutoImplicit false

namespace WorkflowGraph

namespace Double

variable {d : Double}

private theorem readsBack_iff {c : Nat} {e : Int} :
    readsBack d c e = true ↔ Decimal.nearest ⟨false, c, e⟩ = some (d.withSign false) := by
  have sign := Decimal.nearest_withSign false c e
  rw [readsBack]
  cases found : Decimal.nearest ⟨false, c, e⟩ with
  | none => simp
  | some x =>
    rw [found, Option.map_some, Option.some.injEq] at sign
    simp only [Option.some.injEq]
    rw [sign]
    simp [withSign]

theorem nearest_of_readsBack {c : Nat} {e : Int} (h : readsBack d c e = true) (negative : Bool) :
    Decimal.nearest ⟨negative, c, e⟩ = some (d.withSign negative) := by
  rw [Decimal.nearest_withSign, readsBack_iff.mp h]
  rfl

private theorem readsBack_congr {c c' : Nat} {e e' : Int}
    (same : (c * 10 ^ e : Rat) = c' * 10 ^ e') : readsBack d c e = readsBack d c' e' := by
  have rounded : Decimal.nearest ⟨false, c, e⟩ = Decimal.nearest ⟨false, c', e'⟩ :=
    Decimal.nearest_congr rfl same
  rw [readsBack, readsBack, rounded]

private theorem readsBack_of_magnitude {c : Nat} {e : Int}
    (same : (c * 10 ^ e : Rat) = d.magnitude) :
    readsBack d c e = true :=
  readsBack_iff.mpr (Decimal.nearest_of_magnitude same)

private theorem readsBack_expansion (d : Double) :
    readsBack d d.expansion.1 d.expansion.2 = true := by
  apply readsBack_of_magnitude
  unfold expansion
  split
  next large =>
    have power : (2 : Rat) ^ d.exponent = 2 ^ d.exponent.toNat := by
      rw [← zpow_natCast, Int.toNat_of_nonneg large]
    simp [magnitude, power]
  next small =>
    have fives : (5 : Rat) ^ d.exponent * 5 ^ (-d.exponent).toNat = 1 := by
      have none : d.exponent.toNat = 0 := by omega
      rw [zpow_mul_pow_toNat_neg (by norm_num), none, pow_zero]
    have tens : (10 : Rat) ^ d.exponent = 2 ^ d.exponent * 5 ^ d.exponent := by
      rw [← mul_zpow]
      norm_num
    calc ((d.significand * Nat.pow 5 (-d.exponent).toNat : Nat) * 10 ^ d.exponent : Rat)
        = d.significand * 2 ^ d.exponent * (5 ^ d.exponent * 5 ^ (-d.exponent).toNat) := by
          simp only [Nat.pow_eq, tens]
          push_cast
          ring
      _ = d.magnitude := by rw [fives, mul_one, magnitude]

private theorem readsBack_of_onGrid? {tie : Tie} {e : Int} {c : Nat}
    (h : onGrid? tie d e = some c) :
    readsBack d c e = true := by
  unfold onGrid? at h
  split at h
  next num den ratio =>
    dsimp only at h
    generalize num * Nat.pow 10 (-e).toNat / (den * Nat.pow 10 e.toNat) = low at h
    split at h
    next below above =>
      cases h
      exact below
    next below above =>
      cases h
      exact above
    next => exact nomatch h
    next below above =>
      -- Both neighbours read back, so it does not matter which one is the nearer.
      have either : c = low ∨ c = low + 1 := by
        cases tie <;> split_ifs at h <;> cases h <;> simp
      rcases either with rfl | rfl
      · exact below
      · exact above

private theorem readsBack_searchGrids (tie : Tie) (steps : Nat) (e : Int) :
    readsBack d (searchGrids tie d steps e).1 (searchGrids tie d steps e).2 = true := by
  induction steps generalizing e with
  | zero => exact readsBack_expansion d
  | succ steps ih =>
    rw [searchGrids]
    cases found : onGrid? tie d e with
    | none => exact ih (e - 1)
    | some c => exact readsBack_of_onGrid? found

private theorem readsBack_shortest (tie : Tie) (d : Double) :
    readsBack d (d.shortest tie).1 (d.shortest tie).2 = true := by
  rw [shortest]
  split
  next none =>
    apply readsBack_of_magnitude
    simp [magnitude, none]
  next some => exact readsBack_searchGrids tie 17 _

end Double

namespace Digits

theorem value_append (xs ys : List Char) :
    value (xs ++ ys) = value xs * 10 ^ ys.length + value ys := by
  induction ys using List.reverseRecOn with
  | nil => simp [value]
  | append_singleton ys c ih =>
    rw [← List.append_assoc, value_append_singleton, value_append_singleton, ih,
      List.length_append, List.length_singleton, Nat.pow_succ]
    ring

theorem value_lt {cs : List Char} (digits : ∀ c ∈ cs, isDigit c = true) :
    value cs < 10 ^ cs.length := by
  induction cs using List.reverseRecOn with
  | nil => exact Nat.one_pos
  | append_singleton cs c ih =>
    have before := ih fun x hx => digits x (List.mem_append_left [c] hx)
    have last := digits c (by simp)
    simp only [isDigit, Bool.and_eq_true, decide_eq_true_eq] at last
    rw [value_append_singleton, digitValue, List.length_append, List.length_singleton,
      Nat.pow_succ]
    omega

private theorem value_zeros (k : Nat) : value (List.replicate k '0') = 0 := by
  induction k with
  | zero => rfl
  | succ k ih =>
    rw [List.replicate_succ', value_append_singleton, ih]
    rfl

/-- Digits that may stand before a point: at least one, and a zero in front only alone. -/
structure IsWhole (cs : List Char) : Prop where
  digits : ∀ c ∈ cs, isDigit c = true
  ne_nil : cs ≠ []
  lead : cs.head? = some '0' → cs = ['0']

private theorem IsWhole.of_append {xs ys : List Char} (h : IsWhole (xs ++ ys)) (some : xs ≠ []) :
    IsWhole xs where
  digits c hc := h.digits c (List.mem_append_left ys hc)
  ne_nil := some
  lead zero := by
    obtain ⟨c, cs, rfl⟩ := List.exists_cons_of_ne_nil some
    have alone : c :: cs ++ ys = ['0'] := h.lead zero
    obtain ⟨rfl, rest⟩ := List.cons.inj alone
    rw [(List.append_eq_nil_iff.mp rest).1]

private theorem IsWhole.append {xs ys : List Char} (h : IsWhole xs)
    (more : ∀ c ∈ ys, isDigit c = true) (nonzero : xs ≠ ['0']) : IsWhole (xs ++ ys) where
  digits c hc := (List.mem_append.mp hc).elim (h.digits c) (more c)
  ne_nil := List.append_ne_nil_of_left_ne_nil h.ne_nil ys
  lead zero := by
    rw [List.head?_append_of_ne_nil _ h.ne_nil] at zero
    exact absurd (h.lead zero) nonzero

private theorem isWhole_zero : IsWhole ['0'] :=
  ⟨by simp [isDigit], List.cons_ne_nil _ _, fun _ => rfl⟩

theorem isWhole_ofNat (n : Nat) : IsWhole (ofNat n) where
  digits _ hc := isDigit_of_mem_ofNat hc
  ne_nil := ofNat_ne_nil n
  lead := by
    induction n using Nat.strongRecOn with
    | ind n ih =>
      rw [ofNat]
      split
      next small => simp
      next large =>
        intro zero
        rw [List.head?_append_of_ne_nil _ (ofNat_ne_nil _)] at zero
        have none : n / 10 = 0 := by
          have := value_ofNat (n / 10)
          rw [ih (n / 10) (by omega) zero] at this
          exact this.symm
        omega

end Digits

private theorem scaled_by_ten (c k : Nat) (e : Int) :
    ((c * 10 ^ k : Nat) * 10 ^ e : Rat) = c * 10 ^ (e + k) := by
  rw [zpow_add₀ (by norm_num), zpow_natCast]
  push_cast
  ring

namespace FloatLayout

private theorem dropZeros_spec (ds : List Char) (e : Int) : ∃ k : Nat,
    ds = List.replicate k '0' ++ (dropZeros ds e).1 ∧ (dropZeros ds e).2 = e + k := by
  induction ds, e using dropZeros.induct with
  | case1 e more ih =>
    obtain ⟨k, split, place⟩ := ih
    refine ⟨k + 1, ?_, ?_⟩
    · rw [dropZeros, List.replicate_succ, List.cons_append, ← split]
    · rw [dropZeros, place]
      omega
  | case2 ds e other =>
    refine ⟨0, ?_, ?_⟩ <;> simp [dropZeros]

private theorem digits_spec (layout : FloatLayout) (d : Double) :
    ∃ ds e, layout.digits d = (ds, e) ∧
    Digits.IsWhole ds ∧ Double.readsBack d (Digits.value ds) e = true ∧ (ds = ['0'] → e = 0) := by
  have reads := Double.readsBack_shortest layout.tie d
  rcases found : d.shortest layout.tie with ⟨c, e⟩
  rw [found] at reads
  rw [digits, found]
  rcases Nat.eq_zero_or_pos c with rfl | positive
  · refine ⟨['0'], 0, rfl, Digits.isWhole_zero, ?_, fun _ => rfl⟩
    rw [← reads]
    apply Double.readsBack_congr
    simp [Digits.value, Digits.digitValue]
  · obtain ⟨k, split, place⟩ := dropZeros_spec (Digits.ofNat c).reverse e
    obtain ⟨⟨kept, last⟩, dropped⟩ : ∃ p, dropZeros (Digits.ofNat c).reverse e = p := ⟨_, rfl⟩
    rw [dropped] at split place
    dsimp only at split place
    have written : Digits.ofNat c = kept.reverse ++ List.replicate k '0' := by
      rw [← List.reverse_inj, split, List.reverse_append, List.reverse_replicate,
        List.reverse_reverse]
    have value : c = Digits.value kept.reverse * 10 ^ k := by
      rw [← Digits.value_ofNat c, written, Digits.value_append, Digits.value_zeros,
        List.length_replicate, Nat.add_zero]
    have some : Digits.value kept.reverse ≠ 0 := by
      intro none
      rw [none, Nat.zero_mul] at value
      omega
    refine ⟨kept.reverse, last, ?_, ?_, ?_, ?_⟩
    · simp only [positive.ne', if_false, dropped]
    · apply Digits.IsWhole.of_append (written ▸ Digits.isWhole_ofNat c)
      rintro none
      exact some (congrArg Digits.value none)
    · rw [← reads]
      apply Double.readsBack_congr
      rw [place, ← scaled_by_ten, ← value]
    · intro zero
      exact absurd (congrArg Digits.value zero) some

end FloatLayout

def powerText (e : Int) : List Char :=
  'e' :: (if e < 0 then '-' else '+') :: Digits.ofNat e.natAbs

/-- What stands behind the whole part of a numeral: digits behind a point, and a power of ten. -/
def behindWhole (fraction : List Char) (power : Option Int) : List Char :=
  (if fraction.isEmpty then [] else '.' :: fraction) ++ power.elim [] powerText

private theorem exponent?_powerText (e : Int) : Decimal.exponent? (powerText e) = some e := by
  have digits := Digits.toNat?_ofNat e.natAbs
  by_cases negative : e < 0
  · have size : -(e.natAbs : Int) = e := by omega
    have read : Decimal.exponent? (powerText e) = some (-(e.natAbs : Int)) := by
      simp [powerText, negative, Decimal.exponent?, Digits.toInt?, digits]
    rw [read, size]
  · have size : (e.natAbs : Int) = e := by omega
    have read : Decimal.exponent? (powerText e) = some (e.natAbs : Int) := by
      simp [powerText, negative, Decimal.exponent?, Digits.toInt?, digits]
    rw [read, size]

private theorem takeWhile_isDigit_append {ds : List Char}
    (digits : ∀ c ∈ ds, Digits.isDigit c = true) (rest : List Char)
    (stop : ∀ c ∈ rest.head?, Digits.isDigit c = false) :
    (ds ++ rest).takeWhile Digits.isDigit = ds ∧ (ds ++ rest).dropWhile Digits.isDigit = rest := by
  rw [List.takeWhile_append_of_pos digits, List.dropWhile_append_of_pos digits]
  cases rest with
  | nil => simp
  | cons c rest => simp [stop c rfl]

private theorem isDigit_head_powerText (power : Option Int) {c : Char}
    (h : c ∈ (power.elim [] powerText).head?) : Digits.isDigit c = false := by
  cases power with
  | none => exact nomatch h
  | some e =>
    cases h
    rfl

private theorem isDigit_head_behindWhole {fraction : List Char} {power : Option Int} {c : Char}
    (h : c ∈ (behindWhole fraction power).head?) : Digits.isDigit c = false := by
  cases fraction with
  | nil => exact isDigit_head_powerText power h
  | cons d fraction =>
    cases h
    rfl

private theorem parts?_numeral {whole fraction : List Char} (power : Option Int)
    (hw : Digits.IsWhole whole) (hf : ∀ c ∈ fraction, Digits.isDigit c = true) :
    Decimal.parts? (whole ++ behindWhole fraction power) =
      some (whole, fraction, power.getD 0) := by
  obtain ⟨before, behind⟩ := takeWhile_isDigit_append hw.digits (behindWhole fraction power)
    fun _ => isDigit_head_behindWhole
  have power_ : Decimal.exponent? (power.elim [] powerText) = some (power.getD 0) := by
    cases power with
    | none => rfl
    | some e => exact exponent?_powerText e
  have some : whole.isEmpty = false := by simpa using hw.ne_nil
  unfold Decimal.parts?
  rw [before, behind, behindWhole]
  cases fraction with
  | nil =>
    cases power with
    | none => simp [some, Decimal.exponent?]
    | some e =>
      obtain ⟨cs, text⟩ : ∃ cs, powerText e = 'e' :: cs := ⟨_, rfl⟩
      rw [Option.elim_some, text] at power_
      simp [some, text, power_]
  | cons d fraction =>
    obtain ⟨inside, after⟩ :=
      takeWhile_isDigit_append hf _ fun _ => isDigit_head_powerText power
    rw [List.cons_append] at inside after
    simp [some, inside, after, power_]

theorem ofUnsigned?_numeral (negative : Bool) {whole fraction : List Char} (power : Option Int)
    (hw : Digits.IsWhole whole) (hf : ∀ c ∈ fraction, Digits.isDigit c = true) :
    Decimal.ofUnsigned? negative (whole ++ behindWhole fraction power) =
      some ⟨negative, Digits.value (whole ++ fraction), power.getD 0 - fraction.length⟩ := by
  rw [Decimal.ofUnsigned?, parts?_numeral power hw hf]
  rfl

namespace Json

def signed (negative : Bool) (body : List Char) : List Char :=
  if negative then '-' :: body else body

/-- The number of a numeral that is cut behind its whole part. -/
def numberOfParts? (negative : Bool) (body whole rest : List Char) : Option Number :=
  match rest.isEmpty && !(negative && wholeInt negative whole == 0),
    Number.ofInt? (wholeInt negative whole) with
  | true, some n => some n
  | _, _ => (Decimal.parts? body).bind fun (whole, fraction, power) =>
    (doubleOfParts? negative whole fraction power).map .double

private theorem numberOfText?_eq (cs : List Char) :
    numberOfText? cs =
      if !(wholeOk ((takeMinus cs).2.takeWhile Digits.isDigit) &&
        pointOk ((takeMinus cs).2.dropWhile Digits.isDigit)) then none
      else numberOfParts? (takeMinus cs).1 (takeMinus cs).2
        ((takeMinus cs).2.takeWhile Digits.isDigit) ((takeMinus cs).2.dropWhile Digits.isDigit) := rfl

private theorem wholeOk_of_isWhole {whole : List Char} (hw : Digits.IsWhole whole) :
    wholeOk whole = true := by
  unfold wholeOk
  split
  next => exact absurd rfl hw.ne_nil
  next => rfl
  next cs other => exact absurd (List.cons.inj (hw.lead rfl)).2 other
  next => rfl

private theorem takeMinus_signed (negative : Bool) {whole : List Char} (hw : Digits.IsWhole whole)
    (rest : List Char) :
    takeMinus (signed negative (whole ++ rest)) = (negative, whole ++ rest) := by
  obtain ⟨c, cs, rfl⟩ := List.exists_cons_of_ne_nil hw.ne_nil
  have digit : Digits.isDigit c = true := hw.digits c List.mem_cons_self
  have noMinus : c ≠ '-' := by
    rintro rfl
    exact nomatch digit
  cases negative with
  | true => rfl
  | false => simp [signed, takeMinus, noMinus]

private theorem numberOfText?_signed (negative : Bool) {whole rest : List Char}
    (hw : Digits.IsWhole whole) (stop : ∀ c ∈ rest.head?, Digits.isDigit c = false)
    (point : pointOk rest = true) :
    numberOfText? (signed negative (whole ++ rest)) =
      numberOfParts? negative (whole ++ rest) whole rest := by
  obtain ⟨before, behind⟩ := takeWhile_isDigit_append hw.digits rest stop
  rw [numberOfText?_eq, takeMinus_signed negative hw, before, behind, wholeOk_of_isWhole hw, point]
  rfl

theorem numberOfText?_numeral (negative : Bool) {whole fraction : List Char} {power : Option Int}
    (hw : Digits.IsWhole whole) (hf : ∀ c ∈ fraction, Digits.isDigit c = true)
    (some : behindWhole fraction power ≠ []) :
    numberOfText? (signed negative (whole ++ behindWhole fraction power)) =
      (doubleOfParts? negative whole fraction (power.getD 0)).map Number.double := by
  have point : pointOk (behindWhole fraction power) = true := by
    cases fraction with
    | nil =>
      cases power with
      | none => rfl
      | some e => rfl
    | cons d fraction => exact hf d List.mem_cons_self
  have isEmpty : (behindWhole fraction power).isEmpty = false := by simpa using some
  rw [numberOfText?_signed negative hw (fun _ => isDigit_head_behindWhole) point, numberOfParts?,
    parts?_numeral power hw hf, isEmpty]
  rfl

theorem numberOfText?_ofInt (i : Int) (fits : FitsNumber i) :
    numberOfText? (Digits.ofInt i) = some (.int i fits) := by
  have value : wholeInt (i < 0) (Digits.ofNat i.natAbs) = i := by
    rw [wholeInt, Digits.value_ofNat]
    by_cases negative : i < 0
    · rw [if_pos (decide_eq_true negative)]
      omega
    · rw [if_neg (by simpa using negative)]
      omega
  have written : Digits.ofInt i = signed (i < 0) (Digits.ofNat i.natAbs ++ []) := by
    simp [Digits.ofInt, signed]
  have plain : (decide (i < 0) && i == 0) = false := by
    simp
    omega
  have number : Number.ofInt? i = some (.int i fits) := dif_pos fits
  rw [written, numberOfText?_signed _ (Digits.isWhole_ofNat _) (by simp) rfl, numberOfParts?,
    value, plain, number]
  rfl

end Json

/-- A numeral that is no integer, of digits with a number and a power of ten behind them. -/
def Spells (body : List Char) (c : Nat) (e : Int) : Prop :=
  ∃ whole fraction power, body = whole ++ behindWhole fraction power ∧ Digits.IsWhole whole ∧
    (∀ c ∈ fraction, Digits.isDigit c = true) ∧ behindWhole fraction power ≠ [] ∧
    Digits.value (whole ++ fraction) = c ∧ power.getD 0 - fraction.length = e

namespace FloatLayout

variable {ds : List Char} {e : Int}

private theorem isWhole_append_zeros (hw : Digits.IsWhole ds) (zero : ds = ['0'] → e = 0) :
    Digits.IsWhole (ds ++ List.replicate e.toNat '0') := by
  by_cases none : ds = ['0']
  · rw [none, zero none]
    exact Digits.isWhole_zero
  · apply hw.append _ none
    intro c hc
    rw [List.eq_of_mem_replicate hc]
    rfl

private theorem spells_point {whole fraction : List Char} (hw : Digits.IsWhole whole)
    (hf : ∀ c ∈ fraction, Digits.isDigit c = true) (some : fraction ≠ []) :
    Spells (whole ++ '.' :: fraction) (Digits.value (whole ++ fraction)) (-fraction.length) := by
  obtain ⟨c, more, rfl⟩ := List.exists_cons_of_ne_nil some
  have point : behindWhole (c :: more) none = '.' :: c :: more := by simp [behindWhole]
  refine ⟨whole, c :: more, none, by rw [point], hw, hf, by simp [point], rfl, ?_⟩
  rw [Option.getD_none, Int.zero_sub]

private theorem spells_integral (integral : 0 ≤ e) (hw : Digits.IsWhole ds)
    (zero : ds = ['0'] → e = 0) :
    Spells (ds ++ List.replicate e.toNat '0' ++ ['.', '0'])
      (Digits.value ds * 10 ^ (e + 1).toNat) (e - (e + 1).toNat) := by
  have value : Digits.value (ds ++ List.replicate e.toNat '0' ++ ['0']) =
      Digits.value ds * 10 ^ (e + 1).toNat := by
    have zeros : (e + 1).toNat = e.toNat + 1 := by omega
    rw [← List.replicate_one, List.append_assoc, List.replicate_append_replicate,
      Digits.value_append, Digits.value_zeros, List.length_replicate, Nat.add_zero, zeros]
  have place : e - (e + 1).toNat = -(['0'].length : Int) := by
    rw [List.length_singleton]
    omega
  rw [← value, place]
  exact spells_point (isWhole_append_zeros hw zero) (by simp [Digits.isDigit]) (by simp)

private theorem spells_inside {places : Nat} (size : (places : Int) = -e) (some : 0 < places)
    (inside : places < ds.length) (hw : Digits.IsWhole ds) :
    Spells (ds.take (ds.length - places) ++ '.' :: ds.drop (ds.length - places))
      (Digits.value ds) e := by
  have before : ds.take (ds.length - places) ≠ [] := by
    rw [← List.length_pos_iff_ne_nil, List.length_take]
    omega
  have behind : ds.drop (ds.length - places) ≠ [] := by
    rw [← List.length_pos_iff_ne_nil, List.length_drop]
    omega
  have place : -((ds.drop (ds.length - places)).length : Int) = e := by
    rw [List.length_drop]
    omega
  have whole := hw
  rw [← List.take_append_drop (ds.length - places) ds] at whole
  have spelt := spells_point (whole.of_append before)
    (fun c hc => hw.digits c (List.mem_of_mem_drop hc)) behind
  rwa [List.take_append_drop, place] at spelt

private theorem spells_leading {places : Nat} (size : (places : Int) = -e)
    (before : ds.length ≤ places) (hw : Digits.IsWhole ds) :
    Spells ('0' :: '.' :: (List.replicate (places - ds.length) '0' ++ ds)) (Digits.value ds) e := by
  have digits : ∀ c ∈ List.replicate (places - ds.length) '0' ++ ds,
      Digits.isDigit c = true := by
    intro c hc
    rcases List.mem_append.mp hc with zeros | hc
    · rw [List.eq_of_mem_replicate zeros]
      rfl
    · exact hw.digits c hc
  have place : -((List.replicate (places - ds.length) '0' ++ ds).length : Int) = e := by
    rw [List.length_append, List.length_replicate]
    omega
  have value : Digits.value (['0'] ++ (List.replicate (places - ds.length) '0' ++ ds)) =
      Digits.value ds := by
    rw [← List.replicate_one, ← List.append_assoc, List.replicate_append_replicate,
      Digits.value_append, Digits.value_zeros, Nat.zero_mul, Nat.zero_add]
  have spelt := spells_point Digits.isWhole_zero digits
    (List.append_ne_nil_of_right_ne_nil _ hw.ne_nil)
  rwa [value, place] at spelt

private theorem spells_scientificText (hw : Digits.IsWhole ds) :
    Spells (scientificText ds (e + ds.length - 1)) (Digits.value ds) e := by
  obtain ⟨c, more, rfl⟩ := List.exists_cons_of_ne_nil hw.ne_nil
  have first : Digits.IsWhole [c] :=
    Digits.IsWhole.of_append (show Digits.IsWhole ([c] ++ more) from hw) (List.cons_ne_nil _ _)
  have place : (some (e + (c :: more).length - 1)).getD 0 - (more.length : Int) = e := by
    simp
    omega
  refine ⟨[c], more, some (e + (c :: more).length - 1), ?_, first,
    fun c hc => hw.digits c (List.mem_cons_of_mem _ hc), ?_, rfl, place⟩
  · cases more <;> rfl
  · cases more <;> exact List.cons_ne_nil _ _

/-- The text of a double spells its digits, possibly with zeros behind them. -/
theorem exists_write (d : Double) : ∃ ds e k body, json.digits d = (ds, e) ∧
    Digits.IsWhole ds ∧ json.write d = Json.signed d.negative body ∧ k ≤ (e + 1).toNat ∧
    Spells body (Digits.value ds * 10 ^ k) (e - k) ∧
    Double.readsBack d (Digits.value ds * 10 ^ k) (e - k) = true := by
  obtain ⟨ds, e, digits, hw, reads, zero⟩ := json.digits_spec d
  have spelt : ∃ k : Nat, k ≤ (e + 1).toNat ∧ Spells (if json.positional (e + ds.length - 1) then
      json.positionalText ds e else scientificText ds (e + ds.length - 1))
      (Digits.value ds * 10 ^ k) (e - k) := by
    have plain {body : List Char} (h : Spells body (Digits.value ds) e) :
        Spells body (Digits.value ds * 10 ^ 0) (e - (0 : Nat)) := by simpa using h
    split
    next =>
      simp only [positionalText, json, if_true]
      split
      next integral => exact ⟨_, le_rfl, spells_integral integral hw zero⟩
      next fractional =>
        have size : ((-e).toNat : Int) = -e := by omega
        split
        next inside =>
          exact ⟨0, Nat.zero_le _, plain (spells_inside size (by omega) inside hw)⟩
        next before =>
          exact ⟨0, Nat.zero_le _, plain (spells_leading size (by omega) hw)⟩
    next => exact ⟨0, Nat.zero_le _, plain (spells_scientificText hw)⟩
  obtain ⟨k, few, spelt⟩ := spelt
  refine ⟨ds, e, k, _, digits, hw, ?_, few, spelt, ?_⟩
  · rw [write, digits]
    rfl
  · rw [← reads]
    apply Double.readsBack_congr
    rw [scaled_by_ten, sub_add_cancel]

end FloatLayout

namespace Json

private theorem isNumeral_of_isDigit {c : Char} (h : Digits.isDigit c = true) :
    isNumeral c = true := by
  simp [isNumeral, h]

private theorem isNumeral_of_mem_behindWhole {fraction : List Char} {power : Option Int}
    (hf : ∀ c ∈ fraction, Digits.isDigit c = true) :
    ∀ c ∈ behindWhole fraction power, isNumeral c = true := by
  intro c hc
  rcases List.mem_append.mp hc with point | power_
  · cases fraction with
    | nil => exact nomatch point
    | cons d fraction =>
      rcases List.mem_cons.mp point with rfl | digit
      · rfl
      · exact isNumeral_of_isDigit (hf c digit)
  · cases power with
    | none => exact nomatch power_
    | some e =>
      rcases List.mem_cons.mp power_ with rfl | rest
      · rfl
      rcases List.mem_cons.mp rest with rfl | digit
      · split <;> rfl
      · exact isNumeral_of_isDigit (Digits.isDigit_of_mem_ofNat digit)

theorem exists_writeNumber (n : Number) : ∃ c cs, writeNumber n = c :: cs ∧
    (Digits.isDigit c = true ∨ c = '-') ∧ ∀ x ∈ cs, isNumeral x = true := by
  have parts : ∃ negative whole rest, writeNumber n = signed negative (whole ++ rest) ∧
      Digits.IsWhole whole ∧ ∀ c ∈ rest, isNumeral c = true := by
    cases n with
    | int i fits =>
      refine ⟨decide (i < 0), Digits.ofNat i.natAbs, [], ?_, Digits.isWhole_ofNat _, by simp⟩
      simp [writeNumber, Digits.ofInt, signed]
    | double d =>
      obtain ⟨ds, e, k, body, -, -, written, -, spelt, -⟩ := FloatLayout.exists_write d
      obtain ⟨whole, fraction, power, rfl, hw, hf, -, -, -⟩ := spelt
      exact ⟨d.negative, whole, _, written, hw, isNumeral_of_mem_behindWhole hf⟩
  obtain ⟨negative, whole, rest, written, hw, hr⟩ := parts
  have numeral : ∀ c ∈ whole ++ rest, isNumeral c = true := fun c hc =>
    (List.mem_append.mp hc).elim (fun h => isNumeral_of_isDigit (hw.digits c h)) (hr c)
  obtain ⟨c, cs, rfl⟩ := List.exists_cons_of_ne_nil hw.ne_nil
  cases negative with
  | true => exact ⟨'-', _, written, Or.inr rfl, numeral⟩
  | false =>
    exact ⟨c, _, written, Or.inl (hw.digits c List.mem_cons_self),
      fun x hx => numeral x (List.mem_cons_of_mem c hx)⟩

end Json

end WorkflowGraph
