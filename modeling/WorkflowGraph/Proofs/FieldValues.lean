/- The value that each declared field ends up with when inputs are resolved. -/

import Mathlib.Data.List.TakeWhile
import WorkflowGraph.Inputs.Validation
import WorkflowGraph.Proofs.Accepted
import WorkflowGraph.Proofs.Resolution

set_option autoImplicit false
set_option relaxedAutoImplicit false

/-!
Every pass over the fields writes under the id of the field at hand alone. Where ids are distinct,
the value of a field after a pass is therefore what its own step makes of the value before the pass,
and the passes can be followed one field at a time.
-/

namespace WorkflowGraph

/-- A pass over fields writes nothing but under the id of the field at hand. -/
def WritesOwn {σ : Type} (view : σ → Object) (step : σ → Field → σ) : Prop :=
  ∀ s f id, id ≠ f.id → Assoc.get? id (view (step s f)) = Assoc.get? id (view s)

namespace WritesOwn

variable {σ : Type} {view : σ → Object} {step : σ → Field → σ} {fields : List Field}

theorem get?_foldl (own : WritesOwn view step) {id : String} (other : id ∉ fields.map Field.id)
    (s : σ) : Assoc.get? id (view (fields.foldl step s)) = Assoc.get? id (view s) := by
  induction fields generalizing s with
  | nil => rfl
  | cons f fields ih =>
    rw [List.map_cons, List.mem_cons, not_or] at other
    rw [List.foldl_cons, ih other.2, own s f id other.1]

theorem exists_step (own : WritesOwn view step) (distinct : (fields.map Field.id).Nodup)
    {f : Field} (hf : f ∈ fields) (s : σ) :
    ∃ s', Assoc.get? f.id (view s') = Assoc.get? f.id (view s) ∧
      Assoc.get? f.id (view (fields.foldl step s)) = Assoc.get? f.id (view (step s' f)) := by
  obtain ⟨before, after, rfl⟩ := List.append_of_mem hf
  rw [List.map_append, List.map_cons, List.nodup_append] at distinct
  obtain ⟨-, rest, apart⟩ := distinct
  have notBefore : f.id ∉ before.map Field.id := by
    intro h
    exact apart f.id h f.id List.mem_cons_self rfl
  have notAfter : f.id ∉ after.map Field.id := (List.nodup_cons.mp rest).1
  refine ⟨before.foldl step s, own.get?_foldl notBefore s, ?_⟩
  rw [List.foldl_append, List.foldl_cons, own.get?_foldl notAfter]

end WritesOwn

theorem Text.trimChars_of_isBlankText {s : String} (h : isBlankText s = true) :
    trimChars s.toList = [] := by
  have none : s.toList.dropWhile isBlank = [] :=
    List.dropWhile_eq_nil_iff.mpr (List.all_eq_true.mp h)
  rw [trimChars, none]
  rfl

theorem InInt64.fits {i : Int} (h : InInt64 i) : FitsNumber i := by
  simp only [InInt64, FitsNumber] at *
  omega

namespace Value

theorem isNull_eq_true_iff (v : Value) : v.isNull = true ↔ v = .null := by
  cases v <;> simp [isNull]

private theorem float?_of_isAbsent {v : Value} (h : v.isAbsent = true) : v.float? = none := by
  cases v with
  | str s =>
    rw [float?, Text.trimChars_of_isBlankText h]
    rfl
  | num n => exact nomatch h
  | _ => rfl

theorem int?_of_isAbsent {v : Value} (h : v.isAbsent = true) : v.int? = none := by
  cases v with
  | str s =>
    rw [int?, Text.trimChars_of_isBlankText h]
    rfl
  | num n => exact nomatch h
  | _ => rfl

theorem inInt64_of_int? {s : String} {i : Int} (h : (Value.str s).int? = some i) : InInt64 i := by
  obtain ⟨j, -, h⟩ := Option.bind_eq_some_iff.mp (show _ = some i from h)
  split at h
  · rename_i range
    exact Option.some.inj h ▸ range
  · exact nomatch h

theorem int?_ofInt {i : Int} (h : InInt64 i) : (ofInt i).int? = some i := by
  simp [ofInt_of_fits h.fits, int?, Number.int64?, h]

theorem int?_seed (words : Words) : (ofNat words.draw.1).int? = some (words.draw.1 : Int) := by
  apply int?_ofInt
  have small := Words.draw_fst_lt words
  simp only [Words.seedBound] at small
  constructor <;> omega

end Value

open Config (numeral?)

namespace Field

/-- A value as the number that it spells, where the field is a slider or a seed. -/
def reading (f : Field) (v : Value) : Value := (numeral? f.type v).getD v

/-- The field is a seed and the value asks for a random one. -/
def AsksSeed (f : Field) (v : Value) : Prop := f.type = .seed ∧ v.int? = some randomSeed

instance (f : Field) (v : Value) : Decidable (f.AsksSeed v) :=
  inferInstanceAs (Decidable (_ ∧ _))

/-- What may become of the value of a field once defaults are filled in. -/
inductive Settles (f : Field) (v : Value) : Value → Prop
  | kept : ¬ f.AsksSeed (f.reading v) → Settles f v (f.reading v)
  | drawn (words : Words) : f.AsksSeed (f.reading v) → Settles f v (.ofNat words.draw.1)

/-- The value is left as it is by reading numerals and drawing seeds. -/
structure Steady (f : Field) (v : Value) : Prop where
  reading : f.reading v = v
  asksNone : ¬ f.AsksSeed v

def Passes (maxLoras : Nat) (f : Field) (v : Option Value) : Prop :=
  (f.check maxLoras v).filterMap Finding.error? = []

instance (maxLoras : Nat) (f : Field) (v : Option Value) : Decidable (f.Passes maxLoras v) :=
  inferInstanceAs (Decidable (_ = _))

variable {f : Field} {v w : Value}

theorem reading_of_numeral?_eq_none (h : numeral? f.type v = none) : f.reading v = v := by
  rw [reading, h, Option.getD_none]

theorem reading_num (f : Field) (n : Number) : f.reading (.num n) = .num n := rfl

theorem reading_str_of_slider (slider : f.type = .slider) (s : String) :
    f.reading (.str s) = ((Value.str s).float?.map Value.ofDouble).getD (.str s) := by
  rw [reading, slider]
  rfl

theorem reading_str_of_seed (seed : f.type = .seed) (s : String) :
    f.reading (.str s) = ((Value.str s).int?.map Value.ofInt).getD (.str s) := by
  rw [reading, seed]
  rfl

private theorem reading_of_isAbsent (h : v.isAbsent = true) : f.reading v = v := by
  apply reading_of_numeral?_eq_none
  cases v with
  | str s =>
    have float := Value.float?_of_isAbsent h
    have int := Value.int?_of_isAbsent h
    cases ht : f.type <;> simp [numeral?, float, int]
  | _ => cases f.type <;> rfl

private theorem reading_cases (f : Field) (v : Value) :
    f.reading v = v ∨ ∃ n, numeral? f.type v = some (.num n) ∧ f.reading v = .num n := by
  cases h : numeral? f.type v with
  | none => exact Or.inl (reading_of_numeral?_eq_none h)
  | some w =>
    obtain ⟨n, rfl⟩ := (Config.numeral?_eq_some h).2
    exact Or.inr ⟨n, rfl, by rw [reading, h, Option.getD_some]⟩

private theorem reading_reading (f : Field) (v : Value) :
    f.reading (f.reading v) = f.reading v := by
  rcases f.reading_cases v with h | ⟨n, -, h⟩
  · rw [h, h]
  · rw [h, reading_num]

theorem isNull_reading (f : Field) (v : Value) : (f.reading v).isNull = v.isNull := by
  rcases f.reading_cases v with h | ⟨n, numeral, h⟩
  · rw [h]
  · obtain ⟨⟨s, rfl⟩, -⟩ := Config.numeral?_eq_some numeral
    rw [h]
    rfl

private theorem not_asksSeed_seed (f : Field) (words : Words) :
    ¬ f.AsksSeed (.ofNat words.draw.1) := by
  rintro ⟨-, asks⟩
  rw [Value.int?_seed, randomSeed] at asks
  have := Option.some.inj asks
  omega

namespace Settles

theorem steady (h : f.Settles v w) : f.Steady w := by
  cases h with
  | kept asksNone => exact ⟨f.reading_reading v, asksNone⟩
  | drawn words _ =>
    obtain ⟨n, hn⟩ := Config.ofNat_seed words
    exact ⟨by rw [hn, reading_num], f.not_asksSeed_seed words⟩

theorem cases_num (h : f.Settles v w) : w = v ∨ v.isAbsent = false ∧ ∃ n, w = .num n := by
  cases absent : v.isAbsent with
  | true =>
    have same : f.reading v = v := reading_of_isAbsent absent
    cases h with
    | kept _ => exact Or.inl same
    | drawn words asks =>
      rw [same, AsksSeed, Value.int?_of_isAbsent absent] at asks
      exact absurd asks.2 (by simp)
  | false =>
    cases h with
    | kept _ =>
      rcases f.reading_cases v with h | ⟨n, -, h⟩
      · exact Or.inl h
      · exact Or.inr ⟨rfl, n, h⟩
    | drawn words _ => exact Or.inr ⟨rfl, Config.ofNat_seed words⟩

private theorem isAbsent (h : f.Settles v w) : w.isAbsent = v.isAbsent := by
  rcases h.cases_num with rfl | ⟨absent, n, rfl⟩
  · rfl
  · rw [absent]
    rfl

private theorem isNull (h : f.Settles v w) : w.isNull = v.isNull := by
  rcases h.cases_num with rfl | ⟨absent, n, rfl⟩
  · rfl
  · cases v with
    | null => exact absurd absent (by decide)
    | _ => rfl

theorem filter_eq_none_iff {a b : Option Value} (h : Option.Rel f.Settles a b) :
    a.filter (fun v => !v.isNull) = none ↔ b.filter (fun v => !v.isNull) = none := by
  cases h with
  | none => rfl
  | some settles => simp [Option.filter_eq_none_iff, settles.isNull]

private theorem eq_of_isAbsent (h : f.Settles v w) (absent : w.isAbsent = true) : w = v := by
  rcases h.cases_num with same | ⟨-, n, rfl⟩
  · exact same
  · exact absurd absent (by simp [Value.isAbsent])

theorem eq_some_iff {a b : Option Value} (h : Option.Rel f.Settles a b)
    (absent : v.isAbsent = true) : a = some v ↔ b = some v := by
  cases h with
  | none => rfl
  | some settles =>
    rw [Option.some.injEq, Option.some.injEq]
    constructor
    · rintro rfl
      exact settles.eq_of_isAbsent (settles.isAbsent.trans absent)
    · rintro rfl
      exact (settles.eq_of_isAbsent absent).symm

end Settles

theorem check_of_isAbsent (maxLoras : Nat) (h : v.isAbsent = true) :
    f.check maxLoras (some v) = f.check maxLoras none := by
  have dropped : (some v).filter (fun v => !v.isAbsent) = none := by simp [Option.filter, h]
  rw [check, dropped]
  rfl

theorem check_of_not_isAbsent (maxLoras : Nat) (h : v.isAbsent = false) :
    f.check maxLoras (some v) = f.checkValue maxLoras v := by
  have kept : (some v).filter (fun v => !v.isAbsent) = some v := by simp [Option.filter, h]
  rw [check, kept]

theorem checkSlider_congr (h : w.float? = v.float?) : f.checkSlider w = f.checkSlider v := by
  rw [checkSlider, checkSlider, h]

theorem checkSeed_congr (h : w.int? = v.int?) : f.checkSeed w = f.checkSeed v := by
  rw [checkSeed, checkSeed, h]

private theorem checkSeed_of_nonneg {i : Int} (h : v.int? = some i) (nonneg : 0 ≤ i) :
    f.checkSeed v = [] := by
  have noLess : ¬ i < -1 := by omega
  rw [checkSeed, h]
  exact if_neg (by simpa using noLess)

private theorem float?_reading (ht : f.type = .slider) : (f.reading v).float? = v.float? := by
  cases v with
  | str s =>
    rw [reading_str_of_slider ht]
    cases h : (Value.str s).float? with
    | none => exact h
    | some d => rfl
  | _ => rfl

theorem int?_reading (ht : f.type = .seed) : (f.reading v).int? = v.int? := by
  cases v with
  | str s =>
    rw [reading_str_of_seed ht]
    cases h : (Value.str s).int? with
    | none => exact h
    | some i => exact Value.int?_ofInt (Value.inInt64_of_int? h)
  | _ => rfl

theorem reading_of_type (slider : f.type ≠ .slider) (seed : f.type ≠ .seed) : f.reading v = v := by
  apply reading_of_numeral?_eq_none
  cases v with
  | str s => cases ht : f.type <;> first | rfl | contradiction
  | _ => rfl

private theorem Passes.of_settles {maxLoras : Nat} (h : f.Passes maxLoras (some v))
    (settles : f.Settles v w) : f.Passes maxLoras (some w) := by
  cases absent : v.isAbsent with
  | true =>
    rw [settles.eq_of_isAbsent (settles.isAbsent.trans absent)]
    exact h
  | false =>
    rw [Passes, check_of_not_isAbsent maxLoras absent] at h
    rw [Passes, check_of_not_isAbsent maxLoras (settles.isAbsent.trans absent)]
    cases settles with
    | kept _ =>
      -- values are read on sliders and seeds alone, and their checks see no more than the number
      have same : f.checkValue maxLoras (f.reading v) = f.checkValue maxLoras v := by
        by_cases slider : f.type = .slider
        · simp only [checkValue, slider]
          exact checkSlider_congr (float?_reading slider)
        · by_cases seed : f.type = .seed
          · simp only [checkValue, seed]
            exact checkSeed_congr (int?_reading seed)
          · rw [reading_of_type slider seed]
      rw [same]
      exact h
    | drawn words asks =>
      have none : f.checkSeed (.ofNat words.draw.1) = [] :=
        checkSeed_of_nonneg (Value.int?_seed words) (Int.natCast_nonneg _)
      rw [checkValue, asks.1]
      exact congrArg (List.filterMap Finding.error?) none

theorem Passes.of_rel {maxLoras : Nat} {a b : Option Value} (h : f.Passes maxLoras a)
    (settled : Option.Rel f.Settles a b) : f.Passes maxLoras b := by
  cases settled with
  | none => exact h
  | some settles => exact h.of_settles settles

end Field

namespace Config

variable {c : Config} {supplied acc : Object} {f : Field}

theorem check_isValid_iff (maxLoras : Nat) (c : Config) (inputs : Object) :
    (c.check maxLoras inputs).isValid = true ↔
      ∀ f ∈ c.inputs, c.dependencyMet f (c.flatten inputs) = true →
        f.Passes maxLoras (Assoc.get? f.id (c.flatten inputs)) := by
  simp only [check, Report.ofFindings, List.isEmpty_iff, List.flatMap_eq_nil_iff,
    List.map_eq_nil_iff, fieldFindings]
  refine forall₂_congr fun f _ => ?_
  cases c.dependencyMet f (c.flatten inputs) <;> simp [Field.Passes]

theorem isMissing_congr {a b : Object} {id : String} (h : Assoc.get? id a = Assoc.get? id b) :
    isMissing a id = isMissing b id := by
  rw [isMissing, isMissing, h]

theorem isMissing_of_get? {flat : Object} {id : String} {v : Value}
    (h : Assoc.get? id flat = some v) : isMissing flat id = v.isNull := by
  rw [isMissing, h]

/-- The value of a field for supplied values once defaults are filled in. -/
def filled? (c : Config) (supplied : Object) (f : Field) : Option Value :=
  if isMissing supplied f.id && c.dependencyMet f supplied then
    f.default?.or (Assoc.get? f.id supplied)
  else Assoc.get? f.id supplied

theorem filled?_eq_get? (h : isMissing supplied f.id = true → c.dependencyMet f supplied = true →
    f.default? = none) : c.filled? supplied f = Assoc.get? f.id supplied := by
  cases missing : isMissing supplied f.id with
  | false => simp [filled?, missing]
  | true =>
    cases applies : c.dependencyMet f supplied with
    | false => simp [filled?, applies]
    | true => simp [filled?, h missing applies]

private theorem get?_fillDefault_self (h : Assoc.get? f.id acc = Assoc.get? f.id supplied) :
    Assoc.get? f.id (c.fillDefault supplied acc f) = c.filled? supplied f := by
  rw [filled?, ← isMissing_congr h, ← h]
  cases hd : f.default? with
  | none => simp [fillDefault, hd]
  | some v =>
    cases hm : isMissing acc f.id with
    | false => simp [fillDefault, hm]
    | true =>
      cases hc : c.dependencyMet f supplied with
      | false => simp [fillDefault, hm, hc, hd]
      | true => simp [fillDefault, hm, hc, hd, Assoc.get?_insert_self]

theorem writesOwn_fillDefault (c : Config) (supplied : Object) :
    WritesOwn (fun o => o) (c.fillDefault supplied) := by
  intro acc f id other
  rcases c.fillDefault_cases supplied acc f with h | ⟨v, -, -, -, h⟩
  · rw [h]
  · rw [h]
    exact Assoc.get?_insert_of_ne other v acc

theorem writesOwn_readNumeral : WritesOwn (fun o => o) readNumeral := by
  intro acc f id other
  rcases readNumeral_cases acc f with h | ⟨v, n, -, -, h⟩
  · rw [h]
  · rw [h]
    exact Assoc.get?_insert_of_ne other (.num n) acc

theorem writesOwn_drawSeed : WritesOwn Prod.fst drawSeed := by
  intro s f id other
  rcases drawSeed_cases s f with h | ⟨v, -, -, -, h⟩
  · rw [h]
  · rw [h]
    exact Assoc.get?_insert_of_ne other _ s.1

theorem get?_readNumeral_self (acc : Object) (f : Field) :
    Assoc.get? f.id (readNumeral acc f) = (Assoc.get? f.id acc).map f.reading := by
  cases hv : Assoc.get? f.id acc with
  | none =>
    rw [readNumeral, Assoc.modify_of_get?_eq_none hv, hv]
    rfl
  | some v =>
    rw [readNumeral, Assoc.modify_of_get? hv, Assoc.get?_insert_self]
    rfl

theorem drawSeed_of_asksSeed {s : Object × Words} {v : Value} (hv : Assoc.get? f.id s.1 = some v)
    (asks : f.AsksSeed v) :
    drawSeed s f = (Assoc.insert f.id (.ofNat s.2.draw.1) s.1, s.2.draw.2) := by
  simp [drawSeed, hv, asks.1, asks.2]

theorem drawSeed_of_not_asksSeed {s : Object × Words}
    (h : ∀ v, Assoc.get? f.id s.1 = some v → ¬ f.AsksSeed v) : drawSeed s f = s := by
  rcases drawSeed_cases s f with same | ⟨v, ht, hv, asks, -⟩
  · exact same
  · exact absurd ⟨ht, asks⟩ (h v hv)

theorem get?_fillDefaults (distinct : (c.inputs.map Field.id).Nodup) (hf : f ∈ c.inputs)
    (supplied : Object) : Assoc.get? f.id (c.fillDefaults supplied) = c.filled? supplied f := by
  obtain ⟨acc, same, last⟩ := (c.writesOwn_fillDefault supplied).exists_step distinct hf supplied
  exact last.trans (get?_fillDefault_self same)

theorem get?_readNumerals (distinct : (c.inputs.map Field.id).Nodup) (hf : f ∈ c.inputs)
    (flat : Object) :
    Assoc.get? f.id (c.readNumerals flat) = (Assoc.get? f.id flat).map f.reading := by
  obtain ⟨acc, same, last⟩ := writesOwn_readNumeral.exists_step distinct hf flat
  rw [← same, ← get?_readNumeral_self]
  exact last

/-- The resolved value of a declared field is what becomes of its value once defaults are filled
in. -/
theorem get?_resolve (distinct : (c.inputs.map Field.id).Nodup) (hf : f ∈ c.inputs)
    (inputs : Object) (words : Words) :
    Option.Rel f.Settles (c.filled? (c.flatten inputs) f)
      (Assoc.get? f.id (c.resolve inputs words).1) := by
  obtain ⟨s, same, last⟩ := writesOwn_drawSeed.exists_step distinct hf
    (c.readNumerals (c.fillDefaults (c.flatten inputs)), words)
  have before : Assoc.get? f.id s.1 = (c.filled? (c.flatten inputs) f).map f.reading := by
    rw [same, get?_readNumerals distinct hf, get?_fillDefaults distinct hf]
  have after : Assoc.get? f.id (c.resolve inputs words).1 = Assoc.get? f.id (drawSeed s f).1 :=
    last
  rw [after]
  cases value : c.filled? (c.flatten inputs) f with
  | none =>
    rw [value, Option.map_none] at before
    rw [drawSeed_of_not_asksSeed (by simp [before]), before]
    exact .none
  | some v =>
    rw [value, Option.map_some] at before
    by_cases asks : f.AsksSeed (f.reading v)
    · rw [drawSeed_of_asksSeed before asks, Assoc.get?_insert_self]
      exact .some (.drawn s.2 asks)
    · rw [drawSeed_of_not_asksSeed (by simpa [before] using asks), before]
      exact .some (.kept asks)

theorem get?_fillDefaults_of_not_mem {id : String} (undeclared : id ∉ c.inputs.map Field.id)
    (supplied : Object) :
    Assoc.get? id (c.fillDefaults supplied) = Assoc.get? id supplied :=
  (c.writesOwn_fillDefault supplied).get?_foldl undeclared supplied

theorem get?_resolve_of_not_mem {id : String} (undeclared : id ∉ c.inputs.map Field.id)
    (inputs : Object) (words : Words) :
    Assoc.get? id (c.resolve inputs words).1 = Assoc.get? id (c.flatten inputs) := by
  have drawn := writesOwn_drawSeed.get?_foldl undeclared
    (c.readNumerals (c.fillDefaults (c.flatten inputs)), words)
  have read := writesOwn_readNumeral.get?_foldl undeclared (c.fillDefaults (c.flatten inputs))
  exact drawn.trans (read.trans (get?_fillDefaults_of_not_mem undeclared _))

end Config

end WorkflowGraph
