/- Integers supplied as texts: where resolving sees no difference between the text and the number. -/

import WorkflowGraph.Proofs.IntegerRounding
import WorkflowGraph.Proofs.SideBySide

set_option autoImplicit false
set_option relaxedAutoImplicit false

/-!
A form may send an integer as a text or as a number. On a seed the text becomes the integer, on a
slider it becomes the double nearest to it. Elsewhere nothing differs, as long as no condition on the
field tells its text from its number: conditions look at the values as they were supplied, before
texts are read.
-/

namespace WorkflowGraph

namespace Field

variable {f : Field} {n : Int}

def isNumeric (f : Field) : Bool := decide (f.type = .slider) || decide (f.type = .seed)

private theorem isNumeric_iff : f.isNumeric = true ↔ f.type = .slider ∨ f.type = .seed := by
  simp [isNumeric]

def reads (id : String) (f : Field) : Bool := decide (f.id = id) && f.isNumeric

private theorem reading_intText_slider (slider : f.type = .slider) (fits : FitsNumber n) :
    f.reading (.str (intText n)) = .num (.double (Double.ofInt n)) := by
  rw [reading_str_of_slider slider, Value.float?_intText fits]
  rfl

private theorem reading_intText_seed (seed : f.type = .seed) (range : InInt64 n)
    (fits : FitsNumber n) :
    f.reading (.str (intText n)) = .num (.int n fits) := by
  rw [reading_str_of_seed seed, Value.int?_intText range, Option.map_some, Option.getD_some,
    Value.ofInt_of_fits fits]

private theorem asksSeed_int_iff (range : InInt64 n) (fits : FitsNumber n) :
    f.AsksSeed (.num (.int n fits)) ↔ f.type = .seed ∧ n = randomSeed := by
  have own := Value.int?_ofInt range
  rw [Value.ofInt_of_fits fits] at own
  rw [AsksSeed, own, Option.some.injEq]

private theorem asksSeed_double_iff (fits : FitsNumber n) :
    f.AsksSeed (.num (.double (Double.ofInt n))) ↔ f.type = .seed ∧ n = randomSeed := by
  rw [AsksSeed]
  refine and_congr_right fun _ => ⟨fun asks => ?_, ?_⟩
  · exact (Double.truncate_ofInt_eq_neg_one_iff fits).mp (Value.truncate_of_int? asks)
  · rintro rfl
    decide +kernel

private theorem reading_intText (numeric : f.isNumeric = true) (range : InInt64 n)
    (fits : FitsNumber n) :
    f.reading (.str (intText n)) =
      .num (if f.type = .seed then .int n fits else .double (Double.ofInt n)) := by
  rcases isNumeric_iff.mp numeric with slider | seed
  · rw [reading_intText_slider slider fits, if_neg (by simp [slider])]
  · rw [reading_intText_seed seed range fits, if_pos seed]

private theorem check_intText (numeric : f.isNumeric = true) (range : InInt64 n)
    (fits : FitsNumber n) (maxLoras : Nat) :
    f.check maxLoras (some (.str (intText n))) = f.check maxLoras (some (.num (.int n fits))) := by
  have given : (Value.str (intText n)).isAbsent = false := by
    rw [← Bool.not_eq_true]
    intro absent
    exact nomatch (Value.int?_intText range).symm.trans (Value.int?_of_isAbsent absent)
  rw [check_of_not_isAbsent maxLoras given, check_of_not_isAbsent maxLoras rfl, checkValue,
    checkValue]
  rcases isNumeric_iff.mp numeric with slider | seed
  · rw [slider]
    exact checkSlider_congr (Value.float?_intText fits)
  · rw [seed]
    have own := Value.int?_ofInt range
    rw [Value.ofInt_of_fits fits] at own
    exact checkSeed_congr ((Value.int?_intText range).trans own.symm)

end Field

namespace Config

variable {c : Config} {f g : Field} {n : Int} {inputs : Object}

private theorem readUnder_of_find? {id : String} {fields : List Field} {v : Value} {n : Number}
    (reader : fields.find? (Field.reads id) = some g)
    (number : g.reading v = .num n) :
    readUnder id fields v = .num n := by
  induction fields with
  | nil => exact nomatch reader
  | cons f fields ih =>
    rw [readUnder, List.foldl_cons]
    cases reads : f.reads id with
    | true =>
      rw [List.find?_cons_of_pos reads] at reader
      obtain rfl := Option.some.inj reader
      have own : f.id = id := of_decide_eq_true (Bool.and_eq_true_iff.mp reads).1
      rw [if_pos own, number]
      exact readUnder_num id fields n
    | false =>
      rw [List.find?_cons_of_neg (by simp [reads])] at reader
      have kept : (if f.id = id then f.reading v else v) = v := by
        split
        next own =>
          have other : f.isNumeric = false := by simpa [Field.reads, own] using reads
          rw [← Bool.not_eq_true, Field.isNumeric_iff, not_or] at other
          exact Field.reading_of_type other.1 other.2
        next => rfl
      rw [kept]
      exact ih reader

def spelt (f : Field) (n : Int) (inputs : Object) : Object :=
  Assoc.insert f.id (.str (intText n)) inputs

def plain (f : Field) (n : Int) (inputs : Object) : Object := Assoc.insert f.id (.ofInt n) inputs

/-- The field that reads texts under an id as numbers: the first slider or seed with the id. -/
def reader? (c : Config) (id : String) : Option Field := c.inputs.find? (Field.reads id)

private theorem exists_reader (hf : f ∈ c.inputs) (numeric : f.isNumeric = true) :
    ∃ g ∈ c.inputs, c.reader? f.id = some g := by
  have own : f.reads f.id = true := by simp [Field.reads, numeric]
  obtain ⟨g, found⟩ := Option.isSome_iff_exists.mp (List.find?_isSome.mpr ⟨f, hf, own⟩)
  exact ⟨g, List.mem_of_find?_eq_some found, found⟩

private theorem sameBut_spelt_plain (c : Config) (f : Field) (fits : FitsNumber n)
    (inputs : Object) :
    SameBut [f.id] (c.flatten (spelt f n inputs)) (c.flatten (plain f n inputs)) ∧
      (Assoc.get? f.id (c.flatten (spelt f n inputs)) =
          Assoc.get? f.id (c.flatten (plain f n inputs)) ∨
        Assoc.get? f.id (c.flatten (spelt f n inputs)) = some (.str (intText n)) ∧
          Assoc.get? f.id (c.flatten (plain f n inputs)) = some (.num (.int n fits))) := by
  rw [plain, Value.ofInt_of_fits fits]
  exact c.sameBut_flatten_insert inputs (fun _ he => nomatch he) fun _ he => nomatch he

private theorem flatten_eq_of_hidden (fits : FitsNumber n)
    (hidden : Assoc.get? f.id (c.flatten (spelt f n inputs)) =
      Assoc.get? f.id (c.flatten (plain f n inputs))) :
    c.flatten (spelt f n inputs) = c.flatten (plain f n inputs) :=
  (sameBut_spelt_plain c f fits inputs).1.eq_of_get? hidden (nodup_keys_flattenDeclared _)

private theorem differ_of_seen (fits : FitsNumber n)
    (seen : Assoc.get? f.id (c.flatten (spelt f n inputs)) ≠
      Assoc.get? f.id (c.flatten (plain f n inputs))) :
    Differ f.id (.str (intText n)) (.num (.int n fits)) (c.flatten (spelt f n inputs))
      (c.flatten (plain f n inputs)) := by
  obtain ⟨same, hidden | ⟨left, right⟩⟩ := sameBut_spelt_plain c f fits inputs
  · exact absurd hidden seen
  · exact ⟨same, left, right, rfl, rfl⟩

def SeedId (c : Config) (id : String) : Prop := ∃ s ∈ c.inputs, s.id = id ∧ s.type = .seed

section Seen

variable {id : String}

private theorem readUnder_intText (found : c.reader? id = some g) (range : InInt64 n)
    (fits : FitsNumber n) :
    readUnder id c.inputs (.str (intText n)) =
      .num (if g.type = .seed then .int n fits else .double (Double.ofInt n)) := by
  have reads : g.reads id = true := List.find?_some found
  exact readUnder_of_find? found
    (Field.reading_intText (Bool.and_eq_true_iff.mp reads).2 range fits)

private theorem asksSeed_readUnder_int (range : InInt64 n) (fits : FitsNumber n) (s : Field) :
    s.AsksSeed (readUnder id c.inputs (.num (.int n fits))) ↔ s.type = .seed ∧ n = randomSeed := by
  rw [readUnder_num]
  exact Field.asksSeed_int_iff range fits

private theorem asksSeed_readUnder_intText (found : c.reader? id = some g) (range : InInt64 n)
    (fits : FitsNumber n) (s : Field) :
    s.AsksSeed (readUnder id c.inputs (.str (intText n))) ↔ s.type = .seed ∧ n = randomSeed := by
  rw [readUnder_intText found range fits]
  split
  · exact Field.asksSeed_int_iff range fits
  · exact Field.asksSeed_double_iff fits

variable {inputs' : Object} {fits : FitsNumber n}
  (differ : Differ id (.str (intText n)) (.num (.int n fits)) (c.flatten inputs)
    (c.flatten inputs'))
  (found : c.reader? id = some g) (range : InInt64 n) (words : Words)

include differ found range

private theorem get?_resolve_of_not_random (calm : ¬ (n = randomSeed ∧ c.SeedId id)) :
    Assoc.get? id (c.resolve inputs' words).1 = some (.ofInt n) ∧
      Assoc.get? id (c.resolve inputs words).1 =
        some (if g.type = .seed then .ofInt n else .ofDouble (Double.ofInt n)) := by
  constructor
  · rw [get?_resolve_of_get? differ.right rfl, readUnder_num, Value.ofInt_of_fits fits]
    intro s hs own asks
    obtain ⟨seed, random⟩ := (asksSeed_readUnder_int range fits s).mp asks
    exact calm ⟨random, s, hs, own, seed⟩
  · rw [get?_resolve_of_get? differ.left rfl, readUnder_intText found range fits,
      Value.ofInt_of_fits fits, Value.ofDouble]
    · split <;> rfl
    · intro s hs own asks
      obtain ⟨seed, random⟩ := (asksSeed_readUnder_intText found range fits s).mp asks
      exact calm ⟨random, s, hs, own, seed⟩

private theorem drawn_of_indifferent
    (indifferent : c.Indifferent c.SeedId id (.str (intText n)) (.num (.int n fits))) :
    (c.resolve inputs words).2 = (c.resolve inputs' words).2 ∧
      (n = randomSeed → c.SeedId id →
        Assoc.get? id (c.resolve inputs words).1 = Assoc.get? id (c.resolve inputs' words).1) := by
  have asks := asksSeed_readUnder_intText found range fits
  obtain ⟨agree, rest⟩ := differ.agreeOn_resolve indifferent (fun s hs seed => ⟨s, hs, rfl, seed⟩)
    (fun s => (asks s).trans (asksSeed_readUnder_int range fits s).symm) words
  refine ⟨rest, fun random ⟨s, hs, own, seed⟩ => agree id ⟨fun other => absurd rfl other, ?_⟩⟩
  exact fun _ => Or.inr ⟨s, hs, own, (asks s).mpr ⟨seed, random⟩⟩

private theorem resolve_of_indifferent
    (indifferent : c.Indifferent (fun _ => True) id (.str (intText n)) (.num (.int n fits))) :
    SameBut [id] (c.resolve inputs words).1 (c.resolve inputs' words).1 ∧
      (g.type = .seed → c.resolve inputs words = c.resolve inputs' words) := by
  obtain ⟨agree, rest⟩ := differ.agreeOn_resolve indifferent (fun _ _ _ => trivial)
    (fun s => (asksSeed_readUnder_intText found range fits s).trans
      (asksSeed_readUnder_int range fits s).symm) words
  have same : SameBut [id] (c.resolve inputs words).1 (c.resolve inputs' words).1 := by
    refine ⟨differ.keys_resolve indifferent words, fun j outside => agree j ⟨fun _ => trivial, ?_⟩⟩
    exact fun own => absurd own (by simpa using outside)
  refine ⟨same, fun seed => ?_⟩
  have read : readUnder id c.inputs (.str (intText n)) =
      readUnder id c.inputs (.num (.int n fits)) := by
    rw [readUnder_intText found range fits, readUnder_num, if_pos seed]
  have own := agree id ⟨fun _ => trivial, fun _ => Or.inl read⟩
  exact Prod.ext (same.eq_of_get? own (c.nodup_keys_resolve inputs words)) rest

end Seen

/-- What an integer for a field and its text are resolved to where resolving sees them, and `g` is
the field that reads the text. -/
structure ReadAlike (c : Config) (f g : Field) (n : Int) (inputs : Object) (words : Words) :
    Prop where
  /-- Where no random seed takes their place, the integer stays, and the text becomes the integer if
  a seed reads it, the double nearest to the integer if a slider does. -/
  values : ¬ (n = randomSeed ∧ c.SeedId f.id) →
    Assoc.get? f.id (c.resolve (plain f n inputs) words).1 = some (.ofInt n) ∧
      Assoc.get? f.id (c.resolve (spelt f n inputs) words).1 =
        some (if g.type = .seed then .ofInt n else .ofDouble (Double.ofInt n))
  /-- Where no condition of a seed tells the two apart, the same seeds are drawn. -/
  drawn : c.Indifferent c.SeedId f.id (.str (intText n)) (.ofInt n) →
    (c.resolve (spelt f n inputs) words).2 = (c.resolve (plain f n inputs) words).2 ∧
      (n = randomSeed → c.SeedId f.id →
        Assoc.get? f.id (c.resolve (spelt f n inputs) words).1 =
          Assoc.get? f.id (c.resolve (plain f n inputs) words).1)
  /-- Where no condition tells the two apart, nothing differs elsewhere. -/
  elsewhere : c.Indifferent (fun _ => True) f.id (.str (intText n)) (.ofInt n) →
    SameBut [f.id] (c.resolve (spelt f n inputs) words).1 (c.resolve (plain f n inputs) words).1
  whole : c.Indifferent (fun _ => True) f.id (.str (intText n)) (.ofInt n) → g.type = .seed →
    c.resolve (spelt f n inputs) words = c.resolve (plain f n inputs) words
  graphs : c.Indifferent (fun _ => True) f.id (.str (intText n)) (.ofInt n) → g.type = .seed →
    (∀ h ∈ c.inputs, h.id = f.id → h.isNumeric = true) →
      c.SameGraphs words (spelt f n inputs) (plain f n inputs)

private theorem readAlike_of_seen (found : c.reader? f.id = some g) (range : InInt64 n)
    (seen : Assoc.get? f.id (c.flatten (spelt f n inputs)) ≠
      Assoc.get? f.id (c.flatten (plain f n inputs))) (words : Words) :
    c.ReadAlike f g n inputs words := by
  have fits : FitsNumber n := range.fits
  have differ := differ_of_seen fits seen
  have own : Value.ofInt n = .num (.int n fits) := Value.ofInt_of_fits fits
  have whole indifferent := (resolve_of_indifferent differ found range words indifferent).2
  constructor
  case values => exact get?_resolve_of_not_random differ found range words
  case drawn =>
    rw [own]
    exact drawn_of_indifferent differ found range words
  case elsewhere =>
    rw [own]
    exact fun indifferent => (resolve_of_indifferent differ found range words indifferent).1
  case whole =>
    rw [own]
    exact whole
  case graphs =>
    rw [own]
    intro indifferent seed numbers
    refine .of_eq (fun maxLoras => ?_) (whole indifferent seed)
    exact differ.check_eq indifferent fun h hh same =>
      Field.check_intText (numbers h hh same) range fits maxLoras

/-- An integer and its text resolve to the same inputs, and the same graph, if later values hide them
both. If they are seen, the first slider or seed with the id reads the text: a seed as the integer, a
slider as the double nearest to it. -/
theorem number_text_resolved (hf : f ∈ c.inputs) (numeric : f.isNumeric = true)
    (range : InInt64 n) (inputs : Object) (words : Words) :
    (Assoc.get? f.id (c.flatten (spelt f n inputs)) =
        Assoc.get? f.id (c.flatten (plain f n inputs)) →
      c.resolve (spelt f n inputs) words = c.resolve (plain f n inputs) words ∧
        c.SameGraphs words (spelt f n inputs) (plain f n inputs)) ∧
    (Assoc.get? f.id (c.flatten (spelt f n inputs)) ≠
        Assoc.get? f.id (c.flatten (plain f n inputs)) →
      ∃ g ∈ c.inputs, c.reader? f.id = some g ∧ c.ReadAlike f g n inputs words) := by
  constructor
  · intro hidden
    have flat := flatten_eq_of_hidden range.fits hidden
    have resolved : c.resolve (spelt f n inputs) words = c.resolve (plain f n inputs) words := by
      rw [resolve, flat, ← resolve]
    exact ⟨resolved, .of_eq (fun _ => check_eq_of_fieldFindings fun g _ => by rw [flat]) resolved⟩
  · intro seen
    obtain ⟨g, hg, found⟩ := exists_reader hf numeric
    exact ⟨g, hg, found, readAlike_of_seen found range seen words⟩

/-- Without conditions a random seed that is asked for by text is the one asked for by number. -/
theorem seed_spelt_resolved :
    bareField "seed" .seed ∈ twoSeeds.inputs ∧ InInt64 (-1) ∧
      twoSeeds.resolve [("cfg", .ofNat 5), ("seed", .str "-1")] twoWords =
        twoSeeds.resolve [("cfg", .ofNat 5), ("seed", .ofInt (-1))] twoWords := by
  have declared : bareField "seed" .seed ∈ twoSeeds.inputs := List.mem_of_getLast? rfl
  have range : InInt64 (-1) := by decide
  have unconditional : ∀ f ∈ twoSeeds.inputs, f.dependsOn?.isNone = true := by decide
  have indifferent : twoSeeds.Indifferent (fun _ => True) "seed" (.str (intText (-1)))
      (.ofInt (-1)) := by
    intro f hf _ x depends
    have none := unconditional f hf
    rw [depends] at none
    exact nomatch none
  obtain ⟨-, seen⟩ := number_text_resolved declared rfl range [("cfg", .ofNat 5)] twoWords
  obtain ⟨g, -, found, read⟩ := seen nofun
  obtain rfl : bareField "seed" .seed = g := Option.some.inj found
  have text : spelt (bareField "seed" .seed) (-1) [("cfg", .ofNat 5)] =
      [("cfg", .ofNat 5), ("seed", .str "-1")] := by
    have minus : intText (-1) = "-1" := by decide +kernel
    rw [spelt, minus]
    rfl
  exact ⟨declared, range, text ▸ read.whole indifferent rfl⟩

def steps : Field := bareField "steps" .slider

def noisySeed : Config := sampling
  [{ noise with dependsOn? := some ⟨"seed", .ofInt randomSeed⟩ }, bareField "seed" .seed]

/-- The text of five becomes a double on a slider. The text of a random seed is no random seed to the
noise, which is therefore not drawn before it. -/
theorem texts_told_from_numbers :
    (steps ∈ (sampling [steps]).inputs ∧ steps.type = .slider ∧
      Assoc.get? "steps" ((sampling [steps]).resolve (plain steps 5 []) ⟨[], 0⟩).1 =
        some (.ofInt 5) ∧
      Assoc.get? "steps" ((sampling [steps]).resolve (spelt steps 5 []) ⟨[], 0⟩).1 =
        some (.ofDouble (Double.ofInt 5)) ∧
      Value.ofDouble (Double.ofInt 5) ≠ .ofInt 5) ∧
    bareField "seed" .seed ∈ noisySeed.inputs ∧
      (Assoc.get? "seed" (noisySeed.resolve
        (plain (bareField "seed" .seed) randomSeed []) twoWords).1).bind Value.int? = some 9 ∧
      (Assoc.get? "seed" (noisySeed.resolve
        (spelt (bareField "seed" .seed) randomSeed []) twoWords).1).bind Value.int? = some 7 := by
  have read : readUnder "steps" (sampling [steps]).inputs (.str (intText 5)) =
      .ofDouble (Double.ofInt 5) := Field.reading_intText_slider rfl (by decide)
  have double : Assoc.get? "steps" ((sampling [steps]).resolve (spelt steps 5 []) ⟨[], 0⟩).1 =
      some (.ofDouble (Double.ofInt 5)) := by
    rw [← read]
    apply get?_resolve_of_get? rfl rfl
    intro s hs _ asks
    obtain rfl : s = steps := List.mem_singleton.mp hs
    exact nomatch asks.1
  have apart : Value.ofDouble (Double.ofInt 5) ≠ .ofInt 5 := by
    rw [Value.ofInt_of_fits (by decide), Value.ofDouble]
    simp
  exact ⟨⟨List.mem_cons_self, rfl, rfl, double, apart⟩, List.mem_of_getLast? rfl,
    by decide +kernel, by decide +kernel⟩

end Config

end WorkflowGraph
