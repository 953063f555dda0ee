/- Running resolved inputs again: when they are resolved, and give the same actions, once more. -/

import WorkflowGraph.Proofs.FieldValues
import WorkflowGraph.Proofs.Targets

set_option autoImplicit false
set_option relaxedAutoImplicit false

/-!
Inputs are checked before they are resolved, so what a first run fills in, and what it keeps for a
field whose condition does not hold, goes unchecked. A second run on the resolved inputs checks it
where the condition holds by then: reading numerals and drawing seeds may change what a condition
sees. Apart from that nothing changes, because numerals, seeds and defaults leave nothing to do.
-/

namespace WorkflowGraph

namespace Config

variable {c : Config} {f : Field} {inputs : Object} {words : Words}

/-- Every default that is filled in stays whole when the resolved inputs are flattened: it is no
object on a field that is declared a section. -/
def DefaultsWhole (c : Config) (supplied : Object) : Prop :=
  ∀ f ∈ c.inputs, isMissing supplied f.id = true → c.dependencyMet f supplied = true →
    ∀ v, f.default? = some v → KeptWhole c.shapeOf f.id v

/-- The check of supplied values says nothing of what the field has once they are resolved: its
condition does not hold, or its default is filled in. -/
def Unchecked (c : Config) (supplied : Object) (f : Field) : Prop :=
  c.dependencyMet f supplied = false ∨ isMissing supplied f.id = true ∧ f.default?.isSome = true

/-- A compilation of the resolved inputs gives them and their actions back, whatever the words, and
draws none. -/
def Replays (maxLoras : Nat) (c : Config) (compiled : Compiled) : Prop :=
  ∀ words, ∃ report, c.compile maxLoras compiled.inputs words =
    .ok ({ compiled with report := report }, words)

/-- Running with the field's value again neither fails nor changes it. -/
structure Replayable (maxLoras : Nat) (flat : Object) (f : Field) : Prop where
  passes : f.Passes maxLoras (Assoc.get? f.id flat)
  settled : isMissing flat f.id = true → f.default? = none ∨ f.default? = Assoc.get? f.id flat

theorem exists_settles (distinct : (c.inputs.map Field.id).Nodup) (hf : f ∈ c.inputs) {w : Value}
    (hw : Assoc.get? f.id (c.resolve inputs words).1 = some w) :
    ∃ v, c.filled? (c.flatten inputs) f = some v ∧ f.Settles v w := by
  have settled := get?_resolve distinct hf inputs words
  rw [hw] at settled
  cases h : c.filled? (c.flatten inputs) f with
  | none =>
    rw [h] at settled
    cases settled
  | some v =>
    rw [h] at settled
    cases settled with
    | some settles => exact ⟨v, rfl, settles⟩

theorem filled?_eq_some {supplied : Object} {v : Value} (h : c.filled? supplied f = some v) :
    Assoc.get? f.id supplied = some v ∨
      isMissing supplied f.id = true ∧ c.dependencyMet f supplied = true ∧ f.default? = some v := by
  rw [filled?] at h
  split at h
  · rename_i fills
    rw [Bool.and_eq_true] at fills
    rcases Option.or_eq_some_iff.mp h with default | ⟨-, own⟩
    · exact Or.inr ⟨fills.1, fills.2, default⟩
    · exact Or.inl own
  · exact Or.inl h

private theorem keptWhole_of_mem_resolve (distinct : (c.inputs.map Field.id).Nodup)
    (whole : c.DefaultsWhole (c.flatten inputs)) {p : String × Value}
    (hp : p ∈ (c.resolve inputs words).1) : KeptWhole c.shapeOf p.1 p.2 := by
  have found := Assoc.get?_of_mem (c.nodup_keys_resolve inputs words) hp
  have flat : ∀ v, Assoc.get? p.1 (c.flatten inputs) = some v → KeptWhole c.shapeOf p.1 v :=
    fun v hv => keptWhole_of_mem_flattenDeclared (Assoc.mem_of_get? hv)
  by_cases declared : p.1 ∈ c.inputs.map Field.id
  · obtain ⟨f, hf, hid⟩ := List.mem_map.mp declared
    rw [← hid] at found flat ⊢
    obtain ⟨v, filled, settles⟩ := exists_settles distinct hf found
    -- a number is whole; any other value was supplied, and is a leaf, or is the default
    rcases settles.cases_num with same | ⟨-, n, number⟩
    · rw [same]
      rcases filled?_eq_some filled with supplied | ⟨missing, applies, default⟩
      · exact flat v supplied
      · exact whole f hf missing applies v default
    · rw [number]
      exact fun members he => nomatch he
  · rw [get?_resolve_of_not_mem declared] at found
    exact flat p.2 found

private theorem flatten_resolve (distinct : (c.inputs.map Field.id).Nodup)
    (whole : c.DefaultsWhole (c.flatten inputs)) (words : Words) :
    c.flatten (c.resolve inputs words).1 = (c.resolve inputs words).1 :=
  flattenDeclared_of_keptWhole (fun _ hp => keptWhole_of_mem_resolve distinct whole hp)
    (c.nodup_keys_resolve inputs words)

section Fixed

variable {flat : Object}

private theorem fillDefaults_eq_self (h : ∀ f ∈ c.inputs, c.dependencyMet f flat = true →
    isMissing flat f.id = true → f.default? = none ∨ f.default? = Assoc.get? f.id flat) :
    c.fillDefaults flat = flat := by
  refine List.foldlRecOn (motive := fun acc => acc = flat) c.inputs _ rfl fun acc same f hf => ?_
  subst same
  rcases c.fillDefault_cases acc acc f with kept | ⟨v, default, missing, applies, filled⟩
  · exact kept
  · have own : Assoc.get? f.id acc = some v := by
      rcases h f hf applies missing with none | some
      · exact nomatch none.symm.trans default
      · exact some.symm.trans default
    rw [filled, Assoc.insert_of_get? own]

private theorem readNumerals_eq_self
    (h : ∀ f ∈ c.inputs, ∀ v, Assoc.get? f.id flat = some v → f.Steady v) :
    c.readNumerals flat = flat := by
  refine List.foldlRecOn (motive := fun acc => acc = flat) c.inputs _ rfl fun acc same f hf => ?_
  subst same
  cases own : Assoc.get? f.id acc with
  | none => exact Assoc.modify_of_get?_eq_none own _
  | some v =>
    have read := Assoc.modify_of_get? own f.reading
    rw [(h f hf v own).reading, Assoc.insert_of_get? own] at read
    exact read

private theorem drawSeeds_eq_self
    (h : ∀ f ∈ c.inputs, ∀ v, Assoc.get? f.id flat = some v → f.Steady v) (words : Words) :
    c.drawSeeds flat words = (flat, words) := by
  refine List.foldlRecOn (motive := fun s => s = (flat, words)) c.inputs _ rfl
    fun s same f hf => ?_
  subst same
  exact drawSeed_of_not_asksSeed fun v own => (h f hf v own).asksNone

end Fixed

private theorem resolve_resolve (distinct : (c.inputs.map Field.id).Nodup)
    (whole : c.DefaultsWhole (c.flatten inputs))
    (h : ∀ f ∈ c.inputs, c.dependencyMet f (c.resolve inputs words).1 = true →
      isMissing (c.resolve inputs words).1 f.id = true →
      f.default? = none ∨ f.default? = Assoc.get? f.id (c.resolve inputs words).1)
    (words' : Words) :
    c.resolve (c.resolve inputs words).1 words' = ((c.resolve inputs words).1, words') := by
  have steady : ∀ f ∈ c.inputs, ∀ v, Assoc.get? f.id (c.resolve inputs words).1 = some v →
      f.Steady v := by
    intro f hf w hw
    obtain ⟨v, -, settles⟩ := exists_settles distinct hf hw
    exact settles.steady
  rw [resolve, flatten_resolve distinct whole, fillDefaults_eq_self h, readNumerals_eq_self steady,
    drawSeeds_eq_self steady]

theorem isMissing_iff (flat : Object) (id : String) :
    isMissing flat id = true ↔ (Assoc.get? id flat).filter (fun v => !v.isNull) = none := by
  rw [isMissing]
  cases Assoc.get? id flat with
  | none => simp
  | some v => simp [Option.filter_eq_none_iff]

private theorem replayable_of_checked {maxLoras : Nat} (distinct : (c.inputs.map Field.id).Nodup)
    (hf : f ∈ c.inputs) (valid : (c.check maxLoras inputs).isValid = true)
    (checked : ¬ c.Unchecked (c.flatten inputs) f) (words : Words) :
    Replayable maxLoras (c.resolve inputs words).1 f := by
  obtain ⟨applies, nothing⟩ := not_or.mp checked
  rw [Bool.not_eq_false] at applies
  have noDefault : isMissing (c.flatten inputs) f.id = true → f.default? = none := by
    intro missing
    simpa [missing] using nothing
  have unfilled : c.filled? (c.flatten inputs) f = Assoc.get? f.id (c.flatten inputs) :=
    filled?_eq_get? fun missing _ => noDefault missing
  have settled := get?_resolve distinct hf inputs words
  rw [unfilled] at settled
  constructor
  · exact ((check_isValid_iff maxLoras c inputs).mp valid f hf applies).of_rel settled
  · intro missing
    rw [isMissing_iff, ← Field.Settles.filter_eq_none_iff settled, ← isMissing_iff] at missing
    exact Or.inl (noDefault missing)

private theorem replayable_of_resolve {maxLoras : Nat} {flat : Object}
    (distinct : (c.inputs.map Field.id).Nodup) (hf : f ∈ c.inputs) (isFlat : c.flatten flat = flat)
    (valid : (c.check maxLoras flat).isValid = true) (same : (c.resolve flat words).1 = flat)
    (applies : c.dependencyMet f flat = true) : Replayable maxLoras flat f := by
  constructor
  · have passes := (check_isValid_iff maxLoras c flat).mp valid f hf
    rw [isFlat] at passes
    exact passes applies
  · intro missing
    cases default : f.default? with
    | none => exact Or.inl rfl
    | some d =>
      -- the default goes in, so it can only be the null that is there
      have filled : c.filled? flat f = some d := by simp [filled?, missing, applies, default]
      have settled := get?_resolve distinct hf flat words
      rw [isFlat, filled, same] at settled
      cases own : Assoc.get? f.id flat with
      | none =>
        rw [own] at settled
        cases settled
      | some w =>
        have null : w = .null := by simpa [isMissing, own, Value.isNull_eq_true_iff] using missing
        right
        rw [null] at own ⊢
        exact (Field.Settles.eq_some_iff settled rfl).mpr own

/-- The outcome of a compilation can be had again from its resolved inputs, with any words and
without drawing one, exactly when every field that the first check says nothing of can be run again,
if its condition holds for the resolved inputs. -/
theorem replays_iff {maxLoras : Nat} {compiled : Compiled} {rest : Words}
    (accepted : c.validate = .ok ()) (whole : c.DefaultsWhole (c.flatten inputs))
    (run : c.compile maxLoras inputs words = .ok (compiled, rest)) :
    c.Replays maxLoras compiled ↔
      ∀ f ∈ c.inputs, c.Unchecked (c.flatten inputs) f →
        c.dependencyMet f compiled.inputs = true → Replayable maxLoras compiled.inputs f := by
  have distinct := nodup_ids accepted
  obtain ⟨valid, rfl, -⟩ := compile_eq_ok_iff.mp run
  have isFlat := flatten_resolve distinct whole words
  constructor
  · intro again f hf _ applies
    obtain ⟨report, again⟩ := again words
    obtain ⟨validAgain, same, -⟩ := compile_eq_ok_iff.mp again
    have inputsAgain := congrArg Compiled.inputs same
    exact replayable_of_resolve distinct hf isFlat validAgain inputsAgain.symm applies
  · intro h words'
    have replayable : ∀ f ∈ c.inputs, c.dependencyMet f (c.resolve inputs words).1 = true →
        Replayable maxLoras (c.resolve inputs words).1 f := by
      intro f hf applies
      by_cases unchecked : c.Unchecked (c.flatten inputs) f
      · exact h f hf unchecked applies
      · exact replayable_of_checked distinct hf valid unchecked words
    have validAgain : (c.check maxLoras (c.resolve inputs words).1).isValid = true := by
      rw [check_isValid_iff, isFlat]
      exact fun f hf applies => (replayable f hf applies).passes
    have resolved := resolve_resolve distinct whole
      (fun f hf applies => (replayable f hf applies).settled) words'
    have again := compile_of_isValid validAgain words'
    rw [resolved] at again
    exact ⟨_, again⟩

def strength : Field := { bareField "strength" .slider with
  default? := some (.ofNat 5)
  max? := some (Double.ofInt 20) }

def noise : Field := { bareField "noise" .seed with default? := some (.ofInt randomSeed) }

def sampling (inputs : List Field) : Config := { upscaling with
  name := "Sampling"
  inputs := inputs
  mappings := [("strength", .widget ⟨some scalerId, [], [0], none, [], none, none, none⟩)] }

/-- Defaults within their bounds and a drawn seed can be run again. -/
theorem sampled_defaults_replay : ∃ compiled rest,
    (sampling [strength, noise]).compile defaultMaxLoras [] ⟨[42], 0⟩ = .ok (compiled, rest) ∧
      rest.taken = 1 ∧ (sampling [strength, noise]).Replays defaultMaxLoras compiled := by
  have accepted : (sampling [strength, noise]).validate = .ok () := by
    rw [validate_eq_ok_iff, ← List.isEmpty_iff]
    decide +kernel
  have valid : ((sampling [strength, noise]).check defaultMaxLoras []).isValid = true := by
    decide +kernel
  have whole : (sampling [strength, noise]).DefaultsWhole
      ((sampling [strength, noise]).flatten []) := by
    intro f hf _ _ v default members object
    subst object
    rcases (by simpa [sampling] using hf : f = strength ∨ f = noise) with rfl | rfl
    · exact nomatch default
    · exact nomatch default
  have run := compile_of_isValid valid ⟨[42], 0⟩
  refine ⟨_, _, run, by decide +kernel, (replays_iff accepted whole run).mpr ?_⟩
  intro f hf _ _
  rcases (by simpa [sampling] using hf : f = strength ∨ f = noise) with rfl | rfl
  · exact ⟨by decide +kernel, fun missing => absurd missing (by decide +kernel)⟩
  · exact ⟨by decide +kernel, fun missing => absurd missing (by decide +kernel)⟩

def overStrength : Field := { strength with default? := some (.ofNat 50) }

/-- A number of steps, and a share that applies to eight of them. -/
def stepFields : List Field := [bareField "steps" .slider,
  { bareField "share" .slider with
    default? := some (.ofNat 1)
    dependsOn? := some ⟨"steps", .ofNat 8⟩ }]

def group : Field := { bareField "group" .unknown with
  default? := some (.obj [("size", .ofNat 1)])
  shape? := some .section }

private theorem not_replays_of_length {maxLoras : Nat} {compiled : Compiled}
    (h : (c.resolve compiled.inputs ⟨[], 0⟩).1.length ≠ compiled.inputs.length) :
    ¬ c.Replays maxLoras compiled := by
  intro again
  obtain ⟨report, again⟩ := again ⟨[], 0⟩
  have same := congrArg (fun compiled => compiled.inputs.length) (compile_eq_ok_iff.mp again).2.1
  exact h same.symm

/-- A default beyond its bound fails the second check; steps that came as a text are read as a
number, for which the share applies and its default goes in; and settings that went in as a section
are opened. -/
theorem runs_not_replayed :
    (∃ compiled rest, (sampling [overStrength]).validate = .ok () ∧
      (sampling [overStrength]).compile defaultMaxLoras [] ⟨[], 0⟩ = .ok (compiled, rest) ∧
      ¬ (sampling [overStrength]).Replays defaultMaxLoras compiled) ∧
    (∃ compiled rest, (sampling stepFields).validate = .ok () ∧
      (sampling stepFields).compile defaultMaxLoras [("steps", .str "8")] ⟨[], 0⟩ =
        .ok (compiled, rest) ∧
      ¬ (sampling stepFields).Replays defaultMaxLoras compiled) ∧
    ∃ compiled rest, (sampling [group]).validate = .ok () ∧
      (sampling [group]).compile defaultMaxLoras [] ⟨[], 0⟩ = .ok (compiled, rest) ∧
      ¬ (sampling [group]).Replays defaultMaxLoras compiled := by
  have accepted : ∀ c ∈ [sampling [overStrength], sampling stepFields, sampling [group]],
      c.validate = .ok () := by
    simp only [validate_eq_ok_iff, ← List.isEmpty_iff]
    decide +kernel
  refine ⟨⟨_, _, accepted _ (by simp), compile_of_isValid (by decide +kernel) _, ?_⟩,
    ⟨_, _, accepted _ (by simp), compile_of_isValid (by decide +kernel) _, ?_⟩,
    ⟨_, _, accepted _ (by simp), compile_of_isValid (by decide +kernel) _, ?_⟩⟩
  · intro again
    obtain ⟨report, again⟩ := again ⟨[], 0⟩
    exact absurd (compile_eq_ok_iff.mp again).1 (by decide +kernel)
  · exact not_replays_of_length (by decide +kernel)
  · exact not_replays_of_length (by decide +kernel)

end Config

end WorkflowGraph
