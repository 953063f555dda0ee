/- Values that count as absent: when supplying one is the same as supplying nothing. -/

import WorkflowGraph.Proofs.Gating

set_option autoImplicit false
set_option relaxedAutoImplicit false

/-!
Checking takes null, blank texts, empty lists and empty objects for absent. Filling in defaults and
making actions take null alone for absent. A field with any of the other three keeps that value, as
if no default were declared for it.
-/

namespace WorkflowGraph

/-- Two maps supply every id with the same value, where null counts as none. -/
def Agree (a b : Object) : Prop := ∀ id, suppliedValue? a id = suppliedValue? b id

namespace Agree

variable {a b : Object}

private theorem symm (h : Agree a b) : Agree b a := fun id => (h id).symm

private theorem insert (h : Agree a b) (id : String) (v : Value) :
    Agree (Assoc.insert id v a) (Assoc.insert id v b) := by
  intro other
  by_cases own : other = id
  · subst own
    apply suppliedValue?_congr
    rw [Assoc.get?_insert_self, Assoc.get?_insert_self]
  · have left := suppliedValue?_congr (Assoc.get?_insert_of_ne own v a)
    have right := suppliedValue?_congr (Assoc.get?_insert_of_ne own v b)
    rw [left, right, h other]

private theorem get?_of_asksSeed (h : Agree a b) {f : Field} {v : Value} (asks : f.AsksSeed v)
    (hv : Assoc.get? f.id a = some v) : Assoc.get? f.id b = some v := by
  have notNull : v.isNull = false := by
    cases v with
    | null => exact nomatch asks.2
    | _ => rfl
  have supplied : suppliedValue? a f.id = some v := by simp [suppliedValue?, hv, notNull]
  rw [h f.id] at supplied
  exact (Option.filter_eq_some_iff.mp supplied).1

end Agree

namespace Mappings

theorem compileFlat_congr {m : Mappings} {a b : Object}
    (h : ∀ p ∈ m, suppliedValue? a p.1 = suppliedValue? b p.1) :
    m.compileFlat a = m.compileFlat b := by
  have blocks : m.flatMap (block a) = m.flatMap (block b) := by
    refine List.flatMap_congr fun p hp => ?_
    rw [block, block, h p hp]
  have axes : m.axes a = m.axes b := by
    refine List.filterMap_congr fun p hp => ?_
    rw [h p hp]
  rw [compileFlat, compileFlat, vectorActions, vectorActions, blocks, axes]

end Mappings

namespace Config

variable {c : Config} {f : Field} {a b : Object}

private theorem suppliedValue?_readNumeral_self (acc : Object) (f : Field) :
    suppliedValue? (readNumeral acc f) f.id = (suppliedValue? acc f.id).map f.reading := by
  rw [suppliedValue?, suppliedValue?, get?_readNumeral_self]
  cases Assoc.get? f.id acc with
  | none => rfl
  | some v => cases h : v.isNull <;> simp [Option.filter, f.isNull_reading, h]

private theorem agree_readNumeral (h : Agree a b) (f : Field) :
    Agree (readNumeral a f) (readNumeral b f) := by
  intro id
  by_cases own : id = f.id
  · subst own
    rw [suppliedValue?_readNumeral_self, suppliedValue?_readNumeral_self, h f.id]
  · have left := suppliedValue?_congr (writesOwn_readNumeral a f id own)
    have right := suppliedValue?_congr (writesOwn_readNumeral b f id own)
    rw [left, right, h id]

private theorem agree_drawSeed {s t : Object × Words} (h : Agree s.1 t.1) (words : s.2 = t.2)
    (f : Field) :
    Agree (drawSeed s f).1 (drawSeed t f).1 ∧ (drawSeed s f).2 = (drawSeed t f).2 := by
  by_cases asked : ∃ v, Assoc.get? f.id s.1 = some v ∧ f.AsksSeed v
  · obtain ⟨v, hv, asks⟩ := asked
    rw [drawSeed_of_asksSeed hv asks, drawSeed_of_asksSeed (h.get?_of_asksSeed asks hv) asks, words]
    exact ⟨h.insert f.id _, rfl⟩
  · have none : ∀ v, Assoc.get? f.id s.1 = some v → ¬ f.AsksSeed v := by
      intro v hv asks
      exact asked ⟨v, hv, asks⟩
    have none' : ∀ v, Assoc.get? f.id t.1 = some v → ¬ f.AsksSeed v := by
      intro v hv asks
      exact none v (h.symm.get?_of_asksSeed asks hv) asks
    rw [drawSeed_of_not_asksSeed none, drawSeed_of_not_asksSeed none']
    exact ⟨h, words⟩

private theorem agree_foldl_readNumeral (h : Agree a b) (fields : List Field) :
    Agree (fields.foldl readNumeral a) (fields.foldl readNumeral b) := by
  induction fields generalizing a b with
  | nil => exact h
  | cons f fields ih => exact ih (agree_readNumeral h f)

private theorem agree_foldl_drawSeed {s t : Object × Words} (h : Agree s.1 t.1) (words : s.2 = t.2)
    (fields : List Field) :
    Agree (fields.foldl drawSeed s).1 (fields.foldl drawSeed t).1 ∧
      (fields.foldl drawSeed s).2 = (fields.foldl drawSeed t).2 := by
  induction fields generalizing s t with
  | nil => exact ⟨h, words⟩
  | cons f fields ih =>
    obtain ⟨agree, same⟩ := agree_drawSeed h words f
    exact ih agree same

private theorem agree_resolve {inputs inputs' : Object}
    (h : Agree (c.fillDefaults (c.flatten inputs)) (c.fillDefaults (c.flatten inputs')))
    (words : Words) :
    Agree (c.resolve inputs words).1 (c.resolve inputs' words).1 ∧
      (c.resolve inputs words).2 = (c.resolve inputs' words).2 := by
  have read : Agree (c.readNumerals (c.fillDefaults (c.flatten inputs)))
      (c.readNumerals (c.fillDefaults (c.flatten inputs'))) := agree_foldl_readNumeral h c.inputs
  exact agree_foldl_drawSeed (s := (_, words)) (t := (_, words)) read rfl c.inputs

private theorem flatten_erase (c : Config) (id : String) (inputs : Object) :
    c.flatten (Assoc.erase id (c.flatten inputs)) = Assoc.erase id (c.flatten inputs) := by
  refine flattenDeclared_of_keptWhole ?_ (Assoc.nodup_keys_erase (nodup_keys_flattenDeclared _) id)
  intro p hp
  exact keptWhole_of_mem_flattenDeclared (List.mem_of_mem_filter hp)

theorem dependencyMet_congr
    (h : ∀ d, f.dependsOn? = some d → c.gateValue? a d.field = c.gateValue? b d.field) :
    c.dependencyMet f a = c.dependencyMet f b := by
  cases hd : f.dependsOn? with
  | none => simp [dependencyMet, hd]
  | some d => simp [dependencyMet, hd, h d hd]

section Erased

variable {supplied : Object} {v : Value}

private theorem gateValue?_erase_of_ne {id : String} (other : id ≠ f.id) :
    c.gateValue? (Assoc.erase f.id supplied) id = c.gateValue? supplied id := by
  rw [gateValue?, gateValue?, Assoc.get?_erase_of_ne other]

private theorem gateValue?_erase (distinct : (c.inputs.map Field.id).Nodup) (hf : f ∈ c.inputs)
    (value : Assoc.get? f.id supplied = some v) (h : v = .null ∨ f.default? = some v)
    (id : String) : c.gateValue? (Assoc.erase f.id supplied) id = c.gateValue? supplied id := by
  by_cases own : id = f.id
  · subst own
    rw [gateValue?, gateValue?, Assoc.get?_erase_self, value, field?_of_mem distinct hf]
    rcases h with rfl | default
    · rfl
    · cases v <;> simp [default, Option.filter, Value.isNull]
  · exact gateValue?_erase_of_ne own

private theorem dependencyMet_erase (distinct : (c.inputs.map Field.id).Nodup) (hf : f ∈ c.inputs)
    (value : Assoc.get? f.id supplied = some v) (h : v = .null ∨ f.default? = some v) (g : Field) :
    c.dependencyMet g (Assoc.erase f.id supplied) = c.dependencyMet g supplied :=
  dependencyMet_congr fun d _ => gateValue?_erase distinct hf value h d.field

private theorem filled?_of_get? (value : Assoc.get? f.id supplied = some v)
    (applies : c.dependencyMet f supplied = true) :
    c.filled? supplied f = if v.isNull then f.default?.or (some v) else some v := by
  simp [filled?, isMissing, value, applies]

private theorem filled?_erase_self (accepted : c.validate = .ok ()) (hf : f ∈ c.inputs)
    (applies : c.dependencyMet f supplied = true) :
    c.filled? (Assoc.erase f.id supplied) f = f.default? := by
  have gate : c.dependencyMet f (Assoc.erase f.id supplied) = true := by
    rw [← applies]
    exact dependencyMet_congr fun d hd => gateValue?_erase_of_ne (dependency_ne accepted hf hd)
  simp [filled?, isMissing, Assoc.get?_erase_self, gate]

private theorem agree_fillDefaults_erase (accepted : c.validate = .ok ()) (hf : f ∈ c.inputs)
    (value : Assoc.get? f.id supplied = some v) (applies : c.dependencyMet f supplied = true)
    (h : v = .null ∨ f.default? = some v) :
    Agree (c.fillDefaults supplied) (c.fillDefaults (Assoc.erase f.id supplied)) := by
  have distinct := nodup_ids accepted
  intro id
  rw [suppliedValue?, suppliedValue?]
  by_cases declared : id ∈ c.inputs.map Field.id
  · obtain ⟨g, hg, rfl⟩ := List.mem_map.mp declared
    rw [get?_fillDefaults distinct hg, get?_fillDefaults distinct hg]
    by_cases own : g.id = f.id
    · obtain rfl : g = f := by
        have found := field?_of_mem distinct hg
        rw [own, field?_of_mem distinct hf] at found
        exact (Option.some.inj found).symm
      -- null gives way to the default, and the default stands for itself
      rw [filled?_erase_self accepted hf applies, filled?_of_get? value applies]
      rcases h with rfl | default
      · cases g.default? <;> rfl
      · rw [default]
        cases v.isNull <;> rfl
    · have same := Assoc.get?_erase_of_ne own supplied
      rw [filled?, filled?, dependencyMet_erase distinct hf value h, same, isMissing_congr same]
  · have other : id ≠ f.id := by
      rintro rfl
      exact declared (List.mem_map_of_mem hf)
    rw [get?_fillDefaults_of_not_mem declared, get?_fillDefaults_of_not_mem declared,
      Assoc.get?_erase_of_ne other]

private theorem fieldFindings_erase (maxLoras : Nat) (distinct : (c.inputs.map Field.id).Nodup)
    (hf : f ∈ c.inputs) (value : Assoc.get? f.id supplied = some v) (absent : v.isAbsent = true)
    (h : v = .null ∨ f.default? = some v) (g : Field) :
    c.fieldFindings maxLoras (Assoc.erase f.id supplied) g =
      c.fieldFindings maxLoras supplied g := by
  rw [fieldFindings, fieldFindings, dependencyMet_erase distinct hf value h]
  by_cases own : g.id = f.id
  · rw [own, Assoc.get?_erase_self, value, g.check_of_isAbsent maxLoras absent]
  · rw [Assoc.get?_erase_of_ne own]

end Erased

variable {inputs : Object} {words : Words} {v : Value}

private theorem check_erase (maxLoras : Nat) (distinct : (c.inputs.map Field.id).Nodup)
    (hf : f ∈ c.inputs) (value : Assoc.get? f.id (c.flatten inputs) = some v)
    (absent : v.isAbsent = true) (h : v = .null ∨ f.default? = some v) :
    c.check maxLoras (Assoc.erase f.id (c.flatten inputs)) = c.check maxLoras inputs := by
  have findings := fieldFindings_erase maxLoras distinct hf value absent h
  simp only [check, flatten_erase, findings]

private theorem agree_resolve_erase (accepted : c.validate = .ok ()) (hf : f ∈ c.inputs)
    (value : Assoc.get? f.id (c.flatten inputs) = some v)
    (applies : c.dependencyMet f (c.flatten inputs) = true)
    (h : v = .null ∨ f.default? = some v) (words : Words) :
    Agree (c.resolve inputs words).1
        (c.resolve (Assoc.erase f.id (c.flatten inputs)) words).1 ∧
      (c.resolve inputs words).2 =
        (c.resolve (Assoc.erase f.id (c.flatten inputs)) words).2 := by
  apply agree_resolve
  rw [flatten_erase]
  exact agree_fillDefaults_erase accepted hf value applies h

private theorem suppliedValue?_resolve_erase_iff (accepted : c.validate = .ok ())
    (hf : f ∈ c.inputs) (value : Assoc.get? f.id (c.flatten inputs) = some v)
    (absent : v.isAbsent = true) (applies : c.dependencyMet f (c.flatten inputs) = true)
    (words : Words) :
    suppliedValue? (c.resolve inputs words).1 f.id =
        suppliedValue? (c.resolve (Assoc.erase f.id (c.flatten inputs)) words).1 f.id ↔
      v = .null ∨ f.default? = some v := by
  have distinct := nodup_ids accepted
  constructor
  · intro same
    rw [or_iff_not_imp_left]
    intro notNull
    have notNull : ¬ v.isNull = true := by rwa [Value.isNull_eq_true_iff]
    have kept := get?_resolve distinct hf inputs words
    have without := get?_resolve distinct hf (Assoc.erase f.id (c.flatten inputs)) words
    rw [filled?_of_get? value applies, if_neg notNull] at kept
    rw [flatten_erase, filled?_erase_self accepted hf applies] at without
    have found : Assoc.get? f.id (c.resolve inputs words).1 = some v :=
      (Field.Settles.eq_some_iff kept absent).mp rfl
    rw [suppliedValue?, found, Option.filter_some_pos (by simpa using notNull)] at same
    have found' := (Option.filter_eq_some_iff.mp same.symm).1
    exact (Field.Settles.eq_some_iff without absent).mpr found'
  · intro h
    exact (agree_resolve_erase accepted hf value applies h words).1 f.id

/-- Where a field applies, a value for it that counts as absent leaves it with what it has without
that value exactly when the value is null or the default itself. Then a compilation without the
value succeeds as well, with the same report, the same words left and values that agree, and with
the same actions if in neither of the two any nested value overrides one that is mapped. -/
theorem absent_value_erasable (accepted : c.validate = .ok ()) (hf : f ∈ c.inputs)
    (value : Assoc.get? f.id (c.flatten inputs) = some v) (absent : v.isAbsent = true)
    (applies : c.dependencyMet f (c.flatten inputs) = true) (maxLoras : Nat) (words : Words) :
    (suppliedValue? (c.resolve inputs words).1 f.id =
        suppliedValue? (c.resolve (Assoc.erase f.id (c.flatten inputs)) words).1 f.id ↔
      v = .null ∨ f.default? = some v) ∧
    ∀ compiled rest, c.compile maxLoras inputs words = .ok (compiled, rest) →
      v = .null ∨ f.default? = some v →
      ∃ compiled', c.compile maxLoras (Assoc.erase f.id (c.flatten inputs)) words =
          .ok (compiled', rest) ∧
        compiled'.report = compiled.report ∧ Agree compiled.inputs compiled'.inputs ∧
        ((∀ id, Assoc.contains id c.mappings = true → ∀ w,
            ¬ c.Overrides compiled.inputs id w ∧ ¬ c.Overrides compiled'.inputs id w) →
          compiled'.actions = compiled.actions) := by
  refine ⟨suppliedValue?_resolve_erase_iff accepted hf value absent applies words, ?_⟩
  intro compiled rest run h
  obtain ⟨valid, rfl, rfl⟩ := compile_eq_ok_iff.mp run
  have report := check_erase maxLoras (nodup_ids accepted) hf value absent h
  obtain ⟨agree, left⟩ := agree_resolve_erase accepted hf value applies h words
  have run' := compile_of_isValid (by rw [report, valid]) words
  rw [← left] at run'
  refine ⟨_, run', report, agree, ?_⟩
  intro free
  refine (Mappings.compileFlat_congr fun p hp => ?_).symm
  have mapped : Assoc.contains p.1 c.mappings = true :=
    (Assoc.contains_iff_mem_keys p.1 c.mappings).mpr (List.mem_map_of_mem hp)
  have first := suppliedValue?_seen mapped fun w => (free p.1 mapped w).1
  have second := suppliedValue?_seen mapped fun w => (free p.1 mapped w).2
  exact first.trans ((agree p.1).trans second.symm)

def prompt : Field := { bareField "prompt" .text with default? := some (.str "a cat") }

def captioning : Config := { upscaling with
  name := "Captioning"
  inputs := [prompt]
  mappings := [("prompt", .widget ⟨some scalerId, [], [0], none, [], none, none, none⟩)] }

private theorem captioning_accepted : captioning.validate = .ok () := by
  rw [validate_eq_ok_iff, ← List.isEmpty_iff]
  decide +kernel

def writePrompt (s : String) : Action := .modifyWidget ⟨scalerId, [0], [], .str s, none⟩

/-- With null for a prompt the default is written, as without a prompt. -/
theorem null_prompt_erasable : ∃ compiled compiled' rest,
    captioning.compile defaultMaxLoras [("prompt", .null)] ⟨[], 0⟩ = .ok (compiled, rest) ∧
      captioning.compile defaultMaxLoras [] ⟨[], 0⟩ = .ok (compiled', rest) ∧
      compiled'.actions = compiled.actions ∧ compiled.actions = [writePrompt "a cat"] := by
  have valid : (captioning.check defaultMaxLoras [("prompt", .null)]).isValid = true := by
    decide +kernel
  have run := compile_of_isValid valid ⟨[], 0⟩
  have value : Assoc.get? prompt.id (captioning.flatten [("prompt", .null)]) = some .null := rfl
  obtain ⟨compiled', run', -, -, same⟩ := (absent_value_erasable captioning_accepted
    List.mem_cons_self value rfl (by decide +kernel) defaultMaxLoras ⟨[], 0⟩).2 _ _ run (Or.inl rfl)
  have erased : Assoc.erase prompt.id (captioning.flatten [("prompt", .null)]) = [] := rfl
  rw [erased] at run'
  refine ⟨_, compiled', _, run, run', same ?_, rfl⟩
  intro id _ w
  obtain ⟨-, rfl, -⟩ := compile_eq_ok_iff.mp run'
  have resolved : (captioning.resolve [("prompt", .null)] ⟨[], 0⟩).1 =
      [("prompt", .str "a cat")] := rfl
  have resolved' : (captioning.resolve [] ⟨[], 0⟩).1 = [("prompt", .str "a cat")] := rfl
  constructor
  · exact not_overrides_of_no_object (by simp [resolved, Value.object?]) id w
  · exact not_overrides_of_no_object (by simp [resolved', Value.object?]) id w

/-- A blank text for a prompt passes for none when it is checked, and still it is written in place
of the default that is written without it. -/
theorem blank_prompt_written :
    captioning.validate = .ok () ∧ prompt ∈ captioning.inputs ∧
      captioning.dependencyMet prompt (captioning.flatten [("prompt", .str "")]) = true ∧
      (Value.str "").isAbsent = true ∧
      Assoc.erase prompt.id (captioning.flatten [("prompt", .str "")]) = [] ∧
      ∃ compiled compiled' rest rest',
        captioning.compile defaultMaxLoras [("prompt", .str "")] ⟨[], 0⟩ = .ok (compiled, rest) ∧
        captioning.compile defaultMaxLoras [] ⟨[], 0⟩ = .ok (compiled', rest') ∧
        compiled.actions = [writePrompt ""] ∧ compiled'.actions = [writePrompt "a cat"] ∧
        compiled.actions ≠ compiled'.actions := by
  have valid : (captioning.check defaultMaxLoras [("prompt", .str "")]).isValid = true := by
    decide +kernel
  have valid' : (captioning.check defaultMaxLoras []).isValid = true := by decide +kernel
  have blank : captioning.mappings.compile (captioning.resolve [("prompt", .str "")] ⟨[], 0⟩).1 =
      [writePrompt ""] := rfl
  have default : captioning.mappings.compile (captioning.resolve [] ⟨[], 0⟩).1 =
      [writePrompt "a cat"] := rfl
  refine ⟨captioning_accepted, List.mem_cons_self, by decide +kernel, by decide, rfl,
    _, _, _, _, compile_of_isValid valid _, compile_of_isValid valid' _, blank, default, ?_⟩
  rw [blank, default]
  simp [writePrompt]

end Config

end WorkflowGraph
