/- Resolving inputs key by key: what goes in behind them, what is read, and which seeds are drawn. -/

import WorkflowGraph.Proofs.Replay

set_option autoImplicit false
set_option relaxedAutoImplicit false

/-!
Where ids are distinct, resolving flat inputs can be said in one go. The keys are those of the
inputs, then the fields whose defaults go in. The values are the supplied ones or the defaults, with
texts on numeric fields read as numbers. Of these the seeds that ask for a random one are replaced,
one draw after another in the order of declaration, and nothing else depends on the words.
-/

namespace WorkflowGraph

/-- Two maps have the same keys in the same order, and the same values except under some ids. -/
structure SameBut (ids : List String) (a b : Object) : Prop where
  keys : Assoc.keys a = Assoc.keys b
  values : ∀ id, id ∉ ids → Assoc.get? id a = Assoc.get? id b

private theorem SameBut.eq {a b : Object} (h : SameBut [] a b) (nodup : (Assoc.keys a).Nodup) :
    a = b :=
  Assoc.eq_of_get? h.keys nodup fun id => h.values id List.not_mem_nil

namespace Words

/-- A number of draws, one after another: their seeds, and the words that are left. -/
def draws : Nat → Words → List Nat × Words
  | 0, ws => ([], ws)
  | n + 1, ws => (ws.draw.1 :: (draws n ws.draw.2).1, (draws n ws.draw.2).2)

private theorem lt_of_mem_draws {n seed : Nat} {ws : Words} (h : seed ∈ (draws n ws).1) :
    seed < seedBound := by
  induction n generalizing ws with
  | zero => exact absurd h List.not_mem_nil
  | succ n ih =>
    rcases List.mem_cons.mp h with rfl | later
    · exact draw_fst_lt ws
    · exact ih later

end Words

namespace Field

variable {f : Field} {fields : List Field}

def asksIn (flat : Object) (f : Field) : Bool :=
  (Assoc.get? f.id flat).any fun v => decide (f.AsksSeed v)

theorem asksIn_iff {flat : Object} :
    f.asksIn flat = true ↔ ∃ v, Assoc.get? f.id flat = some v ∧ f.AsksSeed v := by
  simp [asksIn, Option.any_eq_true]

theorem asksIn_insert_of_ne {id : String} (other : f.id ≠ id) (v : Value) (flat : Object) :
    f.asksIn (Assoc.insert id v flat) = f.asksIn flat := by
  rw [asksIn, asksIn, Assoc.get?_insert_of_ne other]

/-- What a value of a field is read as: on a slider the double that a text spells, on a seed the
integer, and else the value itself. -/
inductive StandsFor (f : Field) : Value → Value → Prop
  | double {s : String} {d : Double} : f.type = .slider → (Value.str s).float? = some d →
      StandsFor f (.str s) (.num (.double d))
  | int {s : String} {i : Int} (fits : FitsNumber i) : f.type = .seed →
      (Value.str s).int? = some i → StandsFor f (.str s) (.num (.int i fits))
  | same {v : Value} : (∀ s, v = .str s → (f.type = .slider → v.float? = none) ∧
      (f.type = .seed → v.int? = none)) → StandsFor f v v

private theorem standsFor_reading (f : Field) (v : Value) : f.StandsFor v (f.reading v) := by
  cases v with
  | str s =>
    by_cases slider : f.type = .slider
    · rw [reading_str_of_slider slider]
      cases spelled : (Value.str s).float? with
      | some d => exact .double slider spelled
      | none =>
        refine .same fun _ _ => ⟨fun _ => spelled, fun seed => ?_⟩
        exact nomatch slider.symm.trans seed
    · by_cases seed : f.type = .seed
      · rw [reading_str_of_seed seed]
        cases spelled : (Value.str s).int? with
        | some i =>
          have fits : FitsNumber i := (Value.inInt64_of_int? spelled).fits
          rw [Option.map_some, Option.getD_some, Value.ofInt_of_fits fits]
          exact .int fits seed spelled
        | none => exact .same fun _ _ => ⟨fun h => absurd h slider, fun _ => spelled⟩
      · rw [reading_of_type slider seed]
        exact .same fun _ _ => ⟨fun h => absurd h slider, fun h => absurd h seed⟩
  | _ => exact .same fun s h => nomatch h

end Field

namespace Config

variable {c : Config} {f : Field} {fields : List Field}

theorem drawSeed_eq (s : Object × Words) (f : Field) :
    drawSeed s f =
      if f.asksIn s.1 then (Assoc.insert f.id (.ofNat s.2.draw.1) s.1, s.2.draw.2) else s := by
  by_cases asks : f.asksIn s.1 = true
  · obtain ⟨v, hv, asks'⟩ := Field.asksIn_iff.mp asks
    rw [if_pos asks, drawSeed_of_asksSeed hv asks']
  · rw [if_neg asks]
    apply drawSeed_of_not_asksSeed
    intro v hv asks'
    exact asks (Field.asksIn_iff.mpr ⟨v, hv, asks'⟩)

private theorem foldl_drawSeed (distinct : (fields.map Field.id).Nodup) (s : Object × Words) :
    (fields.foldl drawSeed s).2 = (s.2.draws (fields.filter (·.asksIn s.1)).length).2 ∧
      (fields.filter (·.asksIn s.1)).map
          (fun f => Assoc.get? f.id (fields.foldl drawSeed s).1) =
        (s.2.draws (fields.filter (·.asksIn s.1)).length).1.map
          fun seed => some (Value.ofNat seed) := by
  induction fields generalizing s with
  | nil => exact ⟨rfl, rfl⟩
  | cons f fields ih =>
    obtain ⟨fresh, distinct⟩ := List.nodup_cons.mp distinct
    rw [List.foldl_cons, drawSeed_eq]
    by_cases asks : f.asksIn s.1 = true
    · rw [if_pos asks, List.filter_cons_of_pos asks]
      -- the draw changes nothing for the fields that follow, which have other ids
      have later : fields.filter (·.asksIn (Assoc.insert f.id (.ofNat s.2.draw.1) s.1)) =
          fields.filter (·.asksIn s.1) := by
        refine List.filter_congr fun g hg => ?_
        apply Field.asksIn_insert_of_ne
        intro same
        exact fresh (same ▸ List.mem_map_of_mem hg)
      obtain ⟨rest, values⟩ :=
        ih distinct (Assoc.insert f.id (.ofNat s.2.draw.1) s.1, s.2.draw.2)
      rw [later] at rest values
      have own := writesOwn_drawSeed.get?_foldl fresh
        (Assoc.insert f.id (.ofNat s.2.draw.1) s.1, s.2.draw.2)
      rw [Assoc.get?_insert_self] at own
      refine ⟨rest, ?_⟩
      rw [List.map_cons, values, own]
      rfl
    · rw [if_neg asks, List.filter_cons_of_neg asks]
      exact ih distinct s

/-- The default of a field goes in behind flat inputs that do not have the field. -/
def adds (c : Config) (supplied : Object) (f : Field) : Bool :=
  !Assoc.contains f.id supplied && f.default?.isSome && c.dependencyMet f supplied

/-- The fields whose defaults go in behind flat inputs, in the order of declaration. -/
def added (c : Config) (supplied : Object) : List Field := c.inputs.filter (c.adds supplied)

/-- What a field has before seeds are drawn: the value that is supplied, or the default that goes in
for it, read as a number where it is one spelled on a numeric field. -/
def read? (c : Config) (supplied : Object) (f : Field) : Option Value :=
  (c.filled? supplied f).map f.reading

/-- The seed fields that ask for a random seed, in the order of declaration. -/
def asking (c : Config) (supplied : Object) : List Field :=
  c.inputs.filter fun f => (c.read? supplied f).any fun v => decide (f.AsksSeed v)

private theorem keys_fillDefault {supplied acc : Object}
    (same : Assoc.get? f.id acc = Assoc.get? f.id supplied) :
    Assoc.keys (c.fillDefault supplied acc f) =
      Assoc.keys acc ++ ([f].filter (c.adds supplied)).map Field.id := by
  have known : Assoc.contains f.id acc = Assoc.contains f.id supplied := by
    rw [Assoc.contains, Assoc.contains, same]
  cases has : Assoc.contains f.id supplied with
  | true =>
    have stays : c.adds supplied f = false := by simp [adds, has]
    rw [List.filter_cons_of_neg (by simp [stays])]
    rcases c.fillDefault_cases supplied acc f with kept | ⟨v, -, -, -, filled⟩
    · rw [kept]
      simp
    · -- null is replaced in its place
      rw [filled, Assoc.keys_insert_of_contains (known.trans has)]
      simp
  | false =>
    have none : Assoc.get? f.id acc = none := by
      rw [← Option.isNone_iff_eq_none, ← Option.not_isSome, ← Assoc.contains, known, has]
      rfl
    have missing : isMissing acc f.id = true := by rw [isMissing, none]
    cases default : f.default? with
    | none => simp [adds, fillDefault, default]
    | some v =>
      cases applies : c.dependencyMet f supplied with
      | false => simp [adds, fillDefault, default, applies, missing]
      | true =>
        have filled : c.fillDefault supplied acc f = Assoc.insert f.id v acc := by
          simp [fillDefault, default, applies, missing]
        have goes : c.adds supplied f = true := by simp [adds, has, default, applies]
        rw [filled, Assoc.keys_insert_of_not_contains (known.trans has),
          List.filter_cons_of_pos goes]
        rfl

private theorem keys_foldl_fillDefault (distinct : (fields.map Field.id).Nodup)
    {supplied acc : Object} (same : ∀ f ∈ fields, Assoc.get? f.id acc = Assoc.get? f.id supplied) :
    Assoc.keys (fields.foldl (c.fillDefault supplied) acc) =
      Assoc.keys acc ++ (fields.filter (c.adds supplied)).map Field.id := by
  induction fields generalizing acc with
  | nil => simp
  | cons f fields ih =>
    obtain ⟨fresh, distinct⟩ := List.nodup_cons.mp distinct
    have later : ∀ g ∈ fields,
        Assoc.get? g.id (c.fillDefault supplied acc f) = Assoc.get? g.id supplied := by
      intro g hg
      have other : g.id ≠ f.id := fun h => fresh (h ▸ List.mem_map_of_mem hg)
      rw [c.writesOwn_fillDefault supplied acc f g.id other, same g (List.mem_cons_of_mem f hg)]
    have step := keys_fillDefault (c := c) (same f List.mem_cons_self)
    rw [List.foldl_cons, ih distinct later, step, List.append_assoc, ← List.map_append,
      ← List.filter_append]
    rfl

theorem keys_readNumerals (c : Config) (flat : Object) :
    Assoc.keys (c.readNumerals flat) = Assoc.keys flat := by
  refine List.foldlRecOn (motive := fun acc => Assoc.keys acc = Assoc.keys flat) c.inputs _ rfl
    fun acc same f _ => ?_
  exact (Assoc.keys_modify f.id _ acc).trans same

theorem keys_drawSeeds (c : Config) (flat : Object) (words : Words) :
    Assoc.keys (c.drawSeeds flat words).1 = Assoc.keys flat := by
  refine List.foldlRecOn (motive := fun s : Object × Words => Assoc.keys s.1 = Assoc.keys flat)
    c.inputs _ rfl fun s same f _ => ?_
  rcases drawSeed_cases s f with kept | ⟨v, -, own, -, drawn⟩
  · rw [kept, same]
  · have known : Assoc.contains f.id s.1 = true := by simp [Assoc.contains, own]
    rw [drawn, Assoc.keys_insert_of_contains known, same]

private theorem keys_resolve (distinct : (c.inputs.map Field.id).Nodup) (inputs : Object)
    (words : Words) :
    Assoc.keys (c.resolve inputs words).1 =
      Assoc.keys (c.flatten inputs) ++ (c.added (c.flatten inputs)).map Field.id := by
  rw [resolve, keys_drawSeeds, keys_readNumerals]
  exact keys_foldl_fillDefault distinct fun _ _ => rfl

private theorem get?_readNumerals_fillDefaults (distinct : (c.inputs.map Field.id).Nodup)
    (hf : f ∈ c.inputs) (supplied : Object) :
    Assoc.get? f.id (c.readNumerals (c.fillDefaults supplied)) = c.read? supplied f := by
  rw [get?_readNumerals distinct hf, get?_fillDefaults distinct hf, read?]

private theorem filter_asksIn_readNumerals (distinct : (c.inputs.map Field.id).Nodup)
    (supplied : Object) :
    c.inputs.filter (·.asksIn (c.readNumerals (c.fillDefaults supplied))) = c.asking supplied := by
  refine List.filter_congr fun f hf => ?_
  rw [Field.asksIn, get?_readNumerals_fillDefaults distinct hf]

/-- What resolving flat inputs with some words gives, key by key, and the words that it leaves. -/
structure Resolves (c : Config) (supplied : Object) (words : Words) (resolved : Object)
    (rest : Words) : Prop where
  /-- The keys of the inputs keep their places; behind them stand the fields whose defaults go
  in. -/
  keys : Assoc.keys resolved = Assoc.keys supplied ++ (c.added supplied).map Field.id
  undeclared : ∀ id, id ∉ c.inputs.map Field.id → Assoc.get? id resolved = Assoc.get? id supplied
  kept : ∀ f ∈ c.inputs, f ∉ c.asking supplied → Assoc.get? f.id resolved = c.read? supplied f
  /-- The seeds that are asked for are those of as many draws, in the order of declaration. -/
  drawn : (c.asking supplied).map (fun f => Assoc.get? f.id resolved) =
    (words.draws (c.asking supplied).length).1.map fun seed => some (.ofNat seed)
  rest : rest = (words.draws (c.asking supplied).length).2

private theorem resolves_resolve (distinct : (c.inputs.map Field.id).Nodup) (inputs : Object)
    (words : Words) :
    c.Resolves (c.flatten inputs) words (c.resolve inputs words).1 (c.resolve inputs words).2 := by
  obtain ⟨rest, drawn⟩ := foldl_drawSeed distinct
    (c.readNumerals (c.fillDefaults (c.flatten inputs)), words)
  rw [filter_asksIn_readNumerals distinct] at rest drawn
  refine ⟨keys_resolve distinct inputs words, fun id undeclared => ?_, fun f hf unasked => ?_,
    drawn, rest⟩
  · exact get?_resolve_of_not_mem undeclared inputs words
  · have before := get?_readNumerals_fillDefaults distinct hf (c.flatten inputs)
    obtain ⟨s, same, last⟩ := writesOwn_drawSeed.exists_step distinct hf
      (c.readNumerals (c.fillDefaults (c.flatten inputs)), words)
    have own : Assoc.get? f.id s.1 = c.read? (c.flatten inputs) f := same.trans before
    have silent : f.asksIn s.1 ≠ true := by
      intro asks
      rw [Field.asksIn, own] at asks
      exact unasked (List.mem_filter.mpr ⟨hf, asks⟩)
    rw [drawSeed_eq, if_neg silent, own] at last
    exact last

private theorem Resolves.exists_seed {supplied resolved : Object} {words rest : Words}
    (h : c.Resolves supplied words resolved rest) (hf : f ∈ c.asking supplied) :
    ∃ (seed : Nat) (fits : FitsNumber seed), seed < Words.seedBound ∧
      Assoc.get? f.id resolved = some (.num (.int seed fits)) := by
  have value : Assoc.get? f.id resolved ∈
      (c.asking supplied).map fun f => Assoc.get? f.id resolved := List.mem_map_of_mem hf
  rw [h.drawn] at value
  obtain ⟨seed, hs, value⟩ := List.mem_map.mp value
  have small : seed < Words.seedBound := Words.lt_of_mem_draws hs
  have fits : FitsNumber seed := by
    simp only [FitsNumber, Words.seedBound] at *
    omega
  exact ⟨seed, fits, small, value.symm.trans (congrArg some (Value.ofInt_of_fits fits))⟩

private theorem Resolves.sameBut {supplied resolved resolved' : Object}
    {words words' rest rest' : Words} (h : c.Resolves supplied words resolved rest)
    (h' : c.Resolves supplied words' resolved' rest') :
    SameBut ((c.asking supplied).map Field.id) resolved resolved' := by
  refine ⟨h.keys.trans h'.keys.symm, fun id unasked => ?_⟩
  by_cases declared : id ∈ c.inputs.map Field.id
  · obtain ⟨f, hf, rfl⟩ := List.mem_map.mp declared
    have silent : f ∉ c.asking supplied := fun asks => unasked (List.mem_map_of_mem asks)
    rw [h.kept f hf silent, h'.kept f hf silent]
  · rw [h.undeclared id declared, h'.undeclared id declared]

private theorem standsFor_read? (c : Config) (supplied : Object) (f : Field) :
    Option.Rel f.StandsFor (c.filled? supplied f) (c.read? supplied f) := by
  rw [read?]
  cases c.filled? supplied f with
  | none => exact .none
  | some v => exact .some (f.standsFor_reading v)

/-- Where ids are distinct, resolving keeps every key of the flat inputs in its place and adds the
defaults that go in behind them. Every value is the supplied one or the default, where a text on a
slider or a seed becomes the double or the integer that it spells, except that the seeds that ask
for it are drawn, one after another in the order of declaration. Words decide these seeds and
nothing else, and are not touched without any. -/
theorem resolved_by_key (distinct : (c.inputs.map Field.id).Nodup) (inputs : Object)
    (words : Words) :
    c.Resolves (c.flatten inputs) words (c.resolve inputs words).1 (c.resolve inputs words).2 ∧
    (∀ f ∈ c.inputs, Option.Rel f.StandsFor (c.filled? (c.flatten inputs) f)
      (c.read? (c.flatten inputs) f)) ∧
    (∀ f ∈ c.asking (c.flatten inputs), ∃ (seed : Nat) (fits : FitsNumber seed),
      seed < Words.seedBound ∧
      Assoc.get? f.id (c.resolve inputs words).1 = some (.num (.int seed fits))) ∧
    ∀ words',
      SameBut ((c.asking (c.flatten inputs)).map Field.id) (c.resolve inputs words).1
        (c.resolve inputs words').1 ∧
      (c.asking (c.flatten inputs) = [] →
        c.resolve inputs words' = ((c.resolve inputs words).1, words')) := by
  have resolves := resolves_resolve distinct inputs
  refine ⟨resolves words, fun f _ => c.standsFor_read? (c.flatten inputs) f,
    fun f hf => (resolves words).exists_seed hf, fun words' => ?_⟩
  have same := (resolves words).sameBut (resolves words')
  refine ⟨same, fun unasked => ?_⟩
  have rest := (resolves words').rest
  rw [unasked] at same rest
  have resolved := same.eq (c.nodup_keys_resolve inputs words)
  exact Prod.ext resolved.symm rest

def twoSeeds : Config :=
  sampling [noise, strength, bareField "cfg" .slider, bareField "seed" .seed]

/-- The second seed asked for, a strength that is null and a number as a text. -/
def twoSeedsInputs : Object := [("seed", .str "-1"), ("strength", .null), ("cfg", .str " 5 ")]

def twoWords : Words := ⟨[60129542144, 77309411328], 0⟩

/-- The noise is declared before the seed, so it takes the first draw although it stands last. -/
theorem noise_drawn_first :
    (twoSeeds.inputs.map Field.id).Nodup ∧
      Assoc.keys (twoSeeds.resolve twoSeedsInputs twoWords).1 =
        ["seed", "strength", "cfg", "noise"] ∧
      Assoc.get? "noise" (twoSeeds.resolve twoSeedsInputs twoWords).1 = some (.ofNat 7) ∧
      Assoc.get? "seed" (twoSeeds.resolve twoSeedsInputs twoWords).1 = some (.ofNat 9) ∧
      Assoc.get? "cfg" (twoSeeds.resolve twoSeedsInputs twoWords).1 =
        some (.num (.double (Double.ofInt 5))) ∧
      (twoSeeds.resolve twoSeedsInputs twoWords).2.taken = 2 := by
  have distinct : (twoSeeds.inputs.map Field.id).Nodup := by decide
  obtain ⟨frame, spelled, -, -⟩ := resolved_by_key distinct twoSeedsInputs twoWords
  have asking : twoSeeds.asking (twoSeeds.flatten twoSeedsInputs) =
      [noise, bareField "seed" .seed] := rfl
  have drawn := frame.drawn
  have left := congrArg Words.taken frame.rest
  rw [asking] at drawn left
  obtain ⟨first, later⟩ := List.cons.inj drawn
  obtain ⟨second, -⟩ := List.cons.inj later
  refine ⟨distinct, frame.keys.trans (by decide +kernel), first, second, ?_, left⟩
  -- the text of the second number is read as the double that it spells
  have declared : bareField "cfg" .slider ∈ twoSeeds.inputs := by simp [twoSeeds, sampling]
  have five : (Value.str " 5 ").float? = some (Double.ofInt 5) := by decide +kernel
  have supplied : twoSeeds.filled? (twoSeeds.flatten twoSeedsInputs) (bareField "cfg" .slider) =
      some (.str " 5 ") := rfl
  have stands := spelled _ declared
  have kept := frame.kept _ declared (by simp [asking, noise, bareField])
  refine kept.trans ?_
  rw [supplied] at stands
  generalize twoSeeds.read? (twoSeeds.flatten twoSeedsInputs) (bareField "cfg" .slider) = read
    at stands ⊢
  cases stands with
  | some stands =>
    cases stands with
    | double _ h => rw [Option.some.inj (five.symm.trans h)]
    | int _ seed _ => cases seed
    | same none => cases five.symm.trans ((none _ rfl).1 rfl)

end Config

end WorkflowGraph
