/- Two resolutions side by side: inputs that differ in one value, and how far the difference goes. -/

import WorkflowGraph.Proofs.Absence
import WorkflowGraph.Proofs.SeedDraws

set_option autoImplicit false
set_option relaxedAutoImplicit false

/-!
Two maps that give some ids the same values are led through the passes of resolving. Defaults go in
alike under the ids whose fields have conditions that hold alike, numerals are read alike, and seeds
are drawn alike if the same fields ask for them. So a difference in one supplied value stays under
its id unless a condition on it tells the two values apart. Ids need not be distinct.
-/

namespace WorkflowGraph

/-- Two maps give the same values to the ids of some kind. -/
def AgreeOn (p : String → Prop) (a b : Object) : Prop :=
  ∀ id, p id → Assoc.get? id a = Assoc.get? id b

private theorem AgreeOn.insert {p : String → Prop} {a b : Object} (h : AgreeOn p a b) (id : String)
    (v : Value) :
    AgreeOn (fun j => j = id ∨ p j) (Assoc.insert id v a) (Assoc.insert id v b) := by
  intro j hj
  by_cases own : j = id
  · rw [own, Assoc.get?_insert_self, Assoc.get?_insert_self]
  · rw [Assoc.get?_insert_of_ne own, Assoc.get?_insert_of_ne own]
    exact h j (hj.resolve_left own)

theorem SameBut.eq_of_get? {id : String} {a b : Object} (h : SameBut [id] a b)
    (own : Assoc.get? id a = Assoc.get? id b) (nodup : (Assoc.keys a).Nodup) : a = b := by
  refine Assoc.eq_of_get? h.keys nodup fun j => ?_
  by_cases same : j = id
  · rw [same, own]
  · exact h.values j (by simpa using same)

namespace Field

variable {f : Field} {a b flat : Object}

private theorem asksIn_of_get? {v : Value} (h : Assoc.get? f.id flat = some v) :
    f.asksIn flat = decide (f.AsksSeed v) := by
  rw [asksIn, h, Option.any_some]

private theorem asksIn_congr (h : Assoc.get? f.id a = Assoc.get? f.id b) :
    f.asksIn a = f.asksIn b := by
  rw [asksIn, asksIn, h]

private theorem asksIn_of_type (other : f.type ≠ .seed) : f.asksIn flat = false := by
  rw [← Bool.not_eq_true, asksIn_iff]
  rintro ⟨v, -, asks⟩
  exact other asks.1

end Field

namespace Config

variable {c : Config} {f : Field} {fields : List Field} {p : String → Prop} {id : String}
  {v w : Value} {a b acc acc' supplied supplied' : Object}

theorem sameBut_flatten_insert (c : Config) (inputs : Object) (hv : KeptWhole c.shapeOf id v)
    (hw : KeptWhole c.shapeOf id w) :
    SameBut [id] (c.flatten (Assoc.insert id v inputs)) (c.flatten (Assoc.insert id w inputs)) ∧
      (Assoc.get? id (c.flatten (Assoc.insert id v inputs)) =
          Assoc.get? id (c.flatten (Assoc.insert id w inputs)) ∨
        Assoc.get? id (c.flatten (Assoc.insert id v inputs)) = some v ∧
          Assoc.get? id (c.flatten (Assoc.insert id w inputs)) = some w) := by
  obtain ⟨before, after, written⟩ := Assoc.exists_insert_eq id inputs
  have flat {u : Value} (hu : KeptWhole c.shapeOf id u) : c.flatten (Assoc.insert id u inputs) =
      Assoc.ofList (leaves c.shapeOf before ++ (id, u) :: leaves c.shapeOf after) := by
    rw [flatten, flattenDeclared, written, leaves_append, leaves_cons, leavesOf_of_keptWhole hu]
    rfl
  rw [flat hv, flat hw]
  refine ⟨⟨?_, ?_⟩, ?_⟩
  · rw [Assoc.keys_ofList, Assoc.keys_ofList]
    simp [Assoc.keys]
  · intro other outside
    have apart : other ≠ id := by simpa using outside
    rw [Assoc.get?_ofList_append_cons_of_ne apart, Assoc.get?_ofList_append_cons_of_ne apart]
  · rw [Assoc.get?_ofList_append_cons, Assoc.get?_ofList_append_cons]
    cases Assoc.get? id (leaves c.shapeOf after).reverse with
    | none => exact Or.inr ⟨rfl, rfl⟩
    | some u => exact Or.inl rfl

section Defaults

private theorem get?_fillDefault_of_get? (value : Assoc.get? id acc = some v)
    (present : v.isNull = false) :
    Assoc.get? id (c.fillDefault supplied acc f) = some v := by
  rcases c.fillDefault_cases supplied acc f with kept | ⟨d, -, missing, -, filled⟩
  · rw [kept, value]
  · have other : id ≠ f.id := by
      rintro rfl
      rw [isMissing_of_get? value, present] at missing
      exact nomatch missing
    rw [filled, Assoc.get?_insert_of_ne other, value]

private theorem get?_foldl_fillDefault (value : Assoc.get? id acc = some v)
    (present : v.isNull = false) :
    Assoc.get? id (fields.foldl (c.fillDefault supplied) acc) = some v :=
  List.foldlRecOn (motive := fun acc => Assoc.get? id acc = some v) fields _ value
    fun _ value _ _ => get?_fillDefault_of_get? value present

private theorem agreeOn_fillDefault (h : AgreeOn p acc acc')
    (met : p f.id → c.dependencyMet f supplied = c.dependencyMet f supplied') :
    AgreeOn p (c.fillDefault supplied acc f) (c.fillDefault supplied' acc' f) := by
  intro j hj
  by_cases own : j = f.id
  · subst own
    have value := h f.id hj
    simp only [fillDefault, isMissing_congr value, met hj]
    cases isMissing acc' f.id <;> cases f.default? <;> cases c.dependencyMet f supplied' <;>
      simp [value, Assoc.get?_insert_self]
  · have left : Assoc.get? j (c.fillDefault supplied acc f) = _ :=
      c.writesOwn_fillDefault supplied acc f j own
    have right : Assoc.get? j (c.fillDefault supplied' acc' f) = _ :=
      c.writesOwn_fillDefault supplied' acc' f j own
    rw [left, right, h j hj]

private theorem agreeOn_foldl_fillDefault (h : AgreeOn p acc acc')
    (met : ∀ g ∈ fields, p g.id → c.dependencyMet g supplied = c.dependencyMet g supplied') :
    AgreeOn p (fields.foldl (c.fillDefault supplied) acc)
      (fields.foldl (c.fillDefault supplied') acc') := by
  induction fields generalizing acc acc' with
  | nil => exact h
  | cons g fields ih =>
    exact ih (agreeOn_fillDefault h (met g List.mem_cons_self))
      fun g' hg' => met g' (List.mem_cons_of_mem g hg')

private theorem keys_fillDefault_congr (keys : Assoc.keys acc = Assoc.keys acc')
    (missing : isMissing acc f.id = isMissing acc' f.id)
    (met : c.dependencyMet f supplied = c.dependencyMet f supplied') :
    Assoc.keys (c.fillDefault supplied acc f) = Assoc.keys (c.fillDefault supplied' acc' f) := by
  simp only [fillDefault, missing, met]
  cases isMissing acc' f.id <;> cases f.default? <;> cases c.dependencyMet f supplied' <;>
    first
      | exact keys
      | exact Assoc.keys_insert_congr keys f.id _ _

private theorem keys_foldl_fillDefault_congr (h : SameBut [id] acc acc')
    (hv : Assoc.get? id acc = some v) (hw : Assoc.get? id acc' = some w)
    (presentv : v.isNull = false) (presentw : w.isNull = false)
    (met : ∀ g ∈ fields, c.dependencyMet g supplied = c.dependencyMet g supplied') :
    Assoc.keys (fields.foldl (c.fillDefault supplied) acc) =
      Assoc.keys (fields.foldl (c.fillDefault supplied') acc') := by
  induction fields generalizing acc acc' with
  | nil => exact h.keys
  | cons g fields ih =>
    have missing : isMissing acc g.id = isMissing acc' g.id := by
      by_cases own : g.id = id
      · rw [own, isMissing_of_get? hv, isMissing_of_get? hw, presentv, presentw]
      · exact isMissing_congr (h.values g.id (by simpa using own))
    have met' := met g List.mem_cons_self
    have step : SameBut [id] (c.fillDefault supplied acc g) (c.fillDefault supplied' acc' g) :=
      ⟨keys_fillDefault_congr h.keys missing met', agreeOn_fillDefault h.values fun _ => met'⟩
    exact ih step (get?_fillDefault_of_get? hv presentv) (get?_fillDefault_of_get? hw presentw)
      fun g' hg' => met g' (List.mem_cons_of_mem g hg')

end Defaults

section Numerals

/-- What fields with an id make of a value, one after another. -/
def readUnder (id : String) (fields : List Field) (v : Value) : Value :=
  fields.foldl (fun v f => if f.id = id then f.reading v else v) v

private theorem get?_foldl_readNumeral (id : String) (fields : List Field) (acc : Object) :
    Assoc.get? id (fields.foldl readNumeral acc) =
      (Assoc.get? id acc).map (readUnder id fields) := by
  induction fields generalizing acc with
  | nil => exact Option.map_id'.symm
  | cons f fields ih =>
    rw [List.foldl_cons, ih]
    by_cases own : f.id = id
    · subst own
      rw [get?_readNumeral_self, Option.map_map]
      refine congrArg (fun read => (Assoc.get? f.id acc).map read) (funext fun v => ?_)
      rw [readUnder, List.foldl_cons, if_pos rfl]
      rfl
    · have kept : Assoc.get? id (readNumeral acc f) = Assoc.get? id acc :=
        writesOwn_readNumeral acc f id fun same => own same.symm
      rw [kept]
      refine congrArg (fun read => (Assoc.get? id acc).map read) (funext fun v => ?_)
      rw [readUnder, readUnder, List.foldl_cons, if_neg own]

theorem readUnder_num (id : String) (fields : List Field) (n : Number) :
    readUnder id fields (.num n) = .num n := by
  refine List.foldlRecOn (motive := fun v => v = Value.num n) fields _ rfl fun v same f _ => ?_
  subst same
  split
  · exact f.reading_num n
  · rfl

private theorem agreeOn_foldl_readNumeral (h : AgreeOn p a b) :
    AgreeOn p (fields.foldl readNumeral a) (fields.foldl readNumeral b) := by
  intro j hj
  rw [get?_foldl_readNumeral, get?_foldl_readNumeral, h j hj]

end Numerals

section Draws

variable {s t : Object × Words}

private theorem get?_foldl_drawSeed (value : Assoc.get? id s.1 = some v)
    (calm : ∀ f ∈ fields, f.id = id → ¬ f.AsksSeed v) :
    Assoc.get? id (fields.foldl drawSeed s).1 = some v := by
  refine List.foldlRecOn (motive := fun s : Object × Words => Assoc.get? id s.1 = some v) fields _
    value fun s value f hf => ?_
  by_cases own : f.id = id
  · subst own
    have silent : drawSeed s f = s := by
      apply drawSeed_of_not_asksSeed
      intro u hu
      obtain rfl : v = u := Option.some.inj (value.symm.trans hu)
      exact calm f hf rfl
    rw [silent, value]
  · have kept : Assoc.get? id (drawSeed s f).1 = _ :=
      writesOwn_drawSeed s f id fun same => own same.symm
    rw [kept, value]

private theorem agreeOn_foldl_drawSeed (h : AgreeOn p s.1 t.1) (words : s.2 = t.2)
    (alike : ∀ f ∈ fields, f.asksIn s.1 = f.asksIn t.1) :
    AgreeOn (fun j => p j ∨ ∃ f ∈ fields, f.id = j ∧ f.asksIn s.1 = true)
        (fields.foldl drawSeed s).1 (fields.foldl drawSeed t).1 ∧
      (fields.foldl drawSeed s).2 = (fields.foldl drawSeed t).2 := by
  induction fields generalizing s t p with
  | nil => exact ⟨fun j hj => h j (hj.resolve_right (by simp)), words⟩
  | cons f fields ih =>
    have later := fun g hg => alike g (List.mem_cons_of_mem f hg)
    rw [List.foldl_cons, List.foldl_cons, drawSeed_eq, drawSeed_eq, ← alike f List.mem_cons_self,
      words]
    by_cases asks : f.asksIn s.1 = true
    · rw [if_pos asks, if_pos asks]
      obtain ⟨agree, rest⟩ := ih (h.insert f.id (.ofNat t.2.draw.1))
        (s := (_, t.2.draw.2)) (t := (_, t.2.draw.2)) rfl fun g hg => by
          by_cases own : g.id = f.id
          · apply Field.asksIn_congr
            rw [own, Assoc.get?_insert_self, Assoc.get?_insert_self]
          · rw [Field.asksIn_insert_of_ne own, Field.asksIn_insert_of_ne own, later g hg]
      refine ⟨fun j hj => agree j ?_, rest⟩
      by_cases own : j = f.id
      · exact Or.inl (Or.inl own)
      · -- what asks after the draw under another id asked before it
        refine hj.imp Or.inr ?_
        rintro ⟨g, hg, same, asked⟩
        rcases List.mem_cons.mp hg with rfl | hg
        · exact absurd same.symm own
        · have other : g.id ≠ f.id := fun h => own (same.symm.trans h)
          exact ⟨g, hg, same, (Field.asksIn_insert_of_ne other _ _).trans asked⟩
    · rw [if_neg asks, if_neg asks]
      obtain ⟨agree, rest⟩ := ih h (s := s) (t := (t.1, t.2)) words later
      refine ⟨fun j hj => agree j (hj.imp_right ?_), rest⟩
      rintro ⟨g, hg, same, asked⟩
      rcases List.mem_cons.mp hg with rfl | hg
      · exact absurd asked asks
      · exact ⟨g, hg, same, asked⟩

end Draws

/-- No condition on an id, of the fields of some kind, tells two of its values apart. -/
def Indifferent (c : Config) (p : String → Prop) (id : String) (v w : Value) : Prop :=
  ∀ g ∈ c.inputs, p g.id → ∀ x, g.dependsOn? = some ⟨id, x⟩ → v.looseEq x = w.looseEq x

/-- Flat inputs have a value each under an id, neither of them null, and are the same elsewhere. -/
structure Differ (id : String) (v w : Value) (a b : Object) : Prop where
  same : SameBut [id] a b
  left : Assoc.get? id a = some v
  right : Assoc.get? id b = some w
  presentLeft : v.isNull = false
  presentRight : w.isNull = false

section Runs

variable {inputs inputs' : Object}

private theorem get?_readNumerals_of_get? (value : Assoc.get? id supplied = some v)
    (present : v.isNull = false) :
    Assoc.get? id (c.readNumerals (c.fillDefaults supplied)) =
      some (readUnder id c.inputs v) := by
  have filled : Assoc.get? id (c.fillDefaults supplied) = some v :=
    get?_foldl_fillDefault value present
  rw [readNumerals, get?_foldl_readNumeral, filled]
  rfl

private theorem asksIn_readNumerals (value : Assoc.get? f.id supplied = some v)
    (present : v.isNull = false) :
    f.asksIn (c.readNumerals (c.fillDefaults supplied)) =
      decide (f.AsksSeed (readUnder f.id c.inputs v)) :=
  Field.asksIn_of_get? (get?_readNumerals_of_get? value present)

theorem get?_resolve_of_get? (value : Assoc.get? id (c.flatten inputs) = some v)
    (present : v.isNull = false) (words : Words)
    (calm : ∀ s ∈ c.inputs, s.id = id → ¬ s.AsksSeed (readUnder id c.inputs v)) :
    Assoc.get? id (c.resolve inputs words).1 = some (readUnder id c.inputs v) :=
  get?_foldl_drawSeed (s := (_, words)) (get?_readNumerals_of_get? value present) calm

namespace Differ

private theorem dependencyMet (h : Differ id v w a b)
    (indifferent : ∀ x, f.dependsOn? = some ⟨id, x⟩ → v.looseEq x = w.looseEq x) :
    c.dependencyMet f a = c.dependencyMet f b := by
  cases depends : f.dependsOn? with
  | none => simp [Config.dependencyMet, depends]
  | some d =>
    obtain ⟨field, x⟩ := d
    by_cases own : field = id
    · subst own
      have left : c.gateValue? a field = some v := by
        simp [gateValue?, h.left, Option.filter, h.presentLeft]
      have right : c.gateValue? b field = some w := by
        simp [gateValue?, h.right, Option.filter, h.presentRight]
      simp only [Config.dependencyMet, depends, left, right]
      exact indifferent x depends
    · refine dependencyMet_congr fun d hd => ?_
      obtain rfl := Option.some.inj (depends.symm.trans hd)
      rw [gateValue?, gateValue?, h.same.values field (by simpa using own)]

private theorem agreeOn_readNumerals (h : Differ id v w a b)
    (indifferent : c.Indifferent p id v w) :
    AgreeOn (fun j => (j ≠ id → p j) ∧ (j = id → readUnder id c.inputs v = readUnder id c.inputs w))
      (c.readNumerals (c.fillDefaults a)) (c.readNumerals (c.fillDefaults b)) := by
  have others : AgreeOn (fun j => j ≠ id ∧ p j) (c.readNumerals (c.fillDefaults a))
      (c.readNumerals (c.fillDefaults b)) := by
    apply agreeOn_foldl_readNumeral
    apply agreeOn_foldl_fillDefault fun j hj => h.same.values j (by simpa using hj.1)
    intro g hg inside
    exact h.dependencyMet (indifferent g hg inside.2)
  rintro j ⟨inside, read⟩
  by_cases own : j = id
  · rw [own, get?_readNumerals_of_get? h.left h.presentLeft,
      get?_readNumerals_of_get? h.right h.presentRight, read own]
  · exact others j ⟨own, inside own⟩

private theorem asksIn_readNumerals_eq (h : Differ id v w a b)
    (indifferent : c.Indifferent p id v w) (seeds : ∀ s ∈ c.inputs, s.type = .seed → p s.id)
    (alike : ∀ s : Field, s.AsksSeed (readUnder id c.inputs v) ↔
      s.AsksSeed (readUnder id c.inputs w)) (hf : f ∈ c.inputs) :
    f.asksIn (c.readNumerals (c.fillDefaults a)) =
      f.asksIn (c.readNumerals (c.fillDefaults b)) := by
  by_cases own : f.id = id
  · subst own
    rw [asksIn_readNumerals h.left h.presentLeft, asksIn_readNumerals h.right h.presentRight]
    exact decide_eq_decide.mpr (alike f)
  · by_cases seed : f.type = .seed
    · exact Field.asksIn_congr
        (h.agreeOn_readNumerals indifferent f.id ⟨fun _ => seeds f hf seed, fun h => absurd h own⟩)
    · rw [Field.asksIn_of_type seed, Field.asksIn_of_type seed]

/-- The same seeds are drawn then, and nothing differs under the ids whose conditions are
indifferent. -/
theorem agreeOn_resolve (h : Differ id v w (c.flatten inputs) (c.flatten inputs'))
    (indifferent : c.Indifferent p id v w) (seeds : ∀ s ∈ c.inputs, s.type = .seed → p s.id)
    (alike : ∀ s : Field, s.AsksSeed (readUnder id c.inputs v) ↔
      s.AsksSeed (readUnder id c.inputs w)) (words : Words) :
    AgreeOn (fun j => (j ≠ id → p j) ∧ (j = id →
        readUnder id c.inputs v = readUnder id c.inputs w ∨
          ∃ s ∈ c.inputs, s.id = id ∧ s.AsksSeed (readUnder id c.inputs v)))
        (c.resolve inputs words).1 (c.resolve inputs' words).1 ∧
      (c.resolve inputs words).2 = (c.resolve inputs' words).2 := by
  obtain ⟨drawn, rest⟩ := agreeOn_foldl_drawSeed
    (s := (c.readNumerals (c.fillDefaults (c.flatten inputs)), words))
    (t := (c.readNumerals (c.fillDefaults (c.flatten inputs')), words))
    (h.agreeOn_readNumerals indifferent) rfl
    fun _ => h.asksIn_readNumerals_eq indifferent seeds alike
  refine ⟨fun j hj => drawn j ?_, rest⟩
  by_cases own : j = id
  · refine (hj.2 own).imp (fun read => ⟨hj.1, fun _ => read⟩) ?_
    rintro ⟨s, hs, rfl, asks⟩
    have asked := asksIn_readNumerals (c := c) h.left h.presentLeft
    exact ⟨s, hs, own.symm, asked.trans (decide_eq_true asks)⟩
  · exact Or.inl ⟨hj.1, fun h => absurd h own⟩

theorem keys_resolve (h : Differ id v w (c.flatten inputs) (c.flatten inputs'))
    (indifferent : c.Indifferent (fun _ => True) id v w) (words : Words) :
    Assoc.keys (c.resolve inputs words).1 = Assoc.keys (c.resolve inputs' words).1 := by
  rw [resolve, resolve, keys_drawSeeds, keys_drawSeeds, keys_readNumerals, keys_readNumerals]
  exact keys_foldl_fillDefault_congr h.same h.left h.right h.presentLeft h.presentRight
    fun g hg => h.dependencyMet (indifferent g hg trivial)

end Differ

end Runs

section Checks

variable {inputs inputs' : Object} {words : Words} {maxLoras : Nat}

theorem check_eq_of_fieldFindings
    (h : ∀ g ∈ c.inputs, c.fieldFindings maxLoras (c.flatten inputs) g =
      c.fieldFindings maxLoras (c.flatten inputs') g) :
    c.check maxLoras inputs = c.check maxLoras inputs' := by
  have issues (pick : Finding → Option String) :
      c.inputs.flatMap (fun g => ((c.fieldFindings maxLoras (c.flatten inputs) g).filterMap
        pick).map (Issue.mk g.id)) =
      c.inputs.flatMap (fun g => ((c.fieldFindings maxLoras (c.flatten inputs') g).filterMap
        pick).map (Issue.mk g.id)) :=
    List.flatMap_congr fun g hg => by rw [h g hg]
  simp only [check, issues]

theorem Differ.check_eq (h : Differ id v w (c.flatten inputs) (c.flatten inputs'))
    (indifferent : c.Indifferent (fun _ => True) id v w)
    (findings : ∀ g ∈ c.inputs, g.id = id →
      g.check maxLoras (some v) = g.check maxLoras (some w)) :
    c.check maxLoras inputs = c.check maxLoras inputs' := by
  refine check_eq_of_fieldFindings fun g hg => ?_
  rw [fieldFindings, fieldFindings, h.dependencyMet (indifferent g hg trivial)]
  by_cases own : g.id = id
  · rw [own, h.left, h.right, findings g hg own]
  · rw [h.same.values g.id (by simpa using own)]

/-- Whatever the template and the limit, two inputs give the same graph or fail alike. -/
def SameGraphs (c : Config) (words : Words) (inputs inputs' : Object) : Prop :=
  ∀ maxLoras template,
    c.generate maxLoras template inputs words = c.generate maxLoras template inputs' words

theorem SameGraphs.of_eq (checked : ∀ maxLoras, c.check maxLoras inputs = c.check maxLoras inputs')
    (resolved : c.resolve inputs words = c.resolve inputs' words) :
    c.SameGraphs words inputs inputs' := by
  intro maxLoras template
  simp only [generate, compile, checked, resolved]

end Checks

end Config

end WorkflowGraph
