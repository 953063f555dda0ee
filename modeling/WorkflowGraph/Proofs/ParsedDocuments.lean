/- Parsed documents: every object has distinct keys, and nesting stays within its limit. -/

import WorkflowGraph.Config.Document
import WorkflowGraph.Proofs.JsonTexts
import WorkflowGraph.Proofs.Records

set_option autoImplicit false
set_option relaxedAutoImplicit false

namespace WorkflowGraph

namespace Value

theorem distinctItems_iff {vs : List Value} : DistinctItems vs ↔ ∀ v ∈ vs, v.Distinct := by
  induction vs with
  | nil => simp [DistinctItems]
  | cons v vs ih => simp [DistinctItems, ih]

theorem distinctMembers_iff {o : Object} : DistinctMembers o ↔ ∀ p ∈ o, p.2.Distinct := by
  induction o with
  | nil => simp [DistinctMembers]
  | cons p o ih => simp [DistinctMembers, ih]

private theorem depthOfItems_le_iff {vs : List Value} {n : Nat} :
    depthOfItems vs ≤ n ↔ ∀ v ∈ vs, v.depth ≤ n := by
  induction vs with
  | nil => simp [depthOfItems]
  | cons v vs ih => simp [depthOfItems, ih]

private theorem depthOfMembers_le_iff {o : Object} {n : Nat} :
    depthOfMembers o ≤ n ↔ ∀ p ∈ o, p.2.depth ≤ n := by
  induction o with
  | nil => simp [depthOfMembers]
  | cons p o ih => simp [depthOfMembers, ih]

/-- A value with distinct keys throughout that nests so many containers at most. -/
structure Within (n : Nat) (v : Value) : Prop where
  distinct : v.Distinct
  depth : v.depth ≤ n

theorem within_str (n : Nat) (s : String) : (str s).Within n := ⟨trivial, Nat.zero_le n⟩

theorem within_bool (n : Nat) (b : Bool) : (bool b).Within n := ⟨trivial, Nat.zero_le n⟩

theorem within_null (n : Nat) : null.Within n := ⟨trivial, Nat.zero_le n⟩

theorem within_num (n : Nat) (k : Number) : (num k).Within n := ⟨trivial, Nat.zero_le n⟩

theorem within_ofNat (n k : Nat) : (ofNat k).Within n := by
  unfold ofNat ofInt
  split
  · exact within_num n _
  · exact within_num n _

theorem within_ofText? (n : Nat) (s? : Option String) : (ofText? s?).Within n := by
  cases s? with
  | none => exact within_null n
  | some s => exact within_str n s

theorem within_ofNodeId? (n : Nat) (id? : Option NodeId) : (ofNodeId? id?).Within n := by
  cases id? with
  | none => exact within_null n
  | some id => exact within_num n _

theorem within_nodeId (n : Nat) (id : NodeId) : id.toValue.Within n := within_num n _

theorem within_nodeMode (n : Nat) (m : NodeMode) : m.toValue.Within n := within_ofNat n _

private theorem Within.mono {n k : Nat} {v : Value} (h : v.Within n) (le : n ≤ k) : v.Within k :=
  ⟨h.distinct, Nat.le_trans h.depth le⟩

theorem within_arr_iff {n : Nat} {vs : List Value} :
    (arr vs).Within (n + 1) ↔ ∀ v ∈ vs, v.Within n := by
  constructor
  · rintro ⟨distinct, depth⟩ v hv
    have depth : depthOfItems vs ≤ n := Nat.le_of_succ_le_succ depth
    exact ⟨distinctItems_iff.mp distinct v hv, depthOfItems_le_iff.mp depth v hv⟩
  · intro h
    have depth : depthOfItems vs ≤ n := depthOfItems_le_iff.mpr fun v hv => (h v hv).depth
    exact ⟨distinctItems_iff.mpr fun v hv => (h v hv).distinct, Nat.succ_le_succ depth⟩

theorem within_obj_iff {n : Nat} {o : Object} :
    (obj o).Within (n + 1) ↔ (Assoc.keys o).Nodup ∧ ∀ p ∈ o, p.2.Within n := by
  constructor
  · rintro ⟨⟨nodup, distinct⟩, depth⟩
    have depth : depthOfMembers o ≤ n := Nat.le_of_succ_le_succ depth
    exact ⟨nodup, fun p hp =>
      ⟨distinctMembers_iff.mp distinct p hp, depthOfMembers_le_iff.mp depth p hp⟩⟩
  · rintro ⟨nodup, h⟩
    have depth : depthOfMembers o ≤ n := depthOfMembers_le_iff.mpr fun p hp => (h p hp).depth
    exact ⟨⟨nodup, distinctMembers_iff.mpr fun p hp => (h p hp).distinct⟩,
      Nat.succ_le_succ depth⟩

theorem Within.members {n : Nat} {o : Object} (h : (obj o).Within n) : ∀ p ∈ o, p.2.Within n := by
  cases n with
  | zero => exact absurd h.depth (Nat.not_succ_le_zero _)
  | succ n => exact fun p hp => ((within_obj_iff.mp h).2 p hp).mono n.le_succ

theorem within_ofNats (n : Nat) (ks : List Nat) : (ofNats ks).Within (n + 1) := by
  refine within_arr_iff.mpr fun v hv => ?_
  obtain ⟨k, -, rfl⟩ := List.mem_map.mp hv
  exact within_ofNat n k

theorem within_ofTexts (n : Nat) (ss : List String) : (ofTexts ss).Within (n + 1) := by
  refine within_arr_iff.mpr fun v hv => ?_
  obtain ⟨s, -, rfl⟩ := List.mem_map.mp hv
  exact within_str n s

theorem within_ofNodeIds (n : Nat) (ids : List NodeId) : (ofNodeIds ids).Within (n + 1) := by
  refine within_arr_iff.mpr fun v hv => ?_
  obtain ⟨id, -, rfl⟩ := List.mem_map.mp hv
  exact within_num n _

end Value

namespace Json

/-- A value for a place where so many containers are open. -/
structure Fits (opened : Nat) (v : Value) : Prop where
  distinct : v.Distinct
  depth : opened + v.depth ≤ maxDepth

/-- A token of a text: a scalar is no container. -/
def Token.Sound : Token → Prop
  | .scalar v => v.Distinct ∧ v.depth = 0
  | _ => True

def Frame.Sound (opened : Nat) : Frame → Prop
  | .arr items => ∀ v ∈ items, Fits opened v
  | .obj members _ => (Assoc.keys members).Nodup ∧ ∀ p ∈ members, Fits opened p.2

def SoundStack : List Frame → Prop
  | [] => True
  | f :: stack => f.Sound (stack.length + 1) ∧ stack.length < maxDepth ∧ SoundStack stack

def State.Sound : State → Prop
  | .reading _ stack => SoundStack stack
  | .done v => Fits 0 v

variable {stack : List Frame}

private theorem length_le_of_soundStack (h : SoundStack stack) : stack.length ≤ maxDepth := by
  cases stack with
  | nil => exact Nat.zero_le _
  | cons f stack => exact h.2.1

private theorem sound_deliver {v : Value} (h : SoundStack stack) (fits : Fits stack.length v) :
    (deliver v stack).Sound := by
  cases stack with
  | nil => exact fits
  | cons f stack =>
    cases f with
    | arr items =>
      refine ⟨fun w hw => ?_, h.2⟩
      rcases List.mem_cons.mp hw with rfl | hw
      · exact fits
      · exact h.1 w hw
    | obj members key =>
      refine ⟨⟨Assoc.nodup_keys_insert h.1.1 v, fun p hp => ?_⟩, h.2⟩
      rcases Assoc.mem_insert hp with rfl | hp
      · exact fits
      · exact h.1.2 p hp

private theorem fits_arr {items : List Value} (h : SoundStack (.arr items :: stack)) :
    Fits stack.length (.arr items.reverse) := by
  obtain ⟨inside, room, -⟩ := h
  constructor
  · exact Value.distinctItems_iff.mpr fun v hv => (inside v (List.mem_reverse.mp hv)).distinct
  · have depth : Value.depthOfItems items.reverse ≤ maxDepth - (stack.length + 1) := by
      apply Value.depthOfItems_le_iff.mpr
      intro v hv
      have := (inside v (List.mem_reverse.mp hv)).depth
      omega
    rw [Value.depth]
    omega

private theorem fits_obj {members : Object} {key : String}
    (h : SoundStack (.obj members key :: stack)) :
    Fits stack.length (.obj members) := by
  obtain ⟨⟨nodup, inside⟩, room, -⟩ := h
  constructor
  · exact ⟨nodup, Value.distinctMembers_iff.mpr fun p hp => (inside p hp).distinct⟩
  · have depth : Value.depthOfMembers members ≤ maxDepth - (stack.length + 1) := by
      apply Value.depthOfMembers_le_iff.mpr
      intro p hp
      have := (inside p hp).depth
      omega
    rw [Value.depth]
    omega

private theorem sound_openFrame {f : Frame} {next : Expect} {s : State} (h : SoundStack stack)
    (empty : f.Sound (stack.length + 1)) (opened : openFrame f next stack = some s) : s.Sound := by
  unfold openFrame at opened
  split at opened
  next room =>
    cases opened
    exact ⟨empty, room, h⟩
  next => exact nomatch opened

private theorem sound_beginValue {t : Token} {s : State} (h : SoundStack stack) (token : t.Sound)
    (begun : beginValue stack t = some s) : s.Sound := by
  cases t with
  | scalar v =>
    cases begun
    refine sound_deliver h ⟨token.1, ?_⟩
    rw [token.2]
    exact length_le_of_soundStack h
  | openArr =>
    have empty : (Frame.arr []).Sound (stack.length + 1) := fun _ hv => absurd hv List.not_mem_nil
    exact sound_openFrame h empty begun
  | openObj =>
    have empty : (Frame.obj [] "").Sound (stack.length + 1) :=
      ⟨List.nodup_nil, fun _ hp => absurd hp List.not_mem_nil⟩
    exact sound_openFrame h empty begun
  | _ => exact nomatch begun

private theorem sound_takeKey {t : Token} {s : State} (h : SoundStack stack)
    (taken : takeKey stack t = some s) : s.Sound := by
  unfold takeKey at taken
  split at taken
  next k =>
    split at taken
    next members key rest =>
      cases taken
      exact h
    next => exact nomatch taken
  next => exact nomatch taken

private theorem sound_closeArr {s : State} (h : SoundStack stack)
    (closed : step (.reading .separator stack) .closeArr = some s) : s.Sound := by
  rcases stack with - | ⟨items | ⟨members, key⟩, rest⟩
  · exact nomatch closed
  · cases closed
    exact sound_deliver h.2.2 (fits_arr h)
  · exact nomatch closed

private theorem sound_closeObj {s : State} (h : SoundStack stack)
    (closed : step (.reading .separator stack) .closeObj = some s) : s.Sound := by
  rcases stack with - | ⟨items | ⟨members, key⟩, rest⟩
  · exact nomatch closed
  · exact nomatch closed
  · cases closed
    exact sound_deliver h.2.2 (fits_obj h)

private theorem sound_comma {s : State} (h : SoundStack stack)
    (passed : step (.reading .separator stack) .comma = some s) : s.Sound := by
  rcases stack with - | ⟨items | ⟨members, key⟩, rest⟩
  · exact nomatch passed
  · cases passed
    exact h
  · cases passed
    exact h

private theorem sound_step {s s' : State} {t : Token} (h : s.Sound) (token : t.Sound)
    (stepped : step s t = some s') : s'.Sound := by
  cases s with
  | done v => exact nomatch stepped
  | reading next stack =>
    cases next with
    | value => exact sound_beginValue h token stepped
    | valueOrClose =>
      cases t with
      | closeArr => exact sound_closeArr h stepped
      | _ => exact sound_beginValue h token stepped
    | key => exact sound_takeKey h stepped
    | keyOrClose =>
      cases t with
      | closeObj => exact sound_closeObj h stepped
      | scalar v => exact sound_takeKey h stepped
      | _ => exact nomatch stepped
    | colon =>
      cases t with
      | colon =>
        cases stepped
        exact h
      | _ => exact nomatch stepped
    | separator =>
      cases t with
      | comma => exact sound_comma h stepped
      | closeArr => exact sound_closeArr h stepped
      | closeObj => exact sound_closeObj h stepped
      | _ => exact nomatch stepped

private theorem sound_run {s s' : State} {ts : List Token} (h : s.Sound)
    (tokens : ∀ t ∈ ts, t.Sound) (ran : run s ts = some s') : s'.Sound := by
  induction ts generalizing s with
  | nil =>
    cases ran
    exact h
  | cons t ts ih =>
    rw [run_cons] at ran
    obtain ⟨next, stepped, ran⟩ := Option.bind_eq_some_iff.mp ran
    exact ih (sound_step h (tokens t List.mem_cons_self) stepped)
      (fun t' ht => tokens t' (List.mem_cons_of_mem t ht)) ran

private theorem forall_mem_ite {α : Type} {P : α → Prop} {condition : Prop} [Decidable condition]
    {a b : Option α} (ha : ∀ x ∈ a, P x) (hb : ∀ x ∈ b, P x) :
    ∀ x ∈ if condition then a else b, P x := by
  split
  next => exact ha
  next => exact hb

private theorem sound_between (c : Char) : ∀ p ∈ between c, ∀ t ∈ p.2, t.Sound := by
  have quiet (m : Mode) : ∀ p ∈ some (m, ([] : List Token)), ∀ t ∈ p.2, t.Sound := by simp
  have mark {t : Token} (sound : t.Sound) :
      ∀ p ∈ some (Mode.between, [t]), ∀ t ∈ p.2, t.Sound := by simp [sound]
  unfold between
  refine forall_mem_ite (quiet _) (forall_mem_ite (quiet _) ?_)
  refine forall_mem_ite (mark trivial) (forall_mem_ite (mark trivial) ?_)
  refine forall_mem_ite (mark trivial) (forall_mem_ite (mark trivial) ?_)
  refine forall_mem_ite (mark trivial) (forall_mem_ite (mark trivial) ?_)
  exact forall_mem_ite (quiet _) (forall_mem_ite (quiet _) (by simp))

private theorem sound_scalarOfWord? {cs : List Char} {v : Value} (h : scalarOfWord? cs = some v) :
    (Token.scalar v).Sound := by
  unfold scalarOfWord? at h
  split_ifs at h <;> cases h <;> exact ⟨trivial, rfl⟩

private theorem sound_num (n : Number) : (Token.scalar (.num n)).Sound := ⟨trivial, rfl⟩

private theorem sound_str (s : String) : (Token.scalar (.str s)).Sound := ⟨trivial, rfl⟩

/-- A scalar that ends where the next token begins comes before what is found there. -/
theorem sound_ended {v : Value} {c : Char} {p : Mode × List Token} (scalar : (Token.scalar v).Sound)
    (h : (do
      let (m, ts) ← between c
      some (m, Token.scalar v :: ts)) = some p) : ∀ t ∈ p.2, t.Sound := by
  obtain ⟨q, found, h⟩ := Option.bind_eq_some_iff.mp h
  cases h
  intro t ht
  rcases List.mem_cons.mp ht with rfl | ht
  · exact scalar
  · exact sound_between c q found t ht

private theorem sound_lexStep {m : Mode} {c : Char} {p : Mode × List Token}
    (h : lexStep m c = some p) :
    ∀ t ∈ p.2, t.Sound := by
  have none (t : Token) (ht : t ∈ []) : t.Sound := absurd ht List.not_mem_nil
  cases m with
  | between => exact sound_between c p h
  | word read =>
    rw [lexStep] at h
    split at h
    next =>
      cases h
      exact none
    next =>
      obtain ⟨v, word, h⟩ := Option.bind_eq_some_iff.mp h
      exact sound_ended (sound_scalarOfWord? word) h
  | numeral read =>
    rw [lexStep] at h
    split at h
    next =>
      cases h
      exact none
    next =>
      obtain ⟨n, number, h⟩ := Option.bind_eq_some_iff.mp h
      exact sound_ended (sound_num n) h
  | text read high =>
    rw [lexStep] at h
    split_ifs at h
    · cases h
      exact none
    · cases h
      intro t ht
      rw [List.mem_singleton.mp ht]
      exact sound_str _
    · cases h
      exact none
  | escape read high =>
    rw [lexStep] at h
    split_ifs at h
    · cases h
      exact none
    · obtain ⟨x, -, rfl⟩ := Option.map_eq_some_iff.mp h
      exact none
  | unicode read high missing code =>
    rw [lexStep] at h
    split at h
    next => cases h
    next d =>
      dsimp only at h
      split_ifs at h
      · obtain ⟨x, -, rfl⟩ := Option.map_eq_some_iff.mp h
        exact none
      · cases h
        exact none

private theorem sound_lexRun {m : Mode} {out : List Token} {cs : List Char} {p : Mode × List Token}
    (h : ∀ t ∈ out, t.Sound) (ran : lexRun m out cs = some p) : ∀ t ∈ p.2, t.Sound := by
  induction cs generalizing m out with
  | nil =>
    cases ran
    exact h
  | cons c cs ih =>
    rw [lexRun] at ran
    cases stepped : lexStep m c with
    | none => simp [stepped] at ran
    | some q =>
      rw [stepped] at ran
      refine ih (fun t ht => ?_) ran
      rcases List.mem_append.mp ht with new | old
      · exact sound_lexStep stepped t (List.mem_reverse.mp new)
      · exact h t old

private theorem sound_tokens {cs : List Char} {ts : List Token} (h : tokens? cs = some ts) :
    ∀ t ∈ ts, t.Sound := by
  have nil : ∀ t ∈ ([] : List Token), t.Sound := fun _ ht => absurd ht List.not_mem_nil
  unfold tokens? at h
  split at h
  next out ran =>
    cases h
    exact fun t ht => sound_lexRun nil ran t (List.mem_reverse.mp ht)
  next read out ran =>
    obtain ⟨v, word, rfl⟩ := Option.map_eq_some_iff.mp h
    intro t ht
    rcases List.mem_cons.mp (List.mem_reverse.mp ht) with rfl | ht
    · exact sound_scalarOfWord? word
    · exact sound_lexRun nil ran t ht
  next read out ran =>
    obtain ⟨n, number, rfl⟩ := Option.map_eq_some_iff.mp h
    intro t ht
    rcases List.mem_cons.mp (List.mem_reverse.mp ht) with rfl | ht
    · exact sound_num n
    · exact sound_lexRun nil ran t ht
  next => exact nomatch h

theorem fits_of_parse? {text : String} {v : Value} (h : parse? text = some v) : Fits 0 v := by
  obtain ⟨ts, lexed, read⟩ := Option.bind_eq_some_iff.mp h
  unfold ofTokens? at read
  split at read
  next w ran =>
    cases read
    exact sound_run (s := .reading .value []) trivial (sound_tokens lexed) ran
  next => exact nomatch read

end Json

namespace Yaml

private theorem distinct_ofReal (r : Real64) : (ofReal r).Distinct := by
  cases r <;> exact trivial

private theorem distinct_plainValue? {cs : List Char} {v : Value} (h : plainValue? cs = some v) :
    v.Distinct := by
  unfold plainValue? at h
  split at h
  next =>
    cases h
    exact trivial
  next =>
    split at h
    next =>
      cases h
      exact trivial
    next =>
      obtain ⟨n, -, rfl⟩ := Option.map_eq_some_iff.mp h
      exact trivial
    next =>
      split at h
      next r _ =>
        cases h
        exact distinct_ofReal r
      next =>
        cases h
        exact trivial

private theorem distinct_scalar {tag : Option (List Char)} {s : Scalar} {v : Value}
    (h : s.value? tag = some v) : v.Distinct := by
  unfold Scalar.value? at h
  split at h
  next =>
    split_ifs at h
    · exact distinct_plainValue? h
    · cases h
      exact trivial
  next t =>
    split_ifs at h
    · obtain ⟨b, -, rfl⟩ := Option.map_eq_some_iff.mp h
      exact trivial
    · obtain ⟨i, -, h⟩ := Option.bind_eq_some_iff.mp h
      obtain ⟨n, -, rfl⟩ := Option.map_eq_some_iff.mp h
      exact trivial
    · obtain ⟨r, -, rfl⟩ := Option.map_eq_some_iff.mp h
      exact distinct_ofReal r
    · cases h
      exact trivial
    · cases h
      exact trivial

private theorem exists_of_mem_mapSpending {α β : Type} {f : α → Nat → Option (β × Nat)}
    {xs : List α} {ys : List β} {budget rest : Nat}
    (h : mapSpending f xs budget = some (ys, rest)) :
    ∀ y ∈ ys, ∃ x budget rest, f x budget = some (y, rest) := by
  induction xs generalizing ys budget with
  | nil =>
    cases h
    exact fun _ hy => absurd hy List.not_mem_nil
  | cons x xs ih =>
    obtain ⟨⟨y, budget'⟩, first, h⟩ := Option.bind_eq_some_iff.mp h
    obtain ⟨⟨ys', rest'⟩, later, h⟩ := Option.bind_eq_some_iff.mp h
    cases h
    intro z hz
    rcases List.mem_cons.mp hz with rfl | hz
    · exact ⟨x, budget, budget', first⟩
    · exact ih later z hz

private theorem distinct_value (anchors : Anchors) {depth : Nat} {n : Node} {budget rest : Nat}
    {v : Value} (h : n.value anchors depth budget = some (v, rest)) : v.Distinct := by
  induction depth generalizing n budget rest v with
  | zero =>
    rw [Node.value] at h
    obtain ⟨⟨followed, budget'⟩, -, h⟩ := Option.bind_eq_some_iff.mp h
    cases followed with
    | scalar tag s =>
      obtain ⟨w, read, h⟩ := Option.bind_eq_some_iff.mp h
      cases h
      exact distinct_scalar read
    | _ => exact nomatch h
  | succ depth ih =>
    rw [Node.value] at h
    obtain ⟨⟨followed, budget'⟩, -, h⟩ := Option.bind_eq_some_iff.mp h
    cases followed with
    | scalar tag s =>
      obtain ⟨w, read, h⟩ := Option.bind_eq_some_iff.mp h
      cases h
      exact distinct_scalar read
    | seq tag items =>
      dsimp only at h
      split at h
      next => exact nomatch h
      next =>
        obtain ⟨⟨vs, left⟩, read, h⟩ := Option.bind_eq_some_iff.mp h
        cases h
        refine Value.distinctItems_iff.mpr fun w hw => ?_
        obtain ⟨item, _, _, itemRead⟩ := exists_of_mem_mapSpending read w hw
        exact ih itemRead
    | map tag entries =>
      dsimp only at h
      split at h
      next => exact nomatch h
      next =>
        obtain ⟨⟨ps, left⟩, read, h⟩ := Option.bind_eq_some_iff.mp h
        cases h
        refine ⟨Assoc.nodup_keys_ofList ps, Value.distinctMembers_iff.mpr fun p hp => ?_⟩
        obtain ⟨entry, _, _, entryRead⟩ :=
          exists_of_mem_mapSpending read p (Assoc.mem_ofList hp)
        obtain ⟨⟨key, _⟩, -, entryRead⟩ := Option.bind_eq_some_iff.mp entryRead
        obtain ⟨⟨w, _⟩, valueRead, entryRead⟩ := Option.bind_eq_some_iff.mp entryRead
        cases entryRead
        exact ih valueRead
    | _ => exact nomatch h

private theorem distinct_of_parse? {text : String} {v : Value} (h : parse? text = some v) :
    v.Distinct := by
  obtain ⟨ts, -, h⟩ := Option.bind_eq_some_iff.mp h
  obtain ⟨doc, -, h⟩ := Option.bind_eq_some_iff.mp h
  obtain ⟨⟨w, rest⟩, read, h⟩ := Option.bind_eq_some_iff.mp h
  cases h
  exact distinct_value doc.anchors read

end Yaml

namespace Notation

theorem parse?_of_document {text : String} {v : Value} (h : json.document text = .ok v) :
    Json.parse? text = some v := by
  unfold document at h
  dsimp only at h
  cases parsed : Json.parse? text with
  | none => simp [parsed] at h
  | some w =>
    rw [parsed] at h
    cases h
    rfl

theorem distinct_of_document {form : Notation} {text : String} {v : Value}
    (h : form.document text = .ok v) : v.Distinct := by
  cases form with
  | json => exact (Json.fits_of_parse? (parse?_of_document h)).distinct
  | yaml =>
    unfold document at h
    dsimp only at h
    cases parsed : Yaml.parse? text with
    | none => simp [parsed] at h
    | some w =>
      rw [parsed] at h
      cases h
      exact Yaml.distinct_of_parse? parsed

end Notation

end WorkflowGraph
