/- What each stage of resolving inputs does to the flat map, and what all of them keep. -/

import WorkflowGraph.Inputs.Resolve
import WorkflowGraph.Proofs.Leaves

set_option autoImplicit false
set_option relaxedAutoImplicit false

/-!
Defaults, numerals and seeds are three passes over the declared fields. A step of a pass either
leaves the map as it is or writes one value under the id of its field, so a property of the flat
inputs that such writes keep is a property of the resolved inputs.
-/

namespace WorkflowGraph

namespace Config

variable {c : Config}

theorem fillDefault_cases (c : Config) (supplied acc : Object) (f : Field) :
    c.fillDefault supplied acc f = acc ∨
      ∃ v, f.default? = some v ∧ isMissing acc f.id = true ∧
        c.dependencyMet f supplied = true ∧
        c.fillDefault supplied acc f = Assoc.insert f.id v acc := by
  cases hd : f.default? with
  | none =>
    left
    simp [fillDefault, hd]
  | some v =>
    cases hm : isMissing acc f.id with
    | false =>
      left
      simp [fillDefault, hm]
    | true =>
      cases hc : c.dependencyMet f supplied with
      | false =>
        left
        simp [fillDefault, hd, hm, hc]
      | true =>
        right
        exact ⟨v, rfl, rfl, rfl, by simp [fillDefault, hd, hm, hc]⟩

theorem numeral?_eq_some {type : FieldType} {v w : Value} (h : numeral? type v = some w) :
    (∃ s, v = .str s) ∧ ∃ n, w = .num n := by
  cases v with
  | str s =>
    refine ⟨⟨s, rfl⟩, ?_⟩
    cases type with
    | slider =>
      obtain ⟨d, -, rfl⟩ := Option.map_eq_some_iff.mp (show _ = some w from h)
      exact ⟨.double d, rfl⟩
    | seed =>
      obtain ⟨i, -, rfl⟩ := Option.map_eq_some_iff.mp (show _ = some w from h)
      by_cases fits : FitsNumber i
      · exact ⟨.int i fits, Value.ofInt_of_fits fits⟩
      · exact ⟨.double (Double.ofInt i), by simp [Value.ofInt, fits]⟩
    | _ => exact absurd h (by simp [numeral?])
  | _ => exact absurd h (by simp [numeral?])

theorem readNumeral_cases (acc : Object) (f : Field) :
    readNumeral acc f = acc ∨
      ∃ v n, Assoc.get? f.id acc = some v ∧ numeral? f.type v = some (.num n) ∧
        readNumeral acc f = Assoc.insert f.id (.num n) acc := by
  cases hv : Assoc.get? f.id acc with
  | none => exact Or.inl (Assoc.modify_of_get?_eq_none hv _)
  | some v =>
    have changed := Assoc.modify_of_get? hv fun v => (numeral? f.type v).getD v
    cases hn : numeral? f.type v with
    | none =>
      left
      rw [hn, Option.getD_none, Assoc.insert_of_get? hv] at changed
      exact changed
    | some w =>
      obtain ⟨n, rfl⟩ := (numeral?_eq_some hn).2
      right
      rw [hn, Option.getD_some] at changed
      exact ⟨v, n, rfl, hn, changed⟩

theorem drawSeed_cases (s : Object × Words) (f : Field) :
    drawSeed s f = s ∨
      ∃ v, f.type = .seed ∧ Assoc.get? f.id s.1 = some v ∧ v.int? = some randomSeed ∧
        drawSeed s f = (Assoc.insert f.id (.ofNat s.2.draw.1) s.1, s.2.draw.2) := by
  unfold drawSeed
  split
  · rename_i i ht hi
    obtain ⟨v, hv, hi⟩ := Option.bind_eq_some_iff.mp hi
    by_cases he : i = randomSeed
    · subst he
      exact Or.inr ⟨v, ht, hv, hi, by simp⟩
    · exact Or.inl (by simp [he])
  · exact Or.inl rfl

theorem ofNat_seed (words : Words) : ∃ n, Value.ofNat words.draw.1 = .num n := by
  have fits : FitsNumber words.draw.1 := by
    have h := Words.draw_fst_lt words
    simp only [Words.seedBound] at h
    simp only [FitsNumber]
    omega
  exact ⟨.int _ fits, Value.ofInt_of_fits fits⟩

/-- A property of the flat inputs that holds on when a default or a number is written under the id
of a declared field is a property of the resolved inputs. -/
theorem resolve_induction (c : Config) (inputs : Object) (words : Words) {motive : Object → Prop}
    (flat : motive (c.flatten inputs))
    (default : ∀ f ∈ c.inputs, ∀ v, f.default? = some v → ∀ acc, motive acc →
      motive (Assoc.insert f.id v acc))
    (number : ∀ f ∈ c.inputs, ∀ n acc, motive acc → motive (Assoc.insert f.id (.num n) acc)) :
    motive (c.resolve inputs words).1 := by
  have filled : motive (c.fillDefaults (c.flatten inputs)) := by
    refine List.foldlRecOn c.inputs _ flat fun acc hacc f hf => ?_
    rcases c.fillDefault_cases (c.flatten inputs) acc f with h | ⟨v, hv, -, -, h⟩
    · rw [h]
      exact hacc
    · rw [h]
      exact default f hf v hv acc hacc
  have read : motive (c.readNumerals (c.fillDefaults (c.flatten inputs))) := by
    refine List.foldlRecOn c.inputs _ filled fun acc hacc f hf => ?_
    rcases readNumeral_cases acc f with h | ⟨v, n, -, -, h⟩
    · rw [h]
      exact hacc
    · rw [h]
      exact number f hf n acc hacc
  refine List.foldlRecOn (motive := fun s : Object × Words => motive s.1) c.inputs _ read
    fun s hs f hf => ?_
  rcases drawSeed_cases s f with h | ⟨v, -, -, -, h⟩
  · rw [h]
    exact hs
  · obtain ⟨n, hn⟩ := ofNat_seed s.2
    rw [h, hn]
    exact number f hf n s.1 hs

theorem nodup_keys_resolve (c : Config) (inputs : Object) (words : Words) :
    (Assoc.keys (c.resolve inputs words).1).Nodup := by
  refine c.resolve_induction (motive := fun acc => (Assoc.keys acc).Nodup) inputs words
    (nodup_keys_flattenDeclared inputs) ?_ ?_
  · intro f _ v _ acc nodup
    exact Assoc.nodup_keys_insert nodup v
  · intro f _ n acc nodup
    exact Assoc.nodup_keys_insert nodup (.num n)

end Config

end WorkflowGraph
