/- The files that are tried for an id: which they are, where they lie, and in which order. -/

import Mathlib.Data.List.Nodup
import Mathlib.Data.List.ProdSigma
import WorkflowGraph.Proofs.FileNames

set_option autoImplicit false
set_option relaxedAutoImplicit false

/-!
Whether an id could lead out of its directory is asked once, of the id as it is given, and what is
joined to the directory are its variants. No variant brings in what the id does not have, so every
file that is tried lies directly in the directory. Variants are distinct, and so are the endings, so
the place of a file in the search tells its variant and its ending.
-/

namespace WorkflowGraph

namespace Text

private theorem startsWith_iff {part cs : List Char} : startsWith part cs = true ↔ part <+: cs := by
  constructor
  · intro h
    obtain ⟨rest, found⟩ := Option.isSome_iff_exists.mp h
    exact ⟨rest, (eq_append_of_dropFirst? found).symm⟩
  · rintro ⟨rest, rfl⟩
    rw [startsWith, dropFirst?_append]
    rfl

private theorem occurs_iff {part cs : List Char} : occurs part cs = true ↔ part <:+: cs := by
  induction cs with
  | nil =>
    have whole : occurs part [] = startsWith part [] := rfl
    rw [whole, startsWith_iff, List.prefix_nil, List.infix_nil]
  | cons c cs ih =>
    rw [occurs_cons, Bool.or_eq_true, startsWith_iff, List.infix_cons_iff]
    exact or_congr_right ih

end Text

/-- A text without a separator of paths and without two dots in a row. -/
def StaysInside (s : String) : Prop :=
  '/' ∉ s.toList ∧ '\\' ∉ s.toList ∧ ¬ "..".toList <:+: s.toList

instance (s : String) : Decidable (StaysInside s) := inferInstanceAs (Decidable (_ ∧ _ ∧ _))

private theorem leavesDirectory_eq_false_iff {id : String} :
    leavesDirectory id = false ↔ StaysInside id := by
  rw [StaysInside, ← Text.occurs_iff, leavesDirectory, Bool.or_eq_false_iff, Bool.not_eq_true,
    ← and_assoc, List.any_eq_false]
  apply and_congr_left
  intro _
  constructor
  · intro none_
    constructor <;> intro there <;> simpa using none_ _ there
  · rintro ⟨slash, backslash⟩ c hc separator
    rcases of_decide_eq_true separator with rfl | rfl
    · exact slash hc
    · exact backslash hc

private theorem staysInside_of_mem_candidateNames {id n : String} (hn : n ∈ candidateNames id)
    (inside : StaysInside id) : StaysInside n := by
  rw [← leavesDirectory_eq_false_iff, ← Bool.not_eq_true] at *
  exact fun leaves => inside (leavesDirectory_of_mem_candidateNames hn leaves)

private theorem nodup_appendNew {α : Type} [DecidableEq α] {old : List α} (h : old.Nodup)
    (new : List α) : (appendNew old new).Nodup := by
  induction new generalizing old with
  | nil => exact h
  | cons x new ih =>
    have step : appendNew old (x :: new) =
        appendNew (if x ∈ old then old else old ++ [x]) new := rfl
    rw [step]
    apply ih
    split
    · exact h
    · next fresh =>
      rw [List.nodup_append]
      refine ⟨h, by simp, ?_⟩
      intro a ha b hb same
      obtain rfl := List.mem_singleton.mp hb
      exact fresh (same ▸ ha)

private theorem nodup_candidateNames (id : String) : (candidateNames id).Nodup :=
  nodup_appendNew List.nodup_nil _

section Places

variable {α β : Type} [BEq α] [LawfulBEq α] [BEq β] [LawfulBEq β]

private theorem idxOf_map {g : α → β} {xs : List α} {x : α} (inj : ∀ y ∈ xs, g y = g x → y = x) :
    (xs.map g).idxOf (g x) = xs.idxOf x := by
  induction xs with
  | nil => rfl
  | cons y xs ih =>
    rw [List.map_cons]
    by_cases own : y = x
    · rw [own, List.idxOf_cons_self, List.idxOf_cons_self]
    · have other : g y ≠ g x := fun same => own (inj y List.mem_cons_self same)
      rw [List.idxOf_cons_ne _ own, List.idxOf_cons_ne _ other,
        ih fun z hz => inj z (List.mem_cons_of_mem y hz)]

private theorem idxOf_product {xs : List α} {ys : List β} {x : α} {y : β} (hx : x ∈ xs)
    (hy : y ∈ ys) :
    (xs ×ˢ ys).idxOf (x, y) = ys.length * xs.idxOf x + ys.idxOf y := by
  induction xs with
  | nil => exact absurd hx List.not_mem_nil
  | cons a xs ih =>
    rw [List.product_cons]
    by_cases own : a = x
    · subst own
      have inRow : (a, y) ∈ ys.map fun b => (a, b) := List.mem_map_of_mem hy
      have place : (ys.map fun b => (a, b)).idxOf (a, y) = ys.idxOf y :=
        idxOf_map (g := fun b => (a, b)) fun b _ same => (Prod.mk.inj same).2
      rw [List.idxOf_append_of_mem inRow, List.idxOf_cons_self, place]
      omega
    · have later : (x, y) ∉ ys.map fun b => (a, b) := by
        intro there
        obtain ⟨b, -, same⟩ := List.mem_map.mp there
        exact own (Prod.mk.inj same).1
      have rest := ih ((List.mem_cons.mp hx).resolve_left fun same => own same.symm)
      rw [List.idxOf_append_of_notMem later, List.idxOf_cons_ne _ own, rest, List.length_map,
        Nat.mul_succ]
      omega

end Places

/-- The path that is tried for a variant of an id and an ending. -/
def variantPath (dir : Path) (t : String × String) : Path := dir.child (configFileName t.1 t.2)

private theorem configFileName_inj {n m e f : String} (named : n ≠ "") (named' : m ≠ "")
    (known : e ∈ Notation.extensions) (known' : f ∈ Notation.extensions)
    (same : configFileName n e = configFileName m f) : n = m ∧ e = f := by
  have carried := fileId?_configFileName named known
  rw [same, fileId?_configFileName named' known'] at carried
  obtain rfl := Option.some.inj carried
  refine ⟨rfl, ?_⟩
  rw [configFileName, configFileName] at same
  simpa using same

private theorem variantPath_injOn {dir : Path} {id : String} :
    ∀ t ∈ candidateNames id ×ˢ Notation.extensions,
      ∀ u ∈ candidateNames id ×ˢ Notation.extensions,
        variantPath dir t = variantPath dir u → t = u := by
  intro t ht u hu same
  obtain ⟨hn, he⟩ := List.mem_product.mp ht
  obtain ⟨hm, hf⟩ := List.mem_product.mp hu
  have name : configFileName t.1 t.2 = configFileName u.1 u.2 := by
    simpa [variantPath, Path.child] using same
  obtain ⟨first, second⟩ := configFileName_inj (ne_empty_of_mem_candidateNames hn)
    (ne_empty_of_mem_candidateNames hm) he hf name
  exact Prod.ext first second

private theorem candidatePaths_eq (dir : Path) {id : String} (inside : StaysInside id) :
    candidatePaths dir id = (candidateNames id ×ˢ Notation.extensions).map (variantPath dir) := by
  have files := leavesDirectory_eq_false_iff.mpr inside
  simp [candidatePaths, candidateFiles, files, SProd.sprod, List.product, List.map_flatMap,
    Function.comp_def, variantPath]

private theorem candidatePaths_of_not_staysInside (dir : Path) {id : String}
    (leads : ¬ StaysInside id) :
    candidatePaths dir id = [] := by
  rw [← leavesDirectory_eq_false_iff, Bool.not_eq_false] at leads
  simp [candidatePaths, candidateFiles, leads]

private theorem mem_candidatePaths_iff {dir : Path} {id : String} {p : Path} :
    p ∈ candidatePaths dir id ↔ StaysInside id ∧
      ∃ n ∈ candidateNames id, ∃ e ∈ Notation.extensions, p = variantPath dir (n, e) := by
  by_cases inside : StaysInside id
  · rw [candidatePaths_eq dir inside, List.mem_map]
    constructor
    · rintro ⟨⟨n, e⟩, ht, rfl⟩
      obtain ⟨hn, he⟩ := List.mem_product.mp ht
      exact ⟨inside, n, hn, e, he, rfl⟩
    · rintro ⟨-, n, hn, e, he, rfl⟩
      exact ⟨(n, e), List.mem_product.mpr ⟨hn, he⟩, rfl⟩
  · simp [candidatePaths_of_not_staysInside dir inside, inside]

private theorem nodup_candidatePaths (dir : Path) (id : String) :
    (candidatePaths dir id).Nodup := by
  by_cases inside : StaysInside id
  · rw [candidatePaths_eq dir inside]
    have endings : Notation.extensions.Nodup := by decide
    exact ((nodup_candidateNames id).product endings).map_on variantPath_injOn
  · rw [candidatePaths_of_not_staysInside dir inside]
    exact List.nodup_nil

private theorem idxOf_candidatePaths {dir : Path} {id n e : String} (inside : StaysInside id)
    (hn : n ∈ candidateNames id) (he : e ∈ Notation.extensions) :
    (candidatePaths dir id).idxOf (variantPath dir (n, e)) =
      3 * (candidateNames id).idxOf n + Notation.extensions.idxOf e := by
  have pair := List.mem_product.mpr ⟨hn, he⟩
  have three : Notation.extensions.length = 3 := rfl
  rw [candidatePaths_eq dir inside,
    idxOf_map fun t ht same => variantPath_injOn t ht (n, e) pair same, idxOf_product hn he, three]

private theorem variantPath_isChild (dir : Path) (n e : String) :
    (variantPath dir (n, e)).parent? = some dir ∧
      (variantPath dir (n, e)).fileName? = some (n ++ "_config." ++ e) := by
  have name : configFileName n e = n ++ "_config." ++ e := by
    have mark : configSuffix ++ "." = "_config." := by decide
    rw [← mark, ← String.append_assoc, configFileName]
  have long : 2 < (n ++ "_config." ++ e).length := by
    have size : "_config.".length = 8 := by decide
    rw [String.length_append, String.length_append, size]
    omega
  refine ⟨Path.parent?_child dir _, ?_⟩
  rw [variantPath, name]
  apply Path.fileName?_child
  constructor <;> intro same <;> rw [same] at long <;> exact absurd long (by decide)

/-- Every path that is tried for an id is a file directly in the directory, with the name of a
variant in which nothing leads out of it and with one of three endings; each is tried once, by
variant first and by ending second. An id with something that leads out has none. -/
theorem candidatePaths_confined (dir : Path) (id : String) :
    (∀ p ∈ candidatePaths dir id, ∃ n ∈ candidateNames id, ∃ e ∈ ["json", "yaml", "yml"],
      p.parent? = some dir ∧ p.fileName? = some (n ++ "_config." ++ e) ∧ n ≠ "" ∧
        StaysInside n) ∧
    (candidatePaths dir id).Nodup ∧
    (StaysInside id → ∀ n ∈ candidateNames id, ∀ m ∈ candidateNames id,
      ∀ e ∈ ["json", "yaml", "yml"], ∀ f ∈ ["json", "yaml", "yml"],
        variantPath dir (n, e) ∈ candidatePaths dir id ∧
        ((candidatePaths dir id).idxOf (variantPath dir (n, e)) <
            (candidatePaths dir id).idxOf (variantPath dir (m, f)) ↔
          (candidateNames id).idxOf n < (candidateNames id).idxOf m ∨
            n = m ∧ ["json", "yaml", "yml"].idxOf e < ["json", "yaml", "yml"].idxOf f)) ∧
    (¬ StaysInside id → candidatePaths dir id = []) := by
  refine ⟨?_, nodup_candidatePaths dir id, ?_, candidatePaths_of_not_staysInside dir⟩
  · intro p hp
    obtain ⟨inside, n, hn, e, he, rfl⟩ := mem_candidatePaths_iff.mp hp
    obtain ⟨parent, name⟩ := variantPath_isChild dir n e
    exact ⟨n, hn, e, he, parent, name, ne_empty_of_mem_candidateNames hn,
      staysInside_of_mem_candidateNames hn inside⟩
  · intro inside n hn m hm e he f hf
    refine ⟨mem_candidatePaths_iff.mpr ⟨inside, n, hn, e, he, rfl⟩, ?_⟩
    have rowOf (e : String) (he : e ∈ Notation.extensions) : Notation.extensions.idxOf e < 3 :=
      List.idxOf_lt_length_of_mem he
    have first := rowOf e he
    have second := rowOf f hf
    rw [idxOf_candidatePaths inside hn he, idxOf_candidatePaths inside hm hf,
      ← List.idxOf_inj hn]
    change _ ↔ _ ∨ _ ∧ Notation.extensions.idxOf e < Notation.extensions.idxOf f
    omega

/-- The last variant of an id comes after the others, and in none of its files is it left. -/
theorem last_variant_confined : ∃ n ∈ candidateNames "A b", ∃ e ∈ ["json", "yaml", "yml"],
    (variantPath ⟨true, ["configs"]⟩ ("a_b", "json")).fileName? = some (n ++ "_config." ++ e) ∧
      StaysInside n ∧
      (candidatePaths ⟨true, ["configs"]⟩ "A b").idxOf
          (variantPath ⟨true, ["configs"]⟩ ("A b", "yml")) <
        (candidatePaths ⟨true, ["configs"]⟩ "A b").idxOf
          (variantPath ⟨true, ["configs"]⟩ ("a_b", "json")) := by
  have names : candidateNames "A b" = ["A b", "A_b", "a b", "a_b"] := by decide +kernel
  have first : "A b" ∈ candidateNames "A b" := by simp [names]
  have last : "a_b" ∈ candidateNames "A b" := by simp [names]
  obtain ⟨each, -, order, -⟩ := candidatePaths_confined ⟨true, ["configs"]⟩ "A b"
  have inside : StaysInside "A b" := by decide +kernel
  obtain ⟨tried, -⟩ :=
    order inside "a_b" last "a_b" last "json" (by decide) "json" (by decide)
  obtain ⟨-, before⟩ :=
    order inside "A b" first "a_b" last "yml" (by decide) "json" (by decide)
  obtain ⟨n, hn, e, he, -, name, -, stays⟩ := each _ tried
  refine ⟨n, hn, e, he, name, stays, before.mpr (Or.inl ?_)⟩
  rw [names]
  decide

end WorkflowGraph
