/- File names of configs: the id in the name that is tried for a variant is the variant. -/

import WorkflowGraph.Proofs.Targets
import WorkflowGraph.Store.Candidates

set_option autoImplicit false
set_option relaxedAutoImplicit false

/-!
Finding the file of an id and telling the id of a file are apart in the program. They meet in the
variants: every variant of an id that cannot leave the directory is an id that cannot leave it
either and that is tried first among its own variants, and the names tried for a variant carry it.
So the file found for an id is found for the id in its name.
-/

namespace WorkflowGraph

namespace Text

/-- A character that a text needs to lead out of a directory. -/
def Special (c : Char) : Prop := c = '.' ∨ c = '/' ∨ c = '\\'

instance (c : Char) : Decidable (Special c) := inferInstanceAs (Decidable (_ ∨ _))

/-- Every character of a text stays or becomes one or more others, none of them special. -/
inductive Respells : List Char → List Char → Prop
  | nil : Respells [] []
  | keep (c : Char) {cs cs' : List Char} (rest : Respells cs cs') : Respells (c :: cs) (c :: cs')
  | change (c : Char) {piece cs cs' : List Char} (some_ : piece ≠ [])
    (plain : ∀ x ∈ piece, ¬ Special x) (rest : Respells cs cs') :
    Respells (c :: cs) (piece ++ cs')

private theorem Respells.head_of_special {cs cs' rest : List Char} {x : Char} (h : Respells cs cs')
    (head : cs' = x :: rest) (special : Special x) : ∃ rest', cs = x :: rest' := by
  cases h with
  | nil => exact nomatch head
  | keep c _ =>
    obtain ⟨rfl, -⟩ := List.cons.inj head
    exact ⟨_, rfl⟩
  | @change c piece _ _ some_ plain _ =>
    cases piece with
    | nil => exact absurd rfl some_
    | cons y piece =>
      obtain ⟨rfl, -⟩ := List.cons.inj head
      exact absurd special (plain y List.mem_cons_self)

private theorem Respells.mem_of_special {cs cs' : List Char} {x : Char} (h : Respells cs cs')
    (special : Special x) (there : x ∈ cs') : x ∈ cs := by
  induction h with
  | nil => exact there
  | keep c _ ih =>
    rcases List.mem_cons.mp there with rfl | there
    · exact List.mem_cons_self
    · exact List.mem_cons_of_mem c (ih there)
  | change c _ plain _ ih =>
    rcases List.mem_append.mp there with there | there
    · exact absurd special (plain x there)
    · exact List.mem_cons_of_mem c (ih there)

theorem occurs_cons (part : List Char) (c : Char) (cs : List Char) :
    occurs part (c :: cs) = (startsWith part (c :: cs) || occurs part cs) := by
  unfold occurs startsWith
  rw [after?]
  cases dropFirst? part (c :: cs) <;> simp

private theorem dots_of_startsWith {cs : List Char} (h : startsWith "..".toList cs = true) :
    ∃ rest, cs = '.' :: '.' :: rest := by
  obtain ⟨rest, hrest⟩ := Option.isSome_iff_exists.mp h
  exact ⟨rest, eq_append_of_dropFirst? hrest⟩

private theorem occurs_dots_append {piece cs : List Char} (plain : ∀ x ∈ piece, ¬ Special x)
    (h : occurs "..".toList (piece ++ cs) = true) : occurs "..".toList cs = true := by
  induction piece with
  | nil => exact h
  | cons x piece ih =>
    have tail := ih fun y hy => plain y (List.mem_cons_of_mem x hy)
    rw [List.cons_append, occurs_cons, Bool.or_eq_true] at h
    rcases h with h | h
    · obtain ⟨rest, dots⟩ := dots_of_startsWith h
      obtain ⟨rfl, -⟩ := List.cons.inj dots
      exact absurd (Or.inl rfl) (plain '.' List.mem_cons_self)
    · exact tail h

private theorem Respells.occurs_dots {cs cs' : List Char} (h : Respells cs cs')
    (dots : occurs "..".toList cs' = true) : occurs "..".toList cs = true := by
  induction h with
  | nil => exact dots
  | @keep c cs cs' rest ih =>
    rw [occurs_cons, Bool.or_eq_true] at dots ⊢
    rcases dots with dots | dots
    · -- two dots in a row: the second one begins what follows, so it was there before
      obtain ⟨after, two⟩ := dots_of_startsWith dots
      obtain ⟨rfl, second⟩ := List.cons.inj two
      obtain ⟨after', rfl⟩ := rest.head_of_special second (Or.inl rfl)
      exact Or.inl rfl
    · exact Or.inr (ih dots)
  | change c _ plain _ ih =>
    rw [occurs_cons, Bool.or_eq_true]
    exact Or.inr (ih (occurs_dots_append plain dots))

private theorem respells_replaceChar {old new : Char} (plain : ¬ Special new) (s : String) :
    Respells s.toList (replaceChar old new s).toList := by
  rw [replaceChar, String.toList_ofList]
  induction s.toList with
  | nil => exact .nil
  | cons c cs ih =>
    rw [List.map_cons]
    split
    · exact .change c (List.cons_ne_nil new []) (by simpa using plain) ih
    · exact .keep c ih

private theorem lower_caseRuns :
    ∀ r ∈ caseRuns, 92 < (r.first : Int) + r.offset := by decide +kernel

private theorem toNat_of_special {c : Char} (h : Special c) : c.toNat ≤ 92 := by
  rcases h with rfl | rfl | rfl <;> decide

private theorem not_special_ofNat {n : Nat} (h : 92 < n) : ¬ Special (Char.ofNat n) := by
  by_cases valid : n.isValidChar
  · rw [Char.ofNat, dif_pos valid]
    intro special
    have code : n ≤ 92 := toNat_of_special special
    omega
  · rw [Char.ofNat, dif_neg valid]
    decide

private theorem toLower_cases (c : Char) (h : c.toNat < 128) :
    c.toLower = c ∨ ¬ Special c.toLower := by
  have table : ∀ n < 128, (Char.ofNat n).toLower = Char.ofNat n ∨
      ¬ Special (Char.ofNat n).toLower := by decide +kernel
  simpa using table c.toNat h

private theorem lowerChar_cases (c : Char) :
    lowerChar c = [c] ∨ lowerChar c ≠ [] ∧ ∀ x ∈ lowerChar c, ¬ Special x := by
  by_cases ascii : c.toNat < 128
  · have one : lowerChar c = [c.toLower] := if_pos ascii
    rcases toLower_cases c ascii with same | plain
    · exact Or.inl (one.trans (congrArg (fun c => [c]) same))
    · rw [one]
      exact Or.inr ⟨List.cons_ne_nil _ _, by simpa using plain⟩
  · by_cases dotted : c.toNat = 0x130
    · have two : lowerChar c = ['i', Char.ofNat 0x307] :=
        (if_neg ascii).trans (if_pos dotted)
      rw [two]
      refine Or.inr ⟨List.cons_ne_nil _ _, ?_⟩
      simp only [List.forall_mem_cons]
      exact ⟨by decide, not_special_ofNat (by decide), fun _ h => absurd h List.not_mem_nil⟩
    · cases found : caseRuns.find? (·.holds c.toNat) with
      | none =>
        have one : lowerChar c = [c] := by
          rw [lowerChar, if_neg ascii, if_neg dotted, found]
        exact Or.inl one
      | some r =>
        have one : lowerChar c = [Char.ofNat (r.lower c.toNat)] := by
          rw [lowerChar, if_neg ascii, if_neg dotted, found]
        have inside : r.holds c.toNat = true := by simpa using List.find?_some found
        have low := lower_caseRuns r (List.mem_of_find?_eq_some found)
        have plain : ¬ Special (Char.ofNat (r.lower c.toNat)) := by
          apply not_special_ofNat
          simp only [CaseRun.holds, Bool.and_eq_true, decide_eq_true_eq] at inside
          rw [CaseRun.lower]
          omega
        rw [one]
        exact Or.inr ⟨List.cons_ne_nil _ _, by simpa using plain⟩

private theorem respells_lowerFrom (before cs : List Char) : Respells cs (lowerFrom before cs) := by
  induction cs generalizing before with
  | nil => exact .nil
  | cons c cs ih =>
    rw [lowerFrom]
    split
    · refine .change c (List.cons_ne_nil _ _) ?_ (ih _)
      have sigma : ∀ final : Bool, ¬ Special (Char.ofNat (if final then 0x3C2 else 0x3C3)) := by
        decide +kernel
      simpa using sigma (casedFirst before && !casedFirst cs)
    · rcases lowerChar_cases c with same | ⟨some_, plain⟩
      · rw [same]
        exact .keep c (ih _)
      · exact .change c some_ plain (ih _)

private theorem respells_lower (s : String) : Respells s.toList (lower s).toList := by
  rw [lower, String.toList_ofList]
  exact respells_lowerFrom [] s.toList

end Text

private theorem leavesDirectory_of_respells {id id' : String}
    (h : Text.Respells id.toList id'.toList) (leaves : leavesDirectory id' = true) :
    leavesDirectory id = true := by
  simp only [leavesDirectory, Bool.or_eq_true, List.any_eq_true, decide_eq_true_eq] at leaves ⊢
  rcases leaves with ⟨c, there, separator⟩ | dots
  · exact Or.inl ⟨c, h.mem_of_special (Or.inr separator) there, separator⟩
  · exact Or.inr (h.occurs_dots dots)

theorem leavesDirectory_of_mem_candidateNames {id n : String} (hn : n ∈ candidateNames id)
    (leaves : leavesDirectory n = true) : leavesDirectory id = true := by
  have one : ∀ m ∈ [id, Text.replaceChar '-' '_' id, Text.replaceChar '_' '-' id,
      Text.replaceChar ' ' '_' id], leavesDirectory m = true → leavesDirectory id = true := by
    simp only [List.forall_mem_cons]
    refine ⟨fun h => h, ?_, ?_, ?_, fun _ h => absurd h List.not_mem_nil⟩ <;>
      exact leavesDirectory_of_respells (Text.respells_replaceChar (by decide) id)
  have mem := mem_appendNew hn
  rw [List.nil_append] at mem
  rcases List.mem_append.mp (List.mem_filter.mp mem).1 with base | lowered
  · exact one n base leaves
  · obtain ⟨m, hm, rfl⟩ := List.mem_map.mp lowered
    exact one m hm (leavesDirectory_of_respells (Text.respells_lower m) leaves)

private theorem prefix_appendNew {α : Type} [DecidableEq α] (old new : List α) :
    old <+: appendNew old new := by
  induction new generalizing old with
  | nil => exact List.prefix_rfl
  | cons x new ih =>
    have step : appendNew old (x :: new) =
        appendNew (if x ∈ old then old else old ++ [x]) new := rfl
    rw [step]
    split
    · exact ih old
    · exact (List.prefix_append old [x]).trans (ih _)

theorem candidateNames_eq_cons {id : String} (named : id ≠ "") :
    ∃ rest, candidateNames id = id :: rest := by
  rw [candidateNames, List.cons_append, List.filter_cons_of_pos (by simpa using named)]
  obtain ⟨rest, all⟩ := prefix_appendNew [id] _
  exact ⟨rest, all.symm⟩

theorem ne_empty_of_mem_candidateNames {id n : String} (hn : n ∈ candidateNames id) : n ≠ "" := by
  have mem := mem_appendNew hn
  rw [List.nil_append] at mem
  simpa using (List.mem_filter.mp mem).2

namespace Text

theorem cut?_append {sep : Char} {before : List Char} (plain : sep ∉ before) (after : List Char) :
    cut? sep (before ++ sep :: after) = some (before, after) := by
  have passed : ∀ c ∈ before, (c != sep) = true := by
    intro c hc
    simp only [bne_iff_ne]
    rintro rfl
    exact plain hc
  rw [cut?, List.dropWhile_append_of_pos passed, List.takeWhile_append_of_pos passed]
  simp

private theorem dropLast?_append (cs part : List Char) : dropLast? part (cs ++ part) = some cs := by
  rw [dropLast?, List.reverse_append, dropFirst?_append, Option.map_some, List.reverse_reverse]

end Text

private theorem Path.cutName_append {stem extension : String} (some_ : stem ≠ "")
    (plain : '.' ∉ extension.toList) :
    cutName (stem ++ "." ++ extension) = (stem, some extension) := by
  have name : (stem ++ "." ++ extension).toList.reverse =
      extension.toList.reverse ++ '.' :: stem.toList.reverse := by simp
  have plain' : '.' ∉ extension.toList.reverse := by simpa using plain
  have cut := Text.cut?_append plain' stem.toList.reverse
  cases back : stem.toList.reverse with
  | nil => exact absurd (by simpa using back) some_
  | cons c cs =>
    have stem_ : stem.toList = cs.reverse ++ [c] := by
      rw [← List.reverse_cons, ← back, List.reverse_reverse]
    rw [cutName, name, cut, back]
    simp [← stem_]

theorem fileId?_configFileName {n extension : String} (named : n ≠ "")
    (known : extension ∈ Notation.extensions) : fileId? (configFileName n extension) = some n := by
  have facts : ∀ e ∈ Notation.extensions, '.' ∉ e.toList ∧ lowerAscii e = e := by decide +kernel
  obtain ⟨plain, lower⟩ := facts extension known
  have some_ : n ++ configSuffix ≠ "" := by simp [configSuffix]
  have stem : Text.dropLast? configSuffix.toList (n ++ configSuffix).toList = some n.toList := by
    rw [String.toList_append, Text.dropLast?_append]
  rw [fileId?, configFileName, Path.cutName_append some_ plain]
  simp only [lower, known, if_true, stem, Option.map_some, String.ofList_toList]
  simp [named]

theorem configId?_child {n extension : String} (named : n ≠ "")
    (known : extension ∈ Notation.extensions) (dir : Path) :
    (dir.child (configFileName n extension)).configId? = some n := by
  have long : 8 ≤ (configFileName n extension).length := by
    simp only [configFileName, configSuffix, String.length_append]
    have sizes : "_config".length = 7 ∧ ".".length = 1 := by decide
    omega
  have name : configFileName n extension ≠ "." ∧ configFileName n extension ≠ ".." := by
    constructor <;> intro same <;> rw [same] at long <;> exact absurd long (by decide)
  rw [Path.configId?, Path.fileName?_child name, Option.bind_some,
    fileId?_configFileName named known]

/-- The first file that exists among those tried for one variant of an id. -/
def Store.variantFile? (s : Store) (dir : Path) (n : String) : Option Path :=
  (Notation.extensions.map fun e => dir.child (configFileName n e)).find? s.holds

theorem Store.configFile?_eq {s : Store} {dir : Path} {id : String}
    (inside : leavesDirectory id = false) :
    s.configFile? dir id = (candidateNames id).findSome? (s.variantFile? dir) := by
  have files : candidatePaths dir id = (candidateNames id).flatMap fun n =>
      Notation.extensions.map fun e => dir.child (configFileName n e) := by
    simp [candidatePaths, candidateFiles, inside, List.map_flatMap, Function.comp_def]
  rw [configFile?, files, List.find?_flatMap]
  rfl

/-- The file found for an id carries a variant of the id in its name, for which the same file is
found. -/
theorem Store.exists_variant_of_configFile? {s : Store} {dir : Path} {id : String} {p : Path}
    (found : s.configFile? dir id = some p) :
    ∃ n ∈ candidateNames id, p.configId? = some n ∧ s.configFile? dir n = some p := by
  cases leaves : leavesDirectory id with
  | true =>
    have none : candidateFiles id = [] := if_pos leaves
    rw [configFile?, candidatePaths, none] at found
    exact nomatch found
  | false =>
    rw [configFile?_eq leaves] at found
    obtain ⟨n, hn, first⟩ := List.exists_of_findSome?_eq_some found
    have named := ne_empty_of_mem_candidateNames hn
    obtain ⟨e, known, rfl⟩ := List.mem_map.mp (List.mem_of_find?_eq_some first)
    refine ⟨n, hn, configId?_child named known dir, ?_⟩
    have inside : leavesDirectory n = false := by
      rw [← Bool.not_eq_true]
      intro h
      rw [leavesDirectory_of_mem_candidateNames hn h] at leaves
      exact nomatch leaves
    -- the variant tries its own files first, and there the same one is the first that exists
    obtain ⟨rest, own⟩ := candidateNames_eq_cons named
    rw [configFile?_eq inside, own, List.findSome?_cons, first]

theorem Store.configId?_of_configFile? {s : Store} {dir : Path} {id : String} {p : Path}
    (found : s.configFile? dir id = some p) :
    ∃ n, p.configId? = some n ∧ s.configFile? dir n = some p := by
  obtain ⟨n, -, named, again⟩ := exists_variant_of_configFile? found
  exact ⟨n, named, again⟩

end WorkflowGraph
