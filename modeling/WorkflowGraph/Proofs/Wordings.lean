/- The name that the words of a fault show as that of a missing member. -/

import WorkflowGraph.Config.Document
import WorkflowGraph.Proofs.FileNames

set_option autoImplicit false
set_option relaxedAutoImplicit false

/-!
A fault of a missing member is recognized by its words alone: what stands between the first mark and
the next backtick is taken for the name of a member. Words that repeat a text of the document may
carry the mark in that text. The words around such a text have no letter that the mark begins with
before it, and no backtick behind it where the text is closed in quotes, so the mark stands in the
text or nowhere.
-/

namespace WorkflowGraph

namespace Text

private theorem dropFirst?_eq_some_iff {part cs rest : List Char} :
    dropFirst? part cs = some rest ↔ cs = part ++ rest := by
  constructor
  · exact eq_append_of_dropFirst?
  · rintro rfl
    exact dropFirst?_append part rest

private theorem after?_eq_some_iff {part cs rest : List Char} :
    after? part cs = some rest ↔ ∃ before, cs = before ++ (part ++ rest) ∧
      ∀ sooner, sooner ++ part <+: cs → before.length ≤ sooner.length := by
  induction cs with
  | nil =>
    rw [after?, dropFirst?_eq_some_iff]
    constructor
    · intro here
      exact ⟨[], here, fun _ _ => Nat.zero_le _⟩
    · rintro ⟨before, here, -⟩
      exact (List.append_eq_nil_iff.mp here.symm).2.symm
  | cons c cs ih =>
    rw [after?]
    cases here : dropFirst? part (c :: cs) with
    | some rest' =>
      have split := eq_append_of_dropFirst? here
      constructor
      · intro h
        cases h
        exact ⟨[], split, fun _ _ => Nat.zero_le _⟩
      · rintro ⟨before, there, first⟩
        have none_before := first [] ⟨rest', split.symm⟩
        obtain rfl := List.eq_nil_of_length_eq_zero (Nat.le_zero.mp none_before)
        rw [split] at there
        exact congrArg some (List.append_cancel_left there)
    | none =>
      have notHere : ∀ tail, c :: cs ≠ part ++ tail := by
        intro tail split
        rw [dropFirst?_eq_some_iff.mpr split] at here
        cases here
      dsimp only
      rw [ih]
      constructor
      · rintro ⟨before, there, first⟩
        refine ⟨c :: before, by rw [there, List.cons_append], fun sooner occurs => ?_⟩
        cases sooner with
        | nil =>
          obtain ⟨tail, split⟩ := occurs
          exact absurd split.symm (notHere tail)
        | cons d sooner =>
          exact Nat.succ_le_succ (first sooner (List.cons_prefix_cons.mp occurs).2)
      · rintro ⟨before, there, first⟩
        cases before with
        | nil => exact absurd there (notHere rest)
        | cons d before =>
          obtain ⟨rfl, behind⟩ := List.cons.inj (there.trans (List.cons_append ..))
          refine ⟨before, behind, fun sooner occurs => ?_⟩
          have later := first (c :: sooner) (List.cons_prefix_cons.mpr ⟨rfl, occurs⟩)
          exact Nat.le_of_succ_le_succ later

private theorem after?_append_of_not_mem {c : Char} {part before : List Char} (absent : c ∉ before)
    (cs : List Char) : after? (c :: part) (before ++ cs) = after? (c :: part) cs := by
  induction before with
  | nil => rfl
  | cons d before ih =>
    obtain ⟨other, absent⟩ := not_or.mp (List.mem_cons.not.mp absent)
    rw [List.cons_append, after?, dropFirst?, if_neg other]
    exact ih absent

private theorem cut?_eq_some_iff {sep : Char} {cs before after : List Char} :
    cut? sep cs = some (before, after) ↔ cs = before ++ sep :: after ∧ sep ∉ before := by
  constructor
  · intro h
    by_cases there : sep ∈ cs
    · obtain ⟨before', after', rfl, plain⟩ := List.eq_append_cons_of_mem there
      rw [cut?_append plain] at h
      cases h
      exact ⟨rfl, plain⟩
    · have passed : ∀ c ∈ cs, (c != sep) = true := by
        intro c hc
        rw [bne_iff_ne]
        rintro rfl
        exact there hc
      have none_left : cs.dropWhile (· != sep) = [] := by
        rw [← List.append_nil cs, List.dropWhile_append_of_pos passed, List.dropWhile_nil]
      rw [cut?, none_left] at h
      cases h
  · rintro ⟨rfl, plain⟩
    exact cut?_append plain after

end Text

namespace Fault

def mark : List Char := "missing field `".toList

/-- A name stands between the first mark in a text and the next backtick. -/
def Marks (cs : List Char) (name : String) : Prop :=
  ∃ before after, cs = before ++ (mark ++ (name.toList ++ '`' :: after)) ∧ '`' ∉ name.toList ∧
    ∀ sooner, sooner ++ mark <+: cs → before.length ≤ sooner.length

private theorem marks_iff {cs : List Char} {name : String} :
    Marks cs name ↔ ∃ rest after, Text.after? mark cs = some rest ∧
      Text.cut? '`' rest = some (name.toList, after) := by
  constructor
  · rintro ⟨before, after, there, plain, first⟩
    have found := Text.after?_eq_some_iff.mpr ⟨before, there, first⟩
    exact ⟨_, after, found, Text.cut?_append plain after⟩
  · rintro ⟨rest, after, found, cut⟩
    obtain ⟨before, there, first⟩ := Text.after?_eq_some_iff.mp found
    obtain ⟨rfl, plain⟩ := Text.cut?_eq_some_iff.mp cut
    exact ⟨before, after, there, plain, first⟩

theorem missingName?_eq_some_iff {f : Fault} {name : String} :
    f.missingName? = some name ↔ Marks f.message.toList name := by
  rw [marks_iff, missingName?, Option.bind_eq_bind, Option.bind_eq_some_iff]
  apply exists_congr
  intro rest
  rw [exists_and_left]
  apply and_congr_right
  intro _
  rw [Option.bind_eq_bind, Option.bind_eq_some_iff]
  constructor
  · rintro ⟨⟨found, after⟩, cut, named⟩
    cases named
    exact ⟨after, by rw [cut, String.toList_ofList]⟩
  · rintro ⟨after, cut⟩
    exact ⟨(name.toList, after), cut, congrArg some String.ofList_toList⟩

private theorem marks_append_iff {before : List Char} (absent : 'm' ∉ before) (cs : List Char)
    (name : String) : Marks (before ++ cs) name ↔ Marks cs name := by
  have passed : Text.after? mark (before ++ cs) = Text.after? mark cs :=
    Text.after?_append_of_not_mem absent cs
  rw [marks_iff, marks_iff, passed]

private theorem marks_append_iff_of_not_mem {after : List Char} (absent : '`' ∉ after)
    (cs : List Char) (name : String) : Marks (cs ++ after) name ↔ Marks cs name := by
  constructor
  · rintro ⟨before, tail, there, plain, first⟩
    have closed : cs ++ after = (before ++ (mark ++ (name.toList ++ ['`']))) ++ tail := by
      rw [there]
      simp
    obtain ⟨inner, rfl⟩ : before ++ (mark ++ (name.toList ++ ['`'])) <+: cs := by
      obtain ⟨surplus, split, behind⟩ | ⟨inner, split, -⟩ := List.append_eq_append_iff.mp closed
      · rcases List.eq_nil_or_concat surplus with rfl | ⟨short, c, rfl⟩
        · exact ⟨[], by simpa using split⟩
        · obtain rfl : '`' = c := by simpa using congrArg List.getLast? split
          exact absurd (by simp [behind]) absent
      · exact ⟨inner, split.symm⟩
    refine ⟨before, inner, by simp, plain, fun sooner occurs => ?_⟩
    exact first sooner (occurs.trans (List.prefix_append _ after))
  · rintro ⟨before, tail, rfl, plain, first⟩
    refine ⟨before, tail ++ after, by simp, plain, fun sooner occurs => ?_⟩
    obtain inside | beyond := List.prefix_or_prefix_of_prefix occurs (List.prefix_append _ after)
    · exact first sooner inside
    · have long := beyond.length_le
      simp only [List.length_append] at long
      omega

theorem marks_missingMember_iff {member : String} (plain : '`' ∉ member.toList) (name : String) :
    Marks (missingMember member).message.toList name ↔ member = name := by
  have words : (missingMember member).message = "missing field `" ++ member ++ "`" := rfl
  have found : Text.after? mark (missingMember member).message.toList =
      some (member.toList ++ "`".toList) := by
    rw [words, String.toList_append, String.toList_append, Text.after?_eq_some_iff]
    exact ⟨[], List.append_assoc .., fun _ _ => Nat.zero_le _⟩
  have cut : Text.cut? '`' (member.toList ++ "`".toList) = some (member.toList, []) :=
    Text.cut?_append plain []
  rw [marks_iff, found]
  constructor
  · rintro ⟨rest, after, here, named⟩
    cases here
    rw [cut] at named
    exact String.toList_injective (Prod.mk.inj (Option.some.inj named)).1
  · rintro rfl
    exact ⟨_, [], rfl, cut⟩

theorem marks_invalidNodeId_iff (text name : String) :
    Marks (invalidNodeId text).message.toList name ↔ Marks text.toList name := by
  have words : (invalidNodeId text).message = "invalid node id '" ++ (text ++ "'") :=
    String.append_assoc
  rw [words, String.toList_append, String.toList_append, marks_append_iff (by decide),
    marks_append_iff_of_not_mem (by decide)]

theorem marks_misplacedText_iff (text name : String) :
    Marks (misplacedText text).message.toList name ↔ Marks (Text.quoted text).toList name := by
  have words : (misplacedText text).message =
      "invalid type: string " ++ (Text.quoted text ++ ", expected another type") :=
    String.append_assoc
  rw [words, String.toList_append, String.toList_append, marks_append_iff (by decide),
    marks_append_iff_of_not_mem (by decide)]

theorem marks_unknownWord_iff (word name : String) (choices : List String) :
    Marks (unknownWord word choices).message.toList name ↔
      Marks (word ++ ("`, expected one of `" ++ (Text.join "`, `" choices ++ "`"))).toList
        name := by
  have words : (unknownWord word choices).message =
      "unknown variant `" ++ (word ++ ("`, expected one of `" ++
        (Text.join "`, `" choices ++ "`"))) := by
    rw [← String.append_assoc, ← String.append_assoc, ← String.append_assoc]
    rfl
  rw [words, String.toList_append, marks_append_iff (by decide)]

theorem not_marks_unreadable (name : String) : ¬ Marks unreadable.message.toList name := by
  have absent : 'm' ∉ unreadable.message.toList := by decide
  intro h
  rw [← List.append_nil unreadable.message.toList, marks_append_iff absent] at h
  obtain ⟨before, after, there, -⟩ := h
  simp at there

end Fault

end WorkflowGraph
