/- Looking up in lists of pairs that were put together by appending and by writing. -/

import WorkflowGraph.Assoc
import Mathlib.Data.List.Induction

set_option autoImplicit false
set_option relaxedAutoImplicit false

/-!
A list of pairs with repeated keys denotes the map in which every key has its last value. Looking a
key up in that map is looking it up in the reversed list.
-/

namespace WorkflowGraph.Assoc

variable {κ : Type} {ν : Type}

@[simp] theorem keys_nil : keys ([] : List (κ × ν)) = [] := rfl

@[simp] theorem keys_cons (p : κ × ν) (l : List (κ × ν)) : keys (p :: l) = p.1 :: keys l := rfl

@[simp] theorem keys_append (a b : List (κ × ν)) : keys (a ++ b) = keys a ++ keys b :=
  List.map_append

@[simp] theorem keys_reverse (l : List (κ × ν)) : keys l.reverse = (keys l).reverse :=
  List.map_reverse

theorem nodup_keys_filter {l : List (κ × ν)} (h : (keys l).Nodup) (keep : κ × ν → Bool) :
    (keys (l.filter keep)).Nodup :=
  h.sublist (List.filter_sublist.map Prod.fst)

def filterMapValues (change : κ → ν → Option ν) (l : List (κ × ν)) : List (κ × ν) :=
  l.filterMap fun p => (change p.1 p.2).map fun v => (p.1, v)

theorem keys_filterMapValues_sublist (change : κ → ν → Option ν) (l : List (κ × ν)) :
    (keys (filterMapValues change l)).Sublist (keys l) := by
  induction l with
  | nil => exact .slnil
  | cons p l ih =>
    cases h : change p.1 p.2 with
    | none =>
      have dropped : filterMapValues change (p :: l) = filterMapValues change l := by
        simp [filterMapValues, h]
      rw [dropped]
      exact ih.cons p.1
    | some v =>
      have kept : filterMapValues change (p :: l) = (p.1, v) :: filterMapValues change l := by
        simp [filterMapValues, h]
      rw [kept]
      exact ih.cons_cons p.1

variable [DecidableEq κ]

theorem get?_cons_self (k : κ) (v : ν) (l : List (κ × ν)) : get? k ((k, v) :: l) = some v := by
  simp [get?]

theorem get?_cons_of_ne {k : κ} {p : κ × ν} (h : k ≠ p.1) (l : List (κ × ν)) :
    get? k (p :: l) = get? k l := by
  simp [get?, h]

theorem get?_append (k : κ) (a b : List (κ × ν)) :
    get? k (a ++ b) = (get? k a).or (get? k b) := by
  induction a with
  | nil => simp
  | cons p a ih =>
    by_cases h : k = p.1
    · simp [get?, h]
    · rw [List.cons_append, get?_cons_of_ne h, get?_cons_of_ne h, ih]

theorem get?_eq_none_iff (k : κ) (l : List (κ × ν)) : get? k l = none ↔ k ∉ keys l := by
  rw [← contains_iff_mem_keys, contains, Bool.not_eq_true, Option.isSome_eq_false_iff,
    Option.isNone_iff_eq_none]

theorem exists_get?_of_mem_keys {k : κ} {l : List (κ × ν)} (h : k ∈ keys l) :
    ∃ v, get? k l = some v :=
  Option.isSome_iff_exists.mp ((contains_iff_mem_keys k l).mpr h)

theorem mem_of_get? {k : κ} {v : ν} {l : List (κ × ν)} (h : get? k l = some v) : (k, v) ∈ l := by
  induction l with
  | nil => simp at h
  | cons p l ih =>
    by_cases hk : k = p.1
    · have hv : p.2 = v := by simpa [get?, hk] using h
      subst hk hv
      exact List.mem_cons_self
    · rw [get?_cons_of_ne hk] at h
      exact List.mem_cons_of_mem p (ih h)

theorem mem_keys_of_get? {k : κ} {v : ν} {l : List (κ × ν)} (h : get? k l = some v) :
    k ∈ keys l := List.mem_map_of_mem (f := Prod.fst) (mem_of_get? h)

theorem insertAll_append (l a b : List (κ × ν)) :
    insertAll l (a ++ b) = insertAll (insertAll l a) b :=
  List.foldl_append

theorem insertAll_cons (q : κ × ν) (l new : List (κ × ν)) :
    insertAll (q :: l) new =
      (q.1, (get? q.1 new.reverse).getD q.2) :: insertAll l (new.filter fun p => p.1 ≠ q.1) := by
  induction new generalizing q l with
  | nil => rfl
  | cons p new ih =>
    have step : insertAll (q :: l) (p :: new) = insertAll (insert p.1 p.2 (q :: l)) new := rfl
    rw [step, List.reverse_cons, get?_append]
    by_cases own : p.1 = q.1
    · have replaced : insert p.1 p.2 (q :: l) = (q.1, p.2) :: l := if_pos own
      have dropped : (p :: new).filter (fun p => p.1 ≠ q.1) = new.filter (fun p => p.1 ≠ q.1) :=
        List.filter_cons_of_neg (by simpa using own)
      rw [replaced, ih, dropped, ← own, get?_cons_self]
      cases get? p.1 new.reverse <;> rfl
    · have passed : insert p.1 p.2 (q :: l) = q :: insert p.1 p.2 l := if_neg own
      have kept : (p :: new).filter (fun p => p.1 ≠ q.1) = p :: new.filter (fun p => p.1 ≠ q.1) :=
        List.filter_cons_of_pos (by simpa using own)
      rw [passed, ih, kept, get?_cons_of_ne (Ne.symm own)]
      simp [insertAll]

private theorem get?_insertAll (k : κ) (l new : List (κ × ν)) :
    get? k (insertAll l new) = (get? k new.reverse).or (get? k l) := by
  induction new generalizing l with
  | nil => simp [insertAll]
  | cons p new ih =>
    have step : get? k (insertAll l (p :: new)) = get? k (insertAll (insert p.1 p.2 l) new) := rfl
    rw [step, ih, List.reverse_cons, get?_append, Option.or_assoc]
    by_cases h : k = p.1
    · subst h
      rw [get?_insert_self, get?_cons_self]
      rfl
    · rw [get?_insert_of_ne h, get?_cons_of_ne h]
      simp

theorem get?_ofList (k : κ) (l : List (κ × ν)) : get? k (ofList l) = get? k l.reverse := by
  simp [ofList, get?_insertAll]

theorem insert_of_get? {k : κ} {v : ν} {l : List (κ × ν)} (h : get? k l = some v) :
    insert k v l = l := by
  induction l with
  | nil => simp at h
  | cons p l ih =>
    by_cases hk : k = p.1
    · have hv : p.2 = v := by simpa [get?, hk] using h
      simp [insert, hk, ← hv]
    · rw [get?_cons_of_ne hk] at h
      simp [insert, hk, ih h]

theorem modify_of_get?_eq_none {k : κ} {l : List (κ × ν)} (h : get? k l = none) (f : ν → ν) :
    modify k f l = l := by
  induction l with
  | nil => rfl
  | cons p l ih =>
    by_cases hk : k = p.1
    · simp [get?, hk] at h
    · rw [get?_cons_of_ne hk] at h
      simp [modify, hk, ih h]

theorem modify_of_get? {k : κ} {v : ν} {l : List (κ × ν)} (h : get? k l = some v) (f : ν → ν) :
    modify k f l = insert k (f v) l := by
  induction l with
  | nil => simp at h
  | cons p l ih =>
    by_cases hk : k = p.1
    · have hv : p.2 = v := by simpa [get?, hk] using h
      simp [modify, insert, hk, hv]
    · rw [get?_cons_of_ne hk] at h
      simp [modify, insert, hk, ih h]

theorem get?_modify_of_ne {k j : κ} (h : j ≠ k) (f : ν → ν) (l : List (κ × ν)) :
    get? j (modify k f l) = get? j l := by
  cases hk : get? k l with
  | none => rw [modify_of_get?_eq_none hk]
  | some v => rw [modify_of_get? hk, get?_insert_of_ne h]

theorem modify_comm {k j : κ} (h : k ≠ j) (f g : ν → ν) (l : List (κ × ν)) :
    modify k f (modify j g l) = modify j g (modify k f l) := by
  induction l with
  | nil => rfl
  | cons p l ih =>
    by_cases hk : k = p.1
    · have hj : j ≠ p.1 := fun hj => h (hk.trans hj.symm)
      simp [modify, ← hk, h.symm]
    · by_cases hj : j = p.1
      · simp [modify, ← hj, h]
      · simp [modify, hk, hj, ih]

theorem insert_of_not_mem {k : κ} {l : List (κ × ν)} (h : k ∉ keys l) (v : ν) :
    insert k v l = l ++ [(k, v)] := by
  induction l with
  | nil => rfl
  | cons p l ih =>
    rw [keys_cons, List.mem_cons, not_or] at h
    rw [insert, if_neg h.1, ih h.2, List.cons_append]

theorem mem_insert {k : κ} {v : ν} {l : List (κ × ν)} {p : κ × ν} (h : p ∈ insert k v l) :
    p = (k, v) ∨ p ∈ l := by
  induction l with
  | nil => exact Or.inl (by simpa [insert] using h)
  | cons q l ih =>
    by_cases hk : k = q.1
    · subst hk
      rcases (by simpa [insert] using h : p = (q.1, v) ∨ p ∈ l) with h | h
      · exact Or.inl h
      · exact Or.inr (List.mem_cons_of_mem q h)
    · rcases (by simpa [insert, hk] using h : p = q ∨ p ∈ insert k v l) with h | h
      · exact Or.inr (h ▸ List.mem_cons_self)
      · rcases ih h with h | h
        · exact Or.inl h
        · exact Or.inr (List.mem_cons_of_mem q h)

private theorem mem_insertAll {l new : List (κ × ν)} {p : κ × ν} (h : p ∈ insertAll l new) :
    p ∈ new ∨ p ∈ l := by
  induction new generalizing l with
  | nil => exact Or.inr h
  | cons q new ih =>
    rcases ih h with h | h
    · exact Or.inl (List.mem_cons_of_mem q h)
    · rcases mem_insert h with h | h
      · exact Or.inl (h ▸ List.mem_cons_self)
      · exact Or.inr h

theorem mem_ofList {l : List (κ × ν)} {p : κ × ν} (h : p ∈ ofList l) : p ∈ l := by
  rcases mem_insertAll h with h | h
  · exact h
  · exact absurd h List.not_mem_nil

private theorem nodup_keys_insertAll {l : List (κ × ν)} (h : (keys l).Nodup) (new : List (κ × ν)) :
    (keys (insertAll l new)).Nodup := by
  induction new generalizing l with
  | nil => exact h
  | cons p new ih => exact ih (nodup_keys_insert h p.2)

theorem nodup_keys_ofList (l : List (κ × ν)) : (keys (ofList l)).Nodup :=
  nodup_keys_insertAll (by simp) l

theorem get?_of_mem {k : κ} {v : ν} {l : List (κ × ν)} (nodup : (keys l).Nodup)
    (h : (k, v) ∈ l) : get? k l = some v := by
  induction l with
  | nil => exact absurd h List.not_mem_nil
  | cons p l ih =>
    obtain ⟨fresh, nodup⟩ := List.nodup_cons.mp nodup
    rcases List.mem_cons.mp h with rfl | h
    · exact get?_cons_self k v l
    · have other : k ≠ p.1 := by
        rintro rfl
        exact fresh (List.mem_map.mpr ⟨(p.1, v), h, rfl⟩)
      rw [get?_cons_of_ne other, ih nodup h]

private theorem mem_iff_get? {l : List (κ × ν)} (nodup : (keys l).Nodup) (p : κ × ν) :
    p ∈ l ↔ get? p.1 l = some p.2 :=
  ⟨fun h => get?_of_mem nodup h, fun h => mem_of_get? h⟩

theorem eq_of_get? {a b : List (κ × ν)} (keys : keys a = keys b) (nodup : (Assoc.keys a).Nodup)
    (same : ∀ k, get? k a = get? k b) : a = b := by
  induction a generalizing b with
  | nil => exact (List.map_eq_nil_iff.mp keys.symm).symm
  | cons p a ih =>
    obtain ⟨q, b, rfl⟩ : ∃ q b', b = q :: b' := by
      cases b with
      | nil => exact nomatch keys
      | cons q b => exact ⟨q, b, rfl⟩
    obtain ⟨first, rest⟩ := List.cons.inj keys
    obtain ⟨fresh, nodup⟩ := List.nodup_cons.mp nodup
    have value : p.2 = q.2 := by
      have own := same p.1
      rw [get?, if_pos rfl, get?, if_pos first] at own
      exact Option.some.inj own
    have later : ∀ k, get? k a = get? k b := by
      intro k
      by_cases own : k = p.1
      · subst own
        have fresh' : p.1 ∉ Assoc.keys b := fun h => fresh (rest ▸ h)
        rw [(get?_eq_none_iff _ _).mpr fresh, (get?_eq_none_iff _ _).mpr fresh']
      · have other := same k
        rwa [get?_cons_of_ne own, get?_cons_of_ne fun h => own (h.trans first.symm)] at other
    rw [Prod.ext first value, ih rest nodup later]

theorem perm_of_get? {a b : List (κ × ν)} (ha : (keys a).Nodup) (hb : (keys b).Nodup)
    (same : ∀ k, get? k a = get? k b) : a.Perm b := by
  have pairs : ∀ l : List (κ × ν), (keys l).Nodup → l.Nodup := fun l nodup =>
    List.Pairwise.of_map Prod.fst (fun _ _ other same => other (congrArg Prod.fst same)) nodup
  rw [List.perm_ext_iff_of_nodup (pairs a ha) (pairs b hb)]
  intro p
  rw [mem_iff_get? ha, mem_iff_get? hb, same]

theorem get?_perm {a b : List (κ × ν)} (h : a.Perm b) (nodup : (keys a).Nodup) (k : κ) :
    get? k a = get? k b := by
  have nodup' : (keys b).Nodup := (h.map Prod.fst).nodup_iff.mp nodup
  apply Option.ext
  intro v
  have found := mem_iff_get? nodup (k, v)
  have found' := mem_iff_get? nodup' (k, v)
  exact found.symm.trans (h.mem_iff.trans found')

theorem get?_filter (keep : κ → Bool) (k : κ) (l : List (κ × ν)) :
    get? k (l.filter fun p => keep p.1) = if keep k then get? k l else none := by
  induction l with
  | nil => simp
  | cons p l ih =>
    by_cases hk : k = p.1
    · subst hk
      cases hp : keep p.1 with
      | true => simp [hp, get?]
      | false => simpa [hp] using ih
    · rw [get?_cons_of_ne hk, ← ih]
      cases hp : keep p.1 with
      | true => simp [hp, get?, hk]
      | false => simp [hp]

theorem filter_insert (keep : κ → Bool) (k : κ) (v : ν) (l : List (κ × ν)) :
    (insert k v l).filter (fun p => keep p.1) =
      if keep k then insert k v (l.filter fun p => keep p.1) else l.filter fun p => keep p.1 := by
  induction l with
  | nil => cases hk : keep k <;> simp [insert, hk]
  | cons p l ih =>
    by_cases own : k = p.1
    · subst own
      cases hk : keep p.1 <;> simp [insert, hk]
    · cases hk : keep k <;> cases hp : keep p.1 <;> simp [insert, own, hk, hp, ih]

theorem get?_filterMapValues {l : List (κ × ν)} (nodup : (keys l).Nodup)
    (change : κ → ν → Option ν) (k : κ) :
    get? k (filterMapValues change l) = (get? k l).bind (change k) := by
  induction l with
  | nil => rfl
  | cons p l ih =>
    obtain ⟨fresh, nodup⟩ := List.nodup_cons.mp nodup
    have later := ih nodup
    by_cases hk : k = p.1
    · subst hk
      cases h : change p.1 p.2 with
      | none =>
        have absent : get? p.1 l = none := (get?_eq_none_iff p.1 l).mpr fresh
        rw [absent] at later
        simpa [filterMapValues, h, get?] using later
      | some v => simp [filterMapValues, h, get?]
    · rw [get?_cons_of_ne hk, ← later]
      cases h : change p.1 p.2 with
      | none => simp [filterMapValues, h]
      | some v => simp [filterMapValues, h, get?, hk]

theorem erase_cons_self (p : κ × ν) (l : List (κ × ν)) : erase p.1 (p :: l) = erase p.1 l := by
  simp [erase]

theorem erase_cons_of_ne {k : κ} {p : κ × ν} (h : k ≠ p.1) (l : List (κ × ν)) :
    erase k (p :: l) = p :: erase k l := by
  simp [erase, h]

theorem get?_erase_self (k : κ) (l : List (κ × ν)) : get? k (erase k l) = none := by
  rw [get?_eq_none_iff]
  intro h
  obtain ⟨p, hp, rfl⟩ := List.mem_map.mp h
  simp [erase] at hp

theorem get?_erase_of_ne {k j : κ} (h : j ≠ k) (l : List (κ × ν)) :
    get? j (erase k l) = get? j l := by
  induction l with
  | nil => rfl
  | cons p l ih =>
    by_cases hk : k = p.1
    · subst hk
      rw [erase_cons_self, ih, get?_cons_of_ne h]
    · rw [erase_cons_of_ne hk, get?, get?, ih]

theorem erase_of_not_mem {k : κ} {l : List (κ × ν)} (h : k ∉ keys l) : erase k l = l := by
  apply List.filter_eq_self.mpr
  intro p hp
  have other : k ≠ p.1 := fun same => h (same ▸ List.mem_map_of_mem hp)
  simpa using other

theorem nodup_keys_erase {l : List (κ × ν)} (h : (keys l).Nodup) (k : κ) :
    (keys (erase k l)).Nodup :=
  h.sublist (List.filter_sublist.map Prod.fst)

private theorem insertAll_of_nodup {l new : List (κ × ν)} (h : (keys (l ++ new)).Nodup) :
    insertAll l new = l ++ new := by
  induction new generalizing l with
  | nil => simp [insertAll]
  | cons p new ih =>
    have fresh : p.1 ∉ keys l := by
      rw [keys_append, List.nodup_append] at h
      exact fun hp => h.2.2 p.1 hp p.1 List.mem_cons_self rfl
    have last : insert p.1 p.2 l = l ++ [p] := insert_of_not_mem fresh p.2
    have step : insertAll l (p :: new) = insertAll (insert p.1 p.2 l) new := rfl
    rw [step, last, ih (by simpa using h)]
    simp

theorem ofList_of_nodup {l : List (κ × ν)} (h : (keys l).Nodup) : ofList l = l :=
  insertAll_of_nodup h

theorem keys_foldl_insert {α : Type} (key : α → κ) (value : List (κ × ν) → α → ν) (xs : List α) :
    keys (xs.foldl (fun acc x => insert (key x) (value acc x) acc) []) =
      (xs.map key).eraseDups := by
  induction xs using List.reverseRecOn with
  | nil => rfl
  | append_singleton xs x ih =>
    rw [List.foldl_append, List.foldl_cons, List.foldl_nil, List.map_append, List.eraseDups_append,
      ← ih]
    generalize hacc : xs.foldl (fun acc x => insert (key x) (value acc x) acc) [] = acc at ih ⊢
    have known : contains (key x) acc = true ↔ key x ∈ xs.map key := by
      rw [contains_iff_mem_keys, ih, List.mem_eraseDups]
    cases hc : contains (key x) acc with
    | true =>
      have old : [key x].removeAll (xs.map key) = [] := by
        simpa [List.removeAll] using known.mp hc
      rw [keys_insert_of_contains hc, List.map_singleton, old]
      exact (List.append_nil _).symm
    | false =>
      have new : [key x].removeAll (xs.map key) = [key x] := by
        have fresh : key x ∉ xs.map key := fun h => by simp [known.mpr h] at hc
        simpa [List.removeAll] using fresh
      rw [keys_insert_of_not_contains hc, List.map_singleton, new]
      rfl

theorem keys_ofList (l : List (κ × ν)) : keys (ofList l) = (keys l).eraseDups :=
  keys_foldl_insert Prod.fst (fun _ p => p.2) l

theorem keys_insert_congr {a b : List (κ × ν)} (h : keys a = keys b) (k : κ) (v w : ν) :
    keys (insert k v a) = keys (insert k w b) := by
  have known : contains k a = contains k b := by
    rw [Bool.eq_iff_iff, contains_iff_mem_keys, contains_iff_mem_keys, h]
  cases has : contains k b with
  | true => rw [keys_insert_of_contains (known.trans has), keys_insert_of_contains has, h]
  | false =>
    rw [keys_insert_of_not_contains (known.trans has), keys_insert_of_not_contains has, h]

theorem exists_insert_eq (k : κ) (l : List (κ × ν)) :
    ∃ before after, ∀ v, insert k v l = before ++ (k, v) :: after := by
  induction l with
  | nil => exact ⟨[], [], fun _ => rfl⟩
  | cons p rest ih =>
    by_cases own : k = p.1
    · exact ⟨[], rest, fun v => by rw [insert, if_pos own, own]; rfl⟩
    · obtain ⟨before, after, written⟩ := ih
      exact ⟨p :: before, after, fun v => by rw [insert, if_neg own, written]; rfl⟩

theorem get?_ofList_append_cons (k : κ) (v : ν) (before after : List (κ × ν)) :
    get? k (ofList (before ++ (k, v) :: after)) = (get? k after.reverse).or (some v) := by
  rw [get?_ofList, List.reverse_append, List.reverse_cons, get?_append, get?_append,
    get?_cons_self, Option.or_assoc]
  rfl

theorem get?_ofList_append_cons_of_ne {k j : κ} (h : j ≠ k) (v : ν)
    (before after : List (κ × ν)) :
    get? j (ofList (before ++ (k, v) :: after)) = get? j (ofList (before ++ after)) := by
  rw [get?_ofList, get?_ofList, List.reverse_append, List.reverse_cons, List.reverse_append,
    get?_append, get?_append, get?_append, get?_cons_of_ne h]
  simp

end WorkflowGraph.Assoc
