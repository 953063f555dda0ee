/- Writes to an ordered map, some of them only to keys that are there, and the same writes again. -/

import WorkflowGraph.Proofs.Assoc

set_option autoImplicit false
set_option relaxedAutoImplicit false

/-!
A write that needs its key may be left out in one run of writes and made in the next, when a later
write of the first run has created the key. That changes nothing: the later write is made again too.
So a second run of the same writes leaves the map as the first one did, its order included.
-/

namespace WorkflowGraph.Assoc

/-- A value to write under a key, and whether the key is created if it is absent. -/
structure Put (κ ν : Type) where
  key : κ
  value : ν
  creates : Bool

variable {κ : Type} {ν : Type} [DecidableEq κ]

private theorem contains_modify (k j : κ) (f : ν → ν) (l : List (κ × ν)) :
    contains j (modify k f l) = contains j l := by
  rw [Bool.eq_iff_iff, contains_iff_mem_keys, contains_iff_mem_keys, keys_modify]

private theorem modify_modify_const (k : κ) (v w : ν) (l : List (κ × ν)) :
    modify k (fun _ => w) (modify k (fun _ => v) l) = modify k (fun _ => w) l := by
  induction l with
  | nil => rfl
  | cons p l ih => by_cases hk : k = p.1 <;> simp [modify, hk, ih]

private theorem modify_const_insert_self (k : κ) (v : ν) (l : List (κ × ν)) :
    modify k (fun _ => v) (insert k v l) = insert k v l := by
  rw [modify_of_get? (get?_insert_self k v l), insert_of_get? (get?_insert_self k v l)]

private theorem modify_insert_of_ne {k j : κ} (h : k ≠ j) (f : ν → ν) (v : ν) (l : List (κ × ν)) :
    modify k f (insert j v l) = insert j v (modify k f l) := by
  induction l with
  | nil => simp [insert, modify, h]
  | cons p l ih =>
    by_cases hk : k = p.1
    · have hj : j ≠ p.1 := fun hj => h (hk.trans hj.symm)
      simp [insert, modify, ← hk, h.symm]
    · by_cases hj : j = p.1
      · simp [insert, modify, ← hj, h]
      · simp [insert, modify, hk, hj, ih]

namespace Put

/-- Make a write, unless it needs a key that is absent. -/
def into (p : Put κ ν) (l : List (κ × ν)) : List (κ × ν) :=
  if p.creates || contains p.key l then insert p.key p.value l else l

def replaceIn (p : Put κ ν) (l : List (κ × ν)) : List (κ × ν) := modify p.key (fun _ => p.value) l

def Settled (p : Put κ ν) (l : List (κ × ν)) : Prop := p.creates = true → contains p.key l = true

private theorem Settled.into_eq_replaceIn {p : Put κ ν} {l : List (κ × ν)} (h : p.Settled l) :
    p.into l = p.replaceIn l := by
  cases found : get? p.key l with
  | some v => simp [into, replaceIn, contains, found, modify_of_get? found]
  | none =>
    have absent : contains p.key l = false := by simp [contains, found]
    have idle : p.creates = false := by
      by_contra creates
      simp [h (by simpa using creates)] at absent
    simp [into, replaceIn, absent, idle, modify_of_get?_eq_none found]

private theorem settled_into (p : Put κ ν) (l : List (κ × ν)) : p.Settled (p.into l) := by
  intro creates
  simp [into, creates, contains, get?_insert_self]

private theorem contains_into {k : κ} {l : List (κ × ν)} (h : contains k l = true) (p : Put κ ν) :
    contains k (p.into l) = true := by
  unfold into
  split
  · by_cases own : k = p.key
    · simp [own, contains, get?_insert_self]
    · rwa [contains, get?_insert_of_ne own]
  · exact h

private theorem replaceIn_into_self (p : Put κ ν) (l : List (κ × ν)) :
    p.replaceIn (p.into l) = p.into l := by
  unfold into
  split
  · exact modify_const_insert_self p.key p.value l
  · rename_i idle
    cases found : get? p.key l with
    | none => exact modify_of_get?_eq_none found _
    | some v => exact absurd (by simp [contains, found]) idle

private theorem replaceIn_into_of_ne {p q : Put κ ν} (h : p.key ≠ q.key) (l : List (κ × ν)) :
    p.replaceIn (q.into l) = q.into (p.replaceIn l) := by
  have known : contains q.key (p.replaceIn l) = contains q.key l := contains_modify _ _ _ _
  simp only [into, known]
  split
  · exact modify_insert_of_ne h _ _ l
  · rfl

end Put

def putAll (puts : List (Put κ ν)) (l : List (κ × ν)) : List (κ × ν) :=
  puts.foldl (fun l p => p.into l) l

def replaceAll (puts : List (Put κ ν)) (l : List (κ × ν)) : List (κ × ν) :=
  puts.foldl (fun l p => p.replaceIn l) l

theorem putAll_append (a b : List (Put κ ν)) (l : List (κ × ν)) :
    putAll (a ++ b) l = putAll b (putAll a l) :=
  List.foldl_append

private theorem contains_putAll {k : κ} {l : List (κ × ν)} (h : contains k l = true)
    (puts : List (Put κ ν)) : contains k (putAll puts l) = true := by
  induction puts generalizing l with
  | nil => exact h
  | cons p puts ih => exact ih (p.contains_into h)

private theorem settled_putAll {puts : List (Put κ ν)} {p : Put κ ν} (hp : p ∈ puts)
    (l : List (κ × ν)) :
    p.Settled (putAll puts l) := by
  induction puts generalizing l with
  | nil => exact absurd hp List.not_mem_nil
  | cons q puts ih =>
    rcases List.mem_cons.mp hp with rfl | hp
    · exact fun creates => contains_putAll (p.settled_into l creates) puts
    · exact ih hp (q.into l)

private theorem putAll_eq_replaceAll {puts : List (Put κ ν)} {l : List (κ × ν)}
    (settled : ∀ p ∈ puts, p.Settled l) : putAll puts l = replaceAll puts l := by
  induction puts generalizing l with
  | nil => rfl
  | cons p puts ih =>
    have head : p.into l = p.replaceIn l := (settled p List.mem_cons_self).into_eq_replaceIn
    have rest : ∀ q ∈ puts, q.Settled (p.replaceIn l) := by
      intro q hq creates
      rw [Put.replaceIn, contains_modify]
      exact settled q (List.mem_cons_of_mem p hq) creates
    change putAll puts (p.into l) = replaceAll puts (p.replaceIn l)
    rw [head, ih rest]

private theorem replaceAll_replaceIn {puts : List (Put κ ν)} {p : Put κ ν}
    (later : p.key ∈ puts.map Put.key) (l : List (κ × ν)) :
    replaceAll puts (p.replaceIn l) = replaceAll puts l := by
  induction puts generalizing l with
  | nil => exact absurd later List.not_mem_nil
  | cons q puts ih =>
    change replaceAll puts (q.replaceIn (p.replaceIn l)) = replaceAll puts (q.replaceIn l)
    by_cases own : p.key = q.key
    · have overwritten : q.replaceIn (p.replaceIn l) = q.replaceIn l := by
        rw [Put.replaceIn, Put.replaceIn, own]
        exact modify_modify_const q.key p.value q.value l
      rw [overwritten]
    · have swap : q.replaceIn (p.replaceIn l) = p.replaceIn (q.replaceIn l) :=
        modify_comm (Ne.symm own) _ _ l
      rw [swap, ih ((List.mem_cons.mp later).resolve_left own)]

private theorem replaceIn_putAll {puts : List (Put κ ν)} {p : Put κ ν}
    (last : p.key ∉ puts.map Put.key) {l : List (κ × ν)} (h : p.replaceIn l = l) :
    p.replaceIn (putAll puts l) = putAll puts l := by
  induction puts generalizing l with
  | nil => exact h
  | cons q puts ih =>
    obtain ⟨other, last⟩ := not_or.mp (mt List.mem_cons.mpr last)
    apply ih last
    rw [Put.replaceIn_into_of_ne other, h]

private theorem replaceAll_putAll (puts : List (Put κ ν)) (l : List (κ × ν)) :
    replaceAll puts (putAll puts l) = putAll puts l := by
  induction puts generalizing l with
  | nil => rfl
  | cons p puts ih =>
    change replaceAll puts (p.replaceIn (putAll puts (p.into l))) = putAll puts (p.into l)
    -- either a later write has the key, or this one has stood since it was made
    by_cases later : p.key ∈ puts.map Put.key
    · rw [replaceAll_replaceIn later, ih]
    · rw [replaceIn_putAll later (p.replaceIn_into_self l), ih]

theorem putAll_putAll (puts : List (Put κ ν)) (l : List (κ × ν)) :
    putAll puts (putAll puts l) = putAll puts l := by
  rw [putAll_eq_replaceAll fun p hp => settled_putAll hp l, replaceAll_putAll]

end WorkflowGraph.Assoc
