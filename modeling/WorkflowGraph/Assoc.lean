/- Lists of key-value pairs in the order of insertion, with distinct keys. -/

set_option autoImplicit false
set_option relaxedAutoImplicit false

/-!
A finite map that remembers the order in which its keys arrived is a list of pairs. A write to a
known key keeps the key's place and replaces the value; a write to a new key goes to the end.
-/

namespace WorkflowGraph.Assoc

variable {κ : Type} {ν : Type} [DecidableEq κ]

/-- The value stored under a key: that of the first pair with the key. -/
def get? (k : κ) : List (κ × ν) → Option ν
  | [] => none
  | (k', v) :: rest => if k = k' then some v else get? k rest

def contains (k : κ) (l : List (κ × ν)) : Bool := (get? k l).isSome

def keys (l : List (κ × ν)) : List κ := l.map Prod.fst

/-- Write a value: in place under a known key, at the end under a new one. -/
def insert (k : κ) (v : ν) : List (κ × ν) → List (κ × ν)
  | [] => [(k, v)]
  | (k', v') :: rest => if k = k' then (k', v) :: rest else (k', v') :: insert k v rest

def erase (k : κ) (l : List (κ × ν)) : List (κ × ν) := l.filter fun p => !decide (k = p.1)

def modify (k : κ) (f : ν → ν) : List (κ × ν) → List (κ × ν)
  | [] => []
  | (k', v) :: rest => if k = k' then (k', f v) :: rest else (k', v) :: modify k f rest

def insertAll (l : List (κ × ν)) (new : List (κ × ν)) : List (κ × ν) :=
  new.foldl (fun acc p => insert p.1 p.2 acc) l

/-- The map that a list of pairs with possibly repeated keys denotes. -/
def ofList (l : List (κ × ν)) : List (κ × ν) := insertAll [] l

@[simp] theorem get?_nil (k : κ) : get? k ([] : List (κ × ν)) = none := rfl

theorem get?_insert_self (k : κ) (v : ν) (l : List (κ × ν)) : get? k (insert k v l) = some v := by
  induction l with
  | nil => simp [insert, get?]
  | cons p rest ih =>
    by_cases h : k = p.1
    · simp [insert, get?, h]
    · simp [insert, get?, h, ih]

theorem get?_insert_of_ne {k j : κ} (h : j ≠ k) (v : ν) (l : List (κ × ν)) :
    get? j (insert k v l) = get? j l := by
  induction l with
  | nil => simp [insert, get?, h]
  | cons p rest ih =>
    by_cases hk : k = p.1
    · subst hk
      simp [insert, get?, h]
    · simp [insert, get?, hk, ih]

theorem contains_iff_mem_keys (k : κ) (l : List (κ × ν)) :
    contains k l = true ↔ k ∈ keys l := by
  induction l with
  | nil => simp [contains, keys]
  | cons p rest ih =>
    by_cases h : k = p.1
    · simp [contains, get?, keys, h]
    · simpa [contains, get?, keys, h] using ih

theorem keys_insert_of_contains {k : κ} {l : List (κ × ν)} (h : contains k l = true) (v : ν) :
    keys (insert k v l) = keys l := by
  induction l with
  | nil => simp [contains] at h
  | cons p rest ih =>
    by_cases hk : k = p.1
    · simp [insert, keys, hk]
    · have hr : contains k rest = true := by simpa [contains, get?, hk] using h
      have hi := ih hr
      simp only [keys] at hi
      simp [insert, keys, hk, hi]

theorem keys_insert_of_not_contains {k : κ} {l : List (κ × ν)} (h : contains k l = false) (v : ν) :
    keys (insert k v l) = keys l ++ [k] := by
  induction l with
  | nil => simp [insert, keys]
  | cons p rest ih =>
    by_cases hk : k = p.1
    · simp [contains, get?, hk] at h
    · have hr : contains k rest = false := by simpa [contains, get?, hk] using h
      have hi := ih hr
      simp only [keys] at hi
      simp [insert, keys, hk, hi]

theorem keys_modify (k : κ) (f : ν → ν) (l : List (κ × ν)) : keys (modify k f l) = keys l := by
  induction l with
  | nil => rfl
  | cons p rest ih =>
    simp only [keys] at ih
    by_cases h : k = p.1 <;> simp [modify, keys, h, ih]

theorem nodup_keys_insert {k : κ} {l : List (κ × ν)} (h : (keys l).Nodup) (v : ν) :
    (keys (insert k v l)).Nodup := by
  cases hc : contains k l with
  | true => rwa [keys_insert_of_contains hc]
  | false =>
    rw [keys_insert_of_not_contains hc]
    have hn : k ∉ keys l := fun hm => by
      rw [← contains_iff_mem_keys, hc] at hm
      exact Bool.noConfusion hm
    refine List.nodup_append.2 ⟨h, by simp, ?_⟩
    intro a ha b hb hab
    rw [List.mem_singleton.1 hb] at hab
    exact hn (hab ▸ ha)

end WorkflowGraph.Assoc
