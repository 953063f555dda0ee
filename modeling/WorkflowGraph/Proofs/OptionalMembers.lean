/- Members that may be left out: what is written of them, and that it reads as what they were. -/

import WorkflowGraph.Config.Mapping
import WorkflowGraph.Proofs.Records

set_option autoImplicit false
set_option relaxedAutoImplicit false

/-!
A record with members that may be left out is a list of names with optional values, of which the
present ones are written. A name is looked up in what is written as it is in the list. An absent
value is left out in some records and null in others; a reader of optional members takes both.
-/

namespace WorkflowGraph.Record

variable {α : Type} {read : Reader α}

def written (slots : List (String × Option Value)) : Object :=
  slots.filterMap fun p => p.2.map (Prod.mk p.1)

theorem written_append (a b : List (String × Option Value)) :
    written (a ++ b) = written a ++ written b := List.filterMap_append

private theorem mem_written {slots : List (String × Option Value)} {p : String × Value}
    (h : p ∈ written slots) : (p.1, some p.2) ∈ slots := by
  obtain ⟨q, hq, made⟩ := List.mem_filterMap.mp h
  obtain ⟨v, there, rfl⟩ := Option.map_eq_some_iff.mp made
  exact there ▸ hq

theorem keys_written_sublist (slots : List (String × Option Value)) :
    (Assoc.keys (written slots)).Sublist (slots.map Prod.fst) := by
  induction slots with
  | nil => exact .slnil
  | cons p slots ih =>
    obtain ⟨k, value⟩ := p
    cases value with
    | none => exact ih.cons k
    | some v => exact ih.cons_cons k

theorem get?_written {slots : List (String × Option Value)} (nodup : (slots.map Prod.fst).Nodup)
    (k : String) : Assoc.get? k (written slots) = (Assoc.get? k slots).join := by
  induction slots with
  | nil => rfl
  | cons p slots ih =>
    obtain ⟨name, value⟩ := p
    obtain ⟨new, nodup⟩ := List.nodup_cons.mp nodup
    by_cases same : k = name
    · subst same
      rw [Assoc.get?_cons_self]
      cases value with
      | none =>
        have absent : k ∉ Assoc.keys (written slots) :=
          fun h => new ((keys_written_sublist slots).subset h)
        exact (Assoc.get?_eq_none_iff k _).mpr absent
      | some v => exact Assoc.get?_cons_self k v _
    · rw [Assoc.get?_cons_of_ne same, ← ih nodup]
      cases value with
      | none => rfl
      | some v => exact Assoc.get?_cons_of_ne same _

def unlessEmpty (write : List α → Value) (xs : List α) : Option Value :=
  if xs.isEmpty then none else some (write xs)

section Forall

variable {P : Value → Prop}

theorem forall_mem_written {slots : List (String × Option Value)}
    (h : ∀ q ∈ slots, ∀ v, q.2 = some v → P v) : ∀ p ∈ written slots, P p.2 :=
  fun p hp => h _ (mem_written hp) p.2 rfl

theorem forall_some {w : Value} (h : P w) : ∀ v, some w = some v → P v :=
  fun _ hv => Option.some.inj hv ▸ h

theorem forall_map {write : α → Value} {x? : Option α} (h : ∀ x, x? = some x → P (write x)) :
    ∀ v, x?.map write = some v → P v := by
  intro v hv
  obtain ⟨x, hx, rfl⟩ := Option.map_eq_some_iff.mp hv
  exact h x hx

theorem forall_unlessEmpty {write : List α → Value} {xs : List α} (h : P (write xs)) :
    ∀ v, unlessEmpty write xs = some v → P v := by
  intro v hv
  unfold unlessEmpty at hv
  split at hv
  · exact nomatch hv
  · exact Option.some.inj hv ▸ h

end Forall

namespace Slot.Yields

variable {name : String} {doc : Object}

theorem listOr {readAll : Reader (List α)} {write : List α → Value} {xs : List α}
    (found : Assoc.get? name doc = unlessEmpty write xs) (back : readAll (write xs) = .ok xs) :
    (Slot.named name readAll).Yields doc ((Slot.named name readAll).listOr doc) xs := by
  cases xs with
  | nil => exact default found
  | cons x xs => exact orElse found back

theorem optional {write : α → Value} {x? : Option α}
    (found : Assoc.get? name doc = x?.map write)
    (back : ∀ x, x? = some x → nullable read (write x) = .ok (some x)) :
    (Slot.named name (nullable read)).Yields doc ((Slot.named name (nullable read)).optional doc)
      x? := by
  cases x? with
  | none => exact default found
  | some x => exact orElse found (back x rfl)

end Slot.Yields

theorem nullable_of_some {v : Value} {x : α} (given : v.isNull = false) (h : read v = .ok x) :
    nullable read v = .ok (some x) := by
  cases v with
  | null => exact nomatch given
  | _ =>
    change (read _).bind _ = _
    rw [h]
    rfl

theorem nullable_text (s : String) : nullable text (.str s) = .ok (some s) := rfl

theorem nullable_nodeId (id : NodeId) : nullable NodeId.read id.toValue = .ok (some id) :=
  nullable_of_some rfl id.read_toValue

theorem nullable_ofText? (s? : Option String) : nullable text (.ofText? s?) = .ok s? := by
  cases s? with
  | none => rfl
  | some s => exact nullable_text s

theorem nullable_ofNodeId? (id? : Option NodeId) :
    nullable NodeId.read (.ofNodeId? id?) = .ok id? := by
  cases id? with
  | none => rfl
  | some id => exact nullable_nodeId id

theorem nullable_word {n : Nat} (word : InNat64 n) :
    nullable natural (.ofNat n) = .ok (some n) := by
  have given : (Value.ofNat n).isNull = false := by
    unfold Value.ofNat Value.ofInt
    split <;> rfl
  exact nullable_of_some given (natural_ofNat word)

theorem list_ofTexts (ss : List String) : list text (.ofTexts ss) = .ok ss :=
  items_map fun _ _ => rfl

theorem list_ofNodeIds (ids : List NodeId) : list NodeId.read (.ofNodeIds ids) = .ok ids :=
  items_map fun id _ => id.read_toValue

theorem list_ofNats {ns : List Nat} (words : ∀ n ∈ ns, InNat64 n) :
    list natural (.ofNats ns) = .ok ns := items_map fun n hn => natural_ofNat (words n hn)

theorem word_of_natural {v : Value} {n : Nat} (h : natural v = .ok n) : InNat64 n := by
  cases v with
  | num k =>
    cases k with
    | double d => cases h
    | int i fits =>
      by_cases inside : InNat64 i
      · obtain rfl : i.toNat = n := by simpa [natural_num, Number.nat64?, inside] using h
        rwa [Int.toNat_of_nonneg inside.1]
      · simp [natural_num, Number.nat64?, inside] at h
  | _ => cases h

theorem forall_of_listOr {name : String} {doc : Object} {xs : List α} {P : α → Prop}
    (h : (Slot.named name (list read)).listOr doc = .ok xs)
    (each : ∀ vs, Assoc.get? name doc = some (.arr vs) → ∀ v ∈ vs, ∀ x, read v = .ok x → P x) :
    ∀ x ∈ xs, P x := by
  rcases get?_of_orElse h with ⟨-, rfl⟩ | ⟨w, there, made⟩
  · exact fun _ hx => absurd hx List.not_mem_nil
  · obtain ⟨vs, rfl, made⟩ := exists_of_list made
    intro x hx
    obtain ⟨v, hv, hread⟩ := exists_of_mem_right (forall₂_of_items made) hx
    exact each vs there v hv x hread

theorem words_of_listOr {name : String} {doc : Object} {ns : List Nat}
    (h : (Slot.named name (list natural)).listOr doc = .ok ns) : ∀ n ∈ ns, InNat64 n :=
  forall_of_listOr h fun _ _ _ _ _ => word_of_natural

theorem get?_of_optional {name : String} {doc : Object} {x : α}
    (h : (Slot.named name (nullable read)).optional doc = .ok (some x)) :
    ∃ v, Assoc.get? name doc = some v ∧ v.isNull = false ∧ read v = .ok x := by
  rcases get?_of_orElse h with ⟨-, absent⟩ | ⟨v, there, made⟩
  · exact nomatch absent
  · cases v with
    | null => exact nomatch made
    | _ =>
      obtain ⟨y, hy, same⟩ := bind_eq_ok made
      cases same
      exact ⟨_, there, rfl, hy⟩

/-- A document whose members are those of an object, or name the items of a list. -/
def DocumentOf (v : Value) (doc : Object) : Prop :=
  v = .obj doc ∨ ∃ vs, v = .arr vs ∧ ∀ p ∈ doc, p.2 ∈ vs

theorem exists_of_closed {members : List Member} {assemble : Object → Except Fault α} {v : Value}
    {x : α} (h : closed members assemble v = .ok x) :
    ∃ doc, DocumentOf v doc ∧ assemble doc = .ok x := by
  cases v with
  | arr vs =>
    obtain ⟨-, -, h⟩ := bind_eq_ok h
    refine ⟨positional members vs, Or.inr ⟨vs, rfl, fun p hp => (List.of_mem_zip hp).2⟩, ?_⟩
    cases made : assemble (positional members vs) with
    | error fault =>
      rw [made] at h
      exact nomatch h
    | ok y =>
      rw [made] at h
      dsimp only at h
      split at h
      next => exact h
      next => exact nomatch h
  | obj doc =>
    obtain ⟨-, -, made⟩ := bind_eq_ok h
    exact ⟨doc, Or.inl rfl, made⟩
  | _ => exact nomatch h

theorem mem_of_choose {β : Type} {choices : List (String × β)} {other : Option β} {word : String}
    {x : β} (h : choose choices other word = .ok x) : (word, x) ∈ choices ∨ other = some x := by
  unfold choose at h
  split at h
  next found =>
    cases h
    exact Or.inl (Assoc.mem_of_get? found)
  next =>
    cases h
    exact Or.inr rfl
  next => exact nomatch h

theorem exists_of_tagged {tag : String} {choices : List (String × Reader α)}
    {other : Option (Reader α)} {v : Value} {x : α} (h : tagged tag choices other v = .ok x) :
    ∃ word reader rest, ((word, reader) ∈ choices ∨ other = some reader) ∧
      reader rest = .ok x := by
  unfold tagged at h
  split at h
  next doc =>
    split at h
    next => exact nomatch h
    next word _ =>
      obtain ⟨reader, chosen, h⟩ := bind_eq_ok h
      exact ⟨word, reader, _, mem_of_choose chosen, h⟩
    next => exact nomatch h
  next => exact nomatch h
  next word rest =>
    obtain ⟨reader, chosen, h⟩ := bind_eq_ok h
    exact ⟨word, reader, _, mem_of_choose chosen, h⟩
  next => exact nomatch h

theorem tagged_cons {tag word : String} {choices : List (String × Reader α)}
    {other : Option (Reader α)} {members : Object} (untagged : tag ∉ Assoc.keys members) :
    tagged tag choices other (.obj ((tag, .str word) :: members)) =
      (choose choices other word).bind fun reader => reader (.obj members) := by
  have rest : Assoc.erase tag ((tag, .str word) :: members) = members :=
    (Assoc.erase_cons_self (_, _) _).trans (Assoc.erase_of_not_mem untagged)
  unfold tagged
  simp only [Assoc.get?_cons_self, rest]
  rfl

end WorkflowGraph.Record
