/- Records read and written: what a reader makes of a written document, and what it says of one. -/

import Mathlib.Data.List.Forall2
import WorkflowGraph.Graph.Node
import WorkflowGraph.Proofs.Assoc

set_option autoImplicit false
set_option relaxedAutoImplicit false

/-!
Documents are compared without regard to the order of their members. A record with extras is written
as its known members followed by the extras; the first pass of reading accepts such a document when
every member that it knows is accepted, and looking a member up does not see the extras.
-/

namespace WorkflowGraph

theorem map_eq_map_of_forall₂ {α β γ : Type} {f : α → γ} {g : β → γ} {as : List α} {bs : List β}
    (h : List.Forall₂ (fun a b => f a = g b) as bs) : as.map f = bs.map g :=
  List.forall₂_eq_eq_eq ▸ List.forall₂_map_left_iff.mpr (List.forall₂_map_right_iff.mpr h)

theorem exists_of_mem_right {α β : Type} {r : α → β → Prop} {as : List α} {bs : List β}
    (h : List.Forall₂ r as bs) {b : β} (hb : b ∈ bs) : ∃ a ∈ as, r a b := by
  induction h with
  | nil => exact absurd hb List.not_mem_nil
  | @cons a b' as bs head _ ih =>
    rcases List.mem_cons.mp hb with rfl | hb
    · exact ⟨a, List.mem_cons_self, head⟩
    · obtain ⟨a', ha', h⟩ := ih hb
      exact ⟨a', List.mem_cons_of_mem a ha', h⟩

namespace Value

mutual

/-- Equality of values that does not look at the order of members. -/
inductive Alike : Value → Value → Prop
  | refl (v : Value) : Alike v v
  | arr {a b : List Value} (items : AlikeItems a b) : Alike (.arr a) (.arr b)
  | obj {a m b : Object} (values : AlikeMembers a m) (order : m.Perm b) : Alike (.obj a) (.obj b)

inductive AlikeItems : List Value → List Value → Prop
  | nil : AlikeItems [] []
  | cons {v w : Value} {a b : List Value} (head : Alike v w) (tail : AlikeItems a b) :
    AlikeItems (v :: a) (w :: b)

inductive AlikeMembers : List (String × Value) → List (String × Value) → Prop
  | nil : AlikeMembers [] []
  | cons {k : String} {v w : Value} {a b : List (String × Value)} (head : Alike v w)
    (tail : AlikeMembers a b) : AlikeMembers ((k, v) :: a) ((k, w) :: b)

end

theorem AlikeMembers.refl (o : Object) : AlikeMembers o o := by
  induction o with
  | nil => exact .nil
  | cons p o ih => exact .cons (.refl p.2) ih

theorem AlikeItems.map {α : Type} {write : α → Value} {settled : Value → Value} {vs : List Value}
    {xs : List α} (h : List.Forall₂ (fun v x => Alike (write x) (settled v)) vs xs) :
    AlikeItems (xs.map write) (vs.map settled) := by
  induction h with
  | nil => exact .nil
  | cons head _ ih => exact .cons head ih

theorem AlikeMembers.map {α : Type} {write : α → Value} {settled : Value → Value} {o : Object}
    {xs : List (String × α)}
    (h : List.Forall₂ (fun m p => m.1 = p.1 ∧ Alike (write p.2) (settled m.2)) o xs) :
    AlikeMembers (xs.map fun p => (p.1, write p.2)) (o.map fun m => (m.1, settled m.2)) := by
  induction h with
  | nil => exact .nil
  | @cons m p o xs head _ ih =>
    simp only [List.map_cons, ← head.1]
    exact .cons head.2 ih

theorem alike_of_perm {a b : Object} (order : a.Perm b) : Alike (.obj a) (.obj b) :=
  .obj (.refl a) order

theorem distinct_of_mem_items {items : List Value} (h : DistinctItems items) {v : Value}
    (hv : v ∈ items) : v.Distinct := by
  induction items with
  | nil => exact absurd hv List.not_mem_nil
  | cons w items ih =>
    rcases List.mem_cons.mp hv with rfl | hv
    · exact h.1
    · exact ih h.2 hv

theorem distinct_of_mem_members {o : Object} (h : DistinctMembers o) {p : String × Value}
    (hp : p ∈ o) : p.2.Distinct := by
  induction o with
  | nil => exact absurd hp List.not_mem_nil
  | cons q o ih =>
    rcases List.mem_cons.mp hp with rfl | hp
    · exact h.1
    · exact ih h.2 hp

end Value

namespace Record

variable {α : Type} {read : Reader α}

theorem items_map {write : α → Value} {xs : List α} (h : ∀ x ∈ xs, read (write x) = .ok x) :
    items read (xs.map write) = .ok xs := by
  induction xs with
  | nil => rfl
  | cons x xs ih =>
    rw [List.map_cons, items, h x List.mem_cons_self,
      ih fun y hy => h y (List.mem_cons_of_mem x hy)]
    rfl

theorem entries_map {write : α → Value} {xs : List (String × α)}
    (h : ∀ p ∈ xs, read (write p.2) = .ok p.2) :
    entries read (xs.map fun p => (p.1, write p.2)) = .ok xs := by
  induction xs with
  | nil => rfl
  | cons p xs ih =>
    rw [List.map_cons, entries, h p List.mem_cons_self,
      ih fun q hq => h q (List.mem_cons_of_mem p hq)]
    rfl

theorem bind_eq_ok {α β : Type} {x : Except Fault α} {f : α → Except Fault β} {b : β}
    (h : x.bind f = .ok b) : ∃ a, x = .ok a ∧ f a = .ok b := by
  cases x with
  | error fault => exact nomatch h
  | ok a => exact ⟨a, rfl, h⟩

theorem map_eq_ok {α β : Type} {x : Except Fault α} {f : α → β} {b : β} (h : x.map f = .ok b) :
    ∃ a, x = .ok a ∧ f a = b := by
  cases x with
  | error fault => exact nomatch h
  | ok a => exact ⟨a, rfl, Except.ok.inj h⟩

theorem forall₂_of_items {vs : List Value} {xs : List α} (h : items read vs = .ok xs) :
    List.Forall₂ (fun v x => read v = .ok x) vs xs := by
  induction vs generalizing xs with
  | nil =>
    cases h
    exact .nil
  | cons v vs ih =>
    obtain ⟨x, hx, h⟩ := bind_eq_ok h
    obtain ⟨xs', hxs, h⟩ := bind_eq_ok h
    cases h
    exact .cons hx (ih hxs)

theorem forall₂_of_entries {o : Object} {xs : List (String × α)} (h : entries read o = .ok xs) :
    List.Forall₂ (fun m p => m.1 = p.1 ∧ read m.2 = .ok p.2) o xs := by
  induction o generalizing xs with
  | nil =>
    cases h
    exact .nil
  | cons m o ih =>
    obtain ⟨x, hx, h⟩ := bind_eq_ok h
    obtain ⟨xs', hxs, h⟩ := bind_eq_ok h
    cases h
    exact .cons ⟨rfl, hx⟩ (ih hxs)

theorem keys_of_entries {o : Object} {xs : List (String × α)} (h : entries read o = .ok xs) :
    Assoc.keys xs = Assoc.keys o :=
  (map_eq_map_of_forall₂ ((forall₂_of_entries h).imp fun _ _ same => same.1)).symm

theorem items_any (vs : List Value) : items any vs = .ok vs := by
  have read_ : ∀ v ∈ vs, any (id v) = .ok v := fun _ _ => rfl
  simpa using items_map read_

theorem exists_of_list {v : Value} {xs : List α} (h : list read v = .ok xs) :
    ∃ vs, v = .arr vs ∧ items read vs = .ok xs := by
  cases v with
  | arr vs => exact ⟨vs, rfl, h⟩
  | _ => exact nomatch h

theorem exists_of_table {v : Value} {xs : List (String × α)} (h : table read v = .ok xs) :
    ∃ o, v = .obj o ∧ entries read o = .ok xs := by
  cases v with
  | obj o => exact ⟨o, rfl, h⟩
  | _ => exact nomatch h

theorem str_of_text {v : Value} {s : String} (h : text v = .ok s) : v = .str s := by
  cases v with
  | str s' =>
    cases h
    rfl
  | _ => exact nomatch h

theorem obj_of_object {v : Value} {o : Object} (h : object v = .ok o) : v = .obj o := by
  cases v with
  | obj o' =>
    cases h
    rfl
  | _ => exact nomatch h

theorem ofOption_of_nullable_object {v : Value} {o : Option Object}
    (h : nullable object v = .ok o) : v = Value.ofOption (o.map Value.obj) := by
  cases v with
  | null =>
    cases h
    rfl
  | obj o' =>
    cases h
    rfl
  | _ => exact nomatch h

theorem toValue_of_natural {v : Value} {n : Nat} (h : natural v = .ok n) :
    v = Value.ofNat n := by
  cases v with
  | num k =>
    cases k with
    | double d => cases h
    | int i fits =>
      by_cases inside : InNat64 i
      · obtain rfl : i.toNat = n := by simpa [natural_num, Number.nat64?, inside] using h
        have size : ((i.toNat : Nat) : Int) = i := Int.toNat_of_nonneg inside.1
        have fits' : FitsNumber ((i.toNat : Nat) : Int) := size.symm ▸ fits
        rw [Value.ofNat, Value.ofInt_of_fits fits']
        simp only [size]
      · simp [natural_num, Number.nat64?, inside] at h
  | _ => cases h

theorem exists_of_open {members : List Member} {assemble : Object → Except Fault α} {v : Value}
    {x : α} (h : open_ members assemble v = .ok x) :
    ∃ doc, v = .obj doc ∧ assemble doc = .ok x := by
  cases v with
  | obj doc =>
    obtain ⟨-, -, h⟩ := bind_eq_ok h
    exact ⟨doc, rfl, h⟩
  | _ => exact nomatch h

private theorem find?_named (name : String) (doc : Object) :
    (Slot.named name read).find? doc = Assoc.get? name doc := by
  unfold Slot.find? Slot.named
  cases h : Assoc.get? name doc <;> simp [h]

private theorem require_named {name : String} {doc : Object} {v : Value}
    (h : Assoc.get? name doc = some v) : (Slot.named name read).require doc = read v := by
  simp only [Slot.require, find?_named, h]
  rfl

private theorem orElse_named {name : String} {doc : Object} {v : Value}
    (h : Assoc.get? name doc = some v) (default : α) :
    (Slot.named name read).orElse default doc = read v := by
  simp only [Slot.orElse, find?_named, h]
  rfl

private theorem orElse_named_of_none {name : String} {doc : Object} (h : Assoc.get? name doc = none)
    (default : α) : (Slot.named name read).orElse default doc = .ok default := by
  simp only [Slot.orElse, find?_named, h]

theorem get?_of_require {name : String} {doc : Object} {x : α}
    (h : (Slot.named name read).require doc = .ok x) :
    ∃ v, Assoc.get? name doc = some v ∧ read v = .ok x := by
  cases hv : Assoc.get? name doc with
  | none =>
    rw [Slot.require, find?_named, hv] at h
    exact nomatch h
  | some v =>
    rw [require_named hv] at h
    exact ⟨v, rfl, h⟩

theorem get?_of_orElse {name : String} {doc : Object} {default x : α}
    (h : (Slot.named name read).orElse default doc = .ok x) :
    (Assoc.get? name doc = none ∧ x = default) ∨
      ∃ v, Assoc.get? name doc = some v ∧ read v = .ok x := by
  cases hv : Assoc.get? name doc with
  | none =>
    rw [orElse_named_of_none hv] at h
    cases h
    exact Or.inl ⟨rfl, rfl⟩
  | some v =>
    rw [orElse_named hv] at h
    exact Or.inr ⟨v, rfl, h⟩

/-- What a document has under the names of a member is accepted. -/
def Member.Suits (m : Member) (doc : Object) : Prop :=
  ∀ k ∈ m.names, ∀ v, Assoc.get? k doc = some v → m.accepts v = .ok ()

/-- A document gives a member under one of its names at most. -/
def Member.Alone (m : Member) (keys : List String) : Prop :=
  ∀ k ∈ m.names, ∀ k' ∈ m.names, k ∈ keys → k' ∈ keys → k = k'

private theorem Member.Alone.mono {m : Member} {keys keys' : List String} (h : m.Alone keys)
    (sub : keys' ⊆ keys) : m.Alone keys' :=
  fun k hk k' hk' here here' => h k hk k' hk' (sub here) (sub here')

private theorem Member.Suits.tail {m : Member} {p : String × Value} {doc : Object}
    (h : m.Suits (p :: doc)) (new : p.1 ∉ Assoc.keys doc) : m.Suits doc := by
  intro k hk v there
  have other : k ≠ p.1 := by
    rintro rfl
    exact new (Assoc.mem_keys_of_get? there)
  exact h k hk v ((Assoc.get?_cons_of_ne other doc).trans there)

private theorem check_eq_ok {members : List Member} {seen : List String} {doc : Object}
    (alone : ∀ m ∈ members, m.Alone (seen ++ Assoc.keys doc))
    (nodup : (Assoc.keys doc).Nodup) (fresh : ∀ k ∈ Assoc.keys doc, k ∉ seen)
    (suits : ∀ m ∈ members, m.Suits doc) : check members seen doc = .ok () := by
  induction doc generalizing seen with
  | nil => rfl
  | cons p doc ih =>
    obtain ⟨new, nodup⟩ := List.nodup_cons.mp nodup
    have rest : ∀ m ∈ members, m.Suits doc := fun m hm => (suits m hm).tail new
    have restFresh : ∀ k ∈ Assoc.keys doc, k ∉ seen :=
      fun k hk => fresh k (List.mem_cons_of_mem p.1 hk)
    rw [check]
    cases hm : members.find? fun m => p.1 ∈ m.names with
    | none =>
      have fewer : seen ++ Assoc.keys doc ⊆ seen ++ Assoc.keys (p :: doc) :=
        ((List.sublist_cons_self p.1 _).append_left seen).subset
      exact ih (fun m hm => (alone m hm).mono fewer) nodup restFresh rest
    | some m =>
      have member := List.mem_of_find?_eq_some hm
      have named : p.1 ∈ m.names := by simpa using List.find?_some hm
      have unseen : m.names.any (· ∈ seen) = false := by
        rw [List.any_eq_false]
        intro k hk seen_
        have old : k ∈ seen := by simpa using seen_
        have same : k = p.1 := alone m member k hk p.1 named (List.mem_append_left _ old)
          (List.mem_append_right _ List.mem_cons_self)
        exact fresh p.1 List.mem_cons_self (same ▸ old)
      have sound : m.accepts p.2 = .ok () :=
        suits m member p.1 named p.2 (Assoc.get?_cons_self p.1 p.2 doc)
      have moved : p.1 :: seen ++ Assoc.keys doc ⊆ seen ++ Assoc.keys (p :: doc) :=
        List.perm_middle.symm.subset
      have later : check members (p.1 :: seen) doc = .ok () := by
        refine ih (fun m hm => (alone m hm).mono moved) nodup (fun k hk => ?_) rest
        rw [List.mem_cons, not_or]
        exact ⟨fun same => new (same ▸ hk), restFresh k hk⟩
      simp only [unseen, sound, Bool.false_eq_true, if_false]
      exact later

/-- A member is taken from a document as a result, and the document gives it once, with a value that
is accepted. -/
structure Slot.Yields (s : Slot α) (doc : Object) (taken : Except Fault α) (x : α) : Prop where
  eq_ok : taken = .ok x
  alone : s.member.Alone (Assoc.keys doc)
  suits : s.member.Suits doc

namespace Slot.Yields

variable {name : String} {doc : Object} {v : Value} {x : α}

private theorem of_first {s : Slot α} {others : List String} {taken : Except Fault α}
    (names : s.names = name :: others) (there : Assoc.get? name doc = some v)
    (absent : ∀ k ∈ others, k ∉ Assoc.keys doc) (back : s.read v = .ok x)
    (found : s.find? doc = some v → taken = s.read v) : s.Yields doc taken x := by
  have first {k : String} (named : k ∈ s.names) (known : k ∈ Assoc.keys doc) : k = name := by
    rw [names] at named
    exact (List.mem_cons.mp named).resolve_right fun other => absent k other known
  refine ⟨?_, fun k hk k' hk' here here' => (first hk here).trans (first hk' here').symm, ?_⟩
  · exact (found (by simp [Slot.find?, names, there])).trans back
  · intro k hk w given
    obtain rfl := first hk (Assoc.mem_keys_of_get? given)
    obtain rfl : v = w := Option.some.inj (there.symm.trans given)
    change (s.read v).map (fun _ => ()) = .ok ()
    rw [back]
    rfl

theorem require_first {s : Slot α} {others : List String} (names : s.names = name :: others)
    (there : Assoc.get? name doc = some v) (absent : ∀ k ∈ others, k ∉ Assoc.keys doc)
    (back : s.read v = .ok x) : s.Yields doc (s.require doc) x :=
  of_first names there absent back fun found => by rw [Slot.require, found]

theorem orElse_first {s : Slot α} {others : List String} {default : α}
    (names : s.names = name :: others) (there : Assoc.get? name doc = some v)
    (absent : ∀ k ∈ others, k ∉ Assoc.keys doc) (back : s.read v = .ok x) :
    s.Yields doc (s.orElse default doc) x :=
  of_first names there absent back fun found => by rw [Slot.orElse, found]

theorem require (there : Assoc.get? name doc = some v) (back : read v = .ok x) :
    (Slot.named name read).Yields doc ((Slot.named name read).require doc) x :=
  require_first rfl there (fun _ h => absurd h List.not_mem_nil) back

theorem orElse {default : α} (there : Assoc.get? name doc = some v) (back : read v = .ok x) :
    (Slot.named name read).Yields doc ((Slot.named name read).orElse default doc) x :=
  orElse_first rfl there (fun _ h => absurd h List.not_mem_nil) back

theorem default (absent : Assoc.get? name doc = none) :
    (Slot.named name read).Yields doc ((Slot.named name read).orElse x doc) x := by
  refine ⟨orElse_named_of_none absent x, fun k hk k' hk' _ _ => ?_, fun k hk v there => ?_⟩
  · exact (List.mem_singleton.mp hk).trans (List.mem_singleton.mp hk').symm
  · obtain rfl : k = name := List.mem_singleton.mp hk
    exact nomatch absent.symm.trans there

theorem unlessNull (found : Assoc.get? name doc = if v.isNull then none else some v) :
    (Slot.named name any).Yields doc ((Slot.named name any).orElse .null doc) v := by
  cases v with
  | null => exact default found
  | _ => exact orElse found rfl

end Slot.Yields

/-- A document yields a record, member after member in the order in which they are taken. What is
left after the last one is made of no member alone. -/
inductive Assembles (doc : Object) {β : Type} : List Member → Except Fault β → β → Prop
  | rest {made : Except Fault β} {x : β} : made = .ok x → Assembles doc [] made x
  | take {α : Type} {s : Slot α} {taken : Except Fault α} {a : α} {members : List Member}
      {next : α → Except Fault β} {x : β} : s.Yields doc taken a →
      Assembles doc members (next a) x → Assembles doc (s.member :: members) (taken >>= next) x

namespace Assembles

variable {doc : Object} {members : List Member} {assemble : Object → Except Fault α}
  {made : Except Fault α} {x : α}

private theorem eq_ok (h : Assembles doc members made x) : made = .ok x := by
  induction h with
  | rest made => exact made
  | take yields _ ih =>
    rw [yields.eq_ok]
    exact ih

private theorem check_eq_ok (nodup : (Assoc.keys doc).Nodup) (h : Assembles doc members made x) :
    check members [] doc = .ok () := by
  have each : ∀ m ∈ members, m.Alone (Assoc.keys doc) ∧ m.Suits doc := by
    induction h with
    | rest => exact fun _ hm => absurd hm List.not_mem_nil
    | take yields _ ih =>
      rw [List.forall_mem_cons]
      exact ⟨⟨yields.alone, yields.suits⟩, ih⟩
  exact Record.check_eq_ok (fun m hm => (each m hm).1) nodup (fun _ _ => List.not_mem_nil)
    fun m hm => (each m hm).2

/-- A document with distinct members that yields a record passes the check and reads as it. -/
theorem checked_eq_ok (nodup : (Assoc.keys doc).Nodup) (h : Assembles doc members made x) :
    (check members [] doc >>= fun _ => made) = .ok x := by
  rw [h.check_eq_ok nodup, ← h.eq_ok]
  rfl

theorem open_eq_ok (nodup : (Assoc.keys doc).Nodup) (h : Assembles doc members (assemble doc) x) :
    open_ members assemble (.obj doc) = .ok x := h.checked_eq_ok nodup

theorem closed_eq_ok (nodup : (Assoc.keys doc).Nodup)
    (h : Assembles doc members (assemble doc) x) : closed members assemble (.obj doc) = .ok x :=
  h.open_eq_ok nodup

end Assembles

/-- A document as it is written again: members changed or dropped, and defaults that were left
out. -/
def settle (change : String → Value → Option Value) (defaults doc : Object) : Object :=
  Assoc.filterMapValues change doc ++ defaults.filter fun p => !Assoc.contains p.1 doc

theorem get?_settle {doc : Object} (nodup : (Assoc.keys doc).Nodup)
    (change : String → Value → Option Value) (defaults : Object) (k : String) :
    Assoc.get? k (settle change defaults doc) = match Assoc.get? k doc with
      | some v => change k v
      | none => Assoc.get? k defaults := by
  have absent : Assoc.get? k (defaults.filter fun p => !Assoc.contains p.1 doc) =
      if !Assoc.contains k doc then Assoc.get? k defaults else none :=
    Assoc.get?_filter (fun k => !Assoc.contains k doc) k defaults
  rw [settle, Assoc.get?_append, Assoc.get?_filterMapValues nodup, absent, Assoc.contains]
  cases h : Assoc.get? k doc <;> simp

private theorem nodup_keys_settle {doc defaults : Object} (nodup : (Assoc.keys doc).Nodup)
    (nodup' : (Assoc.keys defaults).Nodup) (change : String → Value → Option Value) :
    (Assoc.keys (settle change defaults doc)).Nodup := by
  rw [settle, Assoc.keys_append, List.nodup_append]
  have kept := Assoc.keys_filterMapValues_sublist change doc
  refine ⟨nodup.sublist kept, Assoc.nodup_keys_filter nodup' _, ?_⟩
  rintro k hk _ hd rfl
  obtain ⟨p, hp, rfl⟩ := List.mem_map.mp hd
  have missing := (List.mem_filter.mp hp).2
  have present : Assoc.contains p.1 doc = true :=
    (Assoc.contains_iff_mem_keys p.1 doc).mpr (kept.subset hk)
  rw [present] at missing
  exact nomatch missing

def foreign (names : List String) : Value → Object
  | .obj doc => doc.filter fun p => p.1 ∉ names
  | _ => []

/-- Members collected beside the known names, each once. -/
structure Extras (names : List String) (extra : Object) : Prop where
  nodup : (Assoc.keys extra).Nodup
  foreign : ∀ k ∈ Assoc.keys extra, k ∉ names

namespace Extras

variable {names : List String} {extra known : Object}

theorem filter {doc : Object} (nodup : (Assoc.keys doc).Nodup) :
    Extras names (doc.filter fun p => p.1 ∉ names) where
  nodup := Assoc.nodup_keys_filter nodup _
  foreign := by
    intro k hk
    obtain ⟨p, hp, rfl⟩ := List.mem_map.mp hk
    simpa using (List.mem_filter.mp hp).2

theorem nodup_append (h : Extras names extra) (known_ : (Assoc.keys known).Sublist names)
    (distinct : names.Nodup) : (Assoc.keys (known ++ extra)).Nodup := by
  rw [Assoc.keys_append, List.nodup_append]
  refine ⟨distinct.sublist known_, h.nodup, ?_⟩
  rintro k hk _ he rfl
  exact h.foreign k he (known_.subset hk)

theorem get?_append_of_mem (h : Extras names extra) {k : String} (hk : k ∈ names) :
    Assoc.get? k (known ++ extra) = Assoc.get? k known := by
  have none : Assoc.get? k extra = none :=
    (Assoc.get?_eq_none_iff k extra).mpr fun he => h.foreign k he hk
  rw [Assoc.get?_append, none, Option.or_none]

private theorem get?_append_of_not_mem (known_ : (Assoc.keys known).Sublist names) {k : String}
    (hk : k ∉ names) : Assoc.get? k (known ++ extra) = Assoc.get? k extra := by
  have none : Assoc.get? k known = none :=
    (Assoc.get?_eq_none_iff k known).mpr fun he => hk (known_.subset he)
  rw [Assoc.get?_append, none, Option.none_or]

theorem filter_append (h : Extras names extra) (known_ : (Assoc.keys known).Sublist names) :
    (known ++ extra).filter (fun p => p.1 ∉ names) = extra := by
  have inside : known.filter (fun p => p.1 ∉ names) = [] := by
    rw [List.filter_eq_nil_iff]
    intro p hp
    simpa using known_.subset (List.mem_map_of_mem hp)
  have outside : extra.filter (fun p => p.1 ∉ names) = extra := by
    rw [List.filter_eq_self]
    intro p hp
    simpa using h.foreign p.1 (List.mem_map_of_mem hp)
  rw [List.filter_append, inside, outside, List.nil_append]

/-- A written record is its document settled, if every known member is. -/
theorem perm_settle {doc defaults : Object} {change : String → Value → Option Value}
    (nodup : (Assoc.keys doc).Nodup) (distinct : names.Nodup)
    (known_ : (Assoc.keys known).Sublist names) (defaults_ : (Assoc.keys defaults).Sublist names)
    (settled : ∀ k ∈ names, Assoc.get? k known = Assoc.get? k (settle change defaults doc))
    (foreign : ∀ k ∉ names, ∀ v, change k v = some v) :
    (known ++ doc.filter fun p => p.1 ∉ names).Perm (settle change defaults doc) := by
  have extras : Extras names (doc.filter fun p => p.1 ∉ names) := .filter nodup
  apply Assoc.perm_of_get? (extras.nodup_append known_ distinct)
    (nodup_keys_settle nodup (distinct.sublist defaults_) change)
  intro k
  by_cases hk : k ∈ names
  · rw [extras.get?_append_of_mem hk, settled k hk]
  · have kept : Assoc.get? k (doc.filter fun p => p.1 ∉ names) = Assoc.get? k doc := by
      rw [Assoc.get?_filter (fun k => decide (k ∉ names)) k doc]
      simp [hk]
    have noDefault : Assoc.get? k defaults = none :=
      (Assoc.get?_eq_none_iff k defaults).mpr fun h => hk (defaults_.subset h)
    rw [get?_append_of_not_mem known_ hk, kept, get?_settle nodup, noDefault]
    cases Assoc.get? k doc with
    | none => rfl
    | some v => exact (foreign k hk v).symm

end Extras

end Record

end WorkflowGraph
