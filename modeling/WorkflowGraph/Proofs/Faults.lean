/- Where the faults of readings come from. -/

import WorkflowGraph.Proofs.OptionalMembers

set_option autoImplicit false
set_option relaxedAutoImplicit false

/-!
A reading that fails says why. Either a text of the document is to blame, and the fault carries it,
or a member is missing, or nothing but the kind of a value is wrong. A fault is traced to a value
when the text that it carries stands in the value and the member that it misses is one that the
value lacks. What lacking means is left open here: each record says it for itself.
-/

namespace WorkflowGraph

/-- A text stands in a value, as a value of its own or as the name of a member. -/
inductive Value.HasText : Value → String → Prop
  | text (t : String) : HasText (.str t) t
  | item {vs : List Value} {w : Value} {t : String} : w ∈ vs → HasText w t → HasText (.arr vs) t
  | name {o : Object} {p : String × Value} : p ∈ o → HasText (.obj o) p.1
  | member {o : Object} {p : String × Value} {t : String} :
      p ∈ o → HasText p.2 t → HasText (.obj o) t

private theorem Value.HasText.of_subset {a b : Object} (h : a ⊆ b) {t : String}
    (there : HasText (.obj a) t) : HasText (.obj b) t := by
  cases there with
  | name hp => exact .name (h hp)
  | member hp inside => exact .member (h hp) inside

def Fault.Traced (v : Value) (lacks : String → Prop) : Fault → Prop
  | .missingMember name => lacks name
  | .invalidNodeId t => v.HasText t
  | .misplacedText t => v.HasText t
  | .unknownWord t _ => v.HasText t
  | .invalidVersion _ => False
  | .unreadable => True

private theorem Fault.Traced.mono {f : Fault} {v w : Value} {lacks lacks' : String → Prop}
    (h : f.Traced w lacks') (texts : ∀ t, w.HasText t → v.HasText t)
    (lacking : ∀ name, lacks' name → lacks name) : f.Traced v lacks := by
  cases f with
  | missingMember name => exact lacking name h
  | invalidNodeId t => exact texts t h
  | misplacedText t => exact texts t h
  | unknownWord t words => exact texts t h
  | invalidVersion found => exact h
  | unreadable => trivial

namespace Record

/-- Whatever goes wrong in a computation is traced to a value. -/
def Accounts {α : Type} (v : Value) (lacks : String → Prop) (x : Except Fault α) : Prop :=
  ∀ f, x = .error f → f.Traced v lacks

/-- A reader that misses no member and blames the texts of what it reads. -/
def Plain {α : Type} (read : Reader α) : Prop := ∀ v, Accounts v (fun _ => False) (read v)

variable {α β : Type} {v w : Value} {lacks lacks' : String → Prop}

namespace Accounts

theorem ok (x : α) : Accounts v lacks (.ok x : Except Fault α) := by
  intro f hf
  cases hf

private theorem error {f : Fault} (h : f.Traced v lacks) :
    Accounts v lacks (.error f : Except Fault α) := by
  intro f' hf
  cases hf
  exact h

theorem bind {x : Except Fault α} {g : α → Except Fault β} (h : Accounts v lacks x)
    (rest : ∀ a, Accounts v lacks (g a)) : Accounts v lacks (x >>= g) := by
  intro f hf
  cases x with
  | error f' =>
    cases hf
    exact h f rfl
  | ok a => exact rest a f hf

theorem map {x : Except Fault α} (h : Accounts v lacks x) (g : α → β) :
    Accounts v lacks (x.map g) := by
  intro f hf
  cases x with
  | error f' =>
    cases hf
    exact h f rfl
  | ok a => cases hf

theorem mono {x : Except Fault α} (h : Accounts w lacks' x)
    (texts : ∀ t, w.HasText t → v.HasText t) (lacking : ∀ name, lacks' name → lacks name) :
    Accounts v lacks x :=
  fun f hf => (h f hf).mono texts lacking

private theorem wrongKind (v : Value) :
    Accounts v lacks (.error (wrongKind v) : Except Fault α) := by
  apply error
  cases v with
  | str t => exact .text t
  | _ => trivial

private theorem unreadable : Accounts v lacks (.error .unreadable : Except Fault α) := error trivial

private theorem items {read : Reader α} {vs : List Value}
    (each : ∀ w ∈ vs, Accounts v lacks (read w)) :
    Accounts v lacks (items read vs) := by
  induction vs with
  | nil => exact ok _
  | cons w vs ih =>
    obtain ⟨first, others⟩ := List.forall_mem_cons.mp each
    exact bind first fun _ => bind (ih others) fun _ => ok _

private theorem entries {read : Reader α} {o : Object}
    (each : ∀ p ∈ o, Accounts v lacks (read p.2)) :
    Accounts v lacks (entries read o) := by
  induction o with
  | nil => exact ok _
  | cons p o ih =>
    obtain ⟨first, others⟩ := List.forall_mem_cons.mp each
    exact bind first fun _ => bind (ih others) fun _ => ok _

theorem list {read : Reader α} (each : ∀ vs, v = .arr vs → ∀ w ∈ vs, Accounts v lacks (read w)) :
    Accounts v lacks (list read v) := by
  cases v with
  | arr vs => exact items (each vs rfl)
  | _ => exact wrongKind _

theorem table {read : Reader α} (each : ∀ o, v = .obj o → ∀ p ∈ o, Accounts v lacks (read p.2)) :
    Accounts v lacks (table read v) := by
  cases v with
  | obj o => exact entries (each o rfl)
  | _ => exact wrongKind _

theorem nullable {read : Reader α} (h : Accounts v lacks (read v)) :
    Accounts v lacks (nullable read v) := by
  cases v with
  | null => exact ok _
  | _ => exact bind h fun _ => ok _

private theorem choose {choices : List (String × α)} {other : Option α} {word : String}
    (there : v.HasText word) : Accounts v lacks (choose choices other word) := by
  unfold Record.choose
  split
  · exact ok _
  · exact ok _
  · exact error there

end Accounts

namespace Plain

theorem text : Plain text := by
  intro v
  cases v with
  | str s => exact .ok s
  | _ => exact .unreadable

theorem flag : Plain flag := by
  intro v
  cases v with
  | bool b => exact .ok b
  | _ => exact .wrongKind _

theorem natural : Plain natural := by
  intro v
  cases v with
  | num n =>
    rw [natural_num]
    split
    · exact .ok _
    · exact .unreadable
  | _ => exact .wrongKind _

theorem double : Plain double := by
  intro v
  cases v with
  | num n => exact .ok _
  | _ => exact .wrongKind _

theorem any : Plain any := fun v => .ok v

theorem nodeId : Plain NodeId.read := by
  intro v
  cases v with
  | num n =>
    unfold NodeId.read
    dsimp only
    split
    · exact .ok _
    · exact .unreadable
  | str s =>
    unfold NodeId.read
    dsimp only
    split
    · exact .ok _
    · exact .error (.text s)
  | _ => exact .unreadable

theorem nodeMode : Plain NodeMode.read := by
  intro v
  apply (natural v).bind
  intro n
  split
  · exact .ok _
  · exact .unreadable

theorem nullable {read : Reader α} (h : Plain read) : Plain (nullable read) :=
  fun v => (h v).nullable

theorem list {read : Reader α} (h : Plain read) : Plain (list read) := by
  intro v
  apply Accounts.list
  rintro vs rfl w hw
  exact (h w).mono (fun _ => .item hw) fun _ => id

theorem enumeration (choices : List (String × α)) (other : Option α) (nothing : Value → Bool) :
    Plain (enumeration choices other nothing) := by
  intro v
  unfold Record.enumeration
  split
  · exact .choose (.text _)
  next word w =>
    apply (Accounts.choose (.name List.mem_cons_self)).bind
    intro x
    split
    · exact .ok x
    · have inside : (word, w) ∈ [(word, w)] := List.mem_cons_self
      exact (Accounts.wrongKind w).mono (fun _ => .member inside) fun _ => id
  · exact .unreadable

end Plain

/-- What a document has under the names of a member is accounted for by the document. -/
def Member.Accounted (m : Member) (doc : Object) (lacks : String → Prop) : Prop :=
  ∀ n ∈ m.names, ∀ w, Assoc.get? n doc = some w → Accounts (.obj doc) lacks (m.accepts w)

def Slot.Accounted (s : Slot α) (doc : Object) (lacks : String → Prop) : Prop :=
  ∀ n ∈ s.names, ∀ w, Assoc.get? n doc = some w → Accounts (.obj doc) lacks (s.read w)

variable {doc : Object} {s : Slot α}

theorem Slot.Accounted.member (h : s.Accounted doc lacks) : s.member.Accounted doc lacks :=
  fun n hn w there => (h n hn w there).map _

theorem Slot.Accounted.of_plain (h : Plain s.read) : s.Accounted doc lacks := by
  intro n _ w there
  exact (h w).mono (fun _ => .member (Assoc.mem_of_get? there)) fun _ => False.elim

private theorem Slot.find?_eq_some {w : Value} (h : s.find? doc = some w) :
    ∃ n ∈ s.names, Assoc.get? n doc = some w := List.exists_of_findSome?_eq_some h

namespace Accounts

theorem orElse (h : s.Accounted doc lacks) (default : α) :
    Accounts (.obj doc) lacks (s.orElse default doc) := by
  unfold Slot.orElse
  split
  next w there =>
    obtain ⟨n, hn, value⟩ := Slot.find?_eq_some there
    exact h n hn w value
  · exact ok default

theorem require (h : s.Accounted doc lacks)
    (lacking : (∀ n ∈ s.names, Assoc.get? n doc = none) → lacks s.name) :
    Accounts (.obj doc) lacks (s.require doc) := by
  unfold Slot.require
  split
  next w there =>
    obtain ⟨n, hn, value⟩ := Slot.find?_eq_some there
    exact h n hn w value
  next absent => exact error (lacking (List.findSome?_eq_none_iff.mp absent))

/-- The first pass. A name that comes again is refused before its value is looked at, so the values
that are looked at are those that the document has under their names. -/
theorem check {members : List Member} (each : ∀ m ∈ members, m.Accounted doc lacks) :
    Accounts (.obj doc) lacks (check members [] doc) := by
  have pass (seen : List String) (rest : Object)
      (agree : ∀ m ∈ members, ∀ n ∈ m.names, n ∉ seen → Assoc.get? n rest = Assoc.get? n doc) :
      Accounts (.obj doc) lacks (Record.check members seen rest) := by
    induction rest generalizing seen with
    | nil => exact ok ()
    | cons p rest ih =>
      unfold Record.check
      split
      next unknown =>
        apply ih seen
        intro m hm n hn new
        have other : n ≠ p.1 := by
          rintro rfl
          exact List.find?_eq_none.mp unknown m hm (by simpa using hn)
        rw [← Assoc.get?_cons_of_ne other, agree m hm n hn new]
      next m found =>
        have hm : m ∈ members := List.mem_of_find?_eq_some found
        have hn : p.1 ∈ m.names := by simpa using List.find?_some found
        split
        · exact unreadable
        next fresh =>
          have new : p.1 ∉ seen := fun known =>
            fresh (List.any_eq_true.mpr ⟨p.1, hn, by simpa using known⟩)
          have value : Assoc.get? p.1 doc = some p.2 := by
            rw [← agree m hm p.1 hn new, Assoc.get?_cons_self]
          apply (each m hm p.1 hn p.2 value).bind
          intro _
          apply ih (p.1 :: seen)
          intro m' hm' n hn' new'
          obtain ⟨other, old⟩ := not_or.mp (List.mem_cons.not.mp new')
          rw [← Assoc.get?_cons_of_ne other, agree m' hm' n hn' old]
  exact pass [] doc fun _ _ _ _ _ => rfl

theorem open_ {members : List Member} {assemble : Object → Except Fault α}
    (each : ∀ m ∈ members, m.Accounted doc lacks)
    (made : Accounts (.obj doc) lacks (assemble doc)) :
    Accounts (.obj doc) lacks (open_ members assemble (.obj doc)) :=
  (check each).bind fun _ => made

theorem closed {members : List Member} {assemble : Object → Except Fault α}
    (each : ∀ m ∈ members, m.Accounted doc lacks)
    (made : Accounts (.obj doc) lacks (assemble doc)) :
    Accounts (.obj doc) lacks (closed members assemble (.obj doc)) := open_ each made

theorem tagged {tag : String} {choices : List (String × Reader α)} {other : Option (Reader α)}
    (untagged : Assoc.get? tag doc = none → lacks tag)
    (each : ∀ word read, Assoc.get? tag doc = some (.str word) →
      (word, read) ∈ choices ∨ other = some read →
      Accounts (.obj (Assoc.erase tag doc)) lacks (read (.obj (Assoc.erase tag doc)))) :
    Accounts (.obj doc) lacks (tagged tag choices other (.obj doc)) := by
  simp only [Record.tagged]
  split
  next absent => exact error (untagged absent)
  next word there =>
    have stands : Value.HasText (.obj doc) word := .member (Assoc.mem_of_get? there) (.text word)
    cases chosen : Record.choose choices other word with
    | error f => exact error (choose stands f chosen)
    | ok read =>
      have beside : Assoc.erase tag doc ⊆ doc := List.filter_subset_self _
      exact (each word read there (mem_of_choose chosen)).mono (fun _ => .of_subset beside)
        fun _ => id
  · exact unreadable

end Accounts

end Record

end WorkflowGraph
