/- Reading records, enumerations and tagged alternatives from JSON values, and why that can fail. -/

import WorkflowGraph.Json.Printer
import WorkflowGraph.Text.Escaped
import WorkflowGraph.Text.Search

set_option autoImplicit false
set_option relaxedAutoImplicit false

/-!
A record is read in two passes. The first goes through the members in the order of the document and
stops at the first one that does not read as its declared kind, or that gives a value a second time
under another name. Only when all members are sound does the second pass assemble the record, and
the first required member that is missing, in the order of declaration, is reported.
-/

namespace WorkflowGraph

/-- Why a value did not read as what was expected. -/
inductive Fault where
  /-- A required member is missing. -/
  | missingMember (name : String)
  /-- A text that stands for a node id spells no integer. -/
  | invalidNodeId (text : String)
  /-- A version is neither a text nor a number. -/
  | invalidVersion (found : Value)
  /-- A word names none of the alternatives. -/
  | unknownWord (word : String) (choices : List String)
  /-- A text stands where another kind of value belongs. -/
  | misplacedText (text : String)
  /-- Anything else. -/
  | unreadable

namespace Fault

def message : Fault → String
  | missingMember name => "missing field `" ++ name ++ "`"
  | invalidNodeId text => "invalid node id '" ++ text ++ "'"
  | invalidVersion found => "expected version string or number, got " ++ found.compact
  | unknownWord word choices =>
    "unknown variant `" ++ word ++ "`, expected one of `" ++ Text.join "`, `" choices ++ "`"
  | misplacedText text => "invalid type: string " ++ Text.quoted text ++ ", expected another type"
  | unreadable => "invalid value or type"

end Fault

namespace Record

abbrev Reader (α : Type) := Value → Except Fault α

def wrongKind : Value → Fault
  | .str s => .misplacedText s
  | _ => .unreadable

def text : Reader String
  | .str s => .ok s
  | _ => .error .unreadable

def flag : Reader Bool
  | .bool b => .ok b
  | v => .error (wrongKind v)

/-- A natural number of 64 bits; doubles are refused even when they are integral. -/
def natural : Reader Nat
  | .num n => match n.nat64? with
    | some k => .ok k
    | none => .error .unreadable
  | v => .error (wrongKind v)

theorem natural_num (n : Number) :
    natural (.num n) = match n.nat64? with
      | some k => .ok k
      | none => .error .unreadable := rfl

theorem natural_ofNat {n : Nat} (h : InNat64 n) : natural (Value.ofNat n) = .ok n := by
  have hf : FitsNumber (n : Int) := by
    simp only [InNat64, FitsNumber] at *
    omega
  rw [Value.ofNat, Value.ofInt_of_fits hf, natural_num, Number.nat64?_int h]

def double : Reader Double
  | .num n => .ok n.toDouble
  | v => .error (wrongKind v)

def any : Reader Value := fun v => .ok v

def object : Reader Object
  | .obj o => .ok o
  | v => .error (wrongKind v)

/-- The items of a list read one by one; the first fault counts. -/
def items {α : Type} (read : Reader α) : List Value → Except Fault (List α)
  | [] => .ok []
  | v :: rest => do
    let x ← read v
    let xs ← items read rest
    return x :: xs

def list {α : Type} (read : Reader α) : Reader (List α)
  | .arr vs => items read vs
  | v => .error (wrongKind v)

def nullable {α : Type} (read : Reader α) : Reader (Option α)
  | .null => .ok none
  | v => do return some (← read v)

def entries {α : Type} (read : Reader α) : Object → Except Fault (List (String × α))
  | [] => .ok []
  | (k, v) :: rest => do
    let x ← read v
    let xs ← entries read rest
    return (k, x) :: xs

def table {α : Type} (read : Reader α) : Reader (List (String × α))
  | .obj o => entries read o
  | v => .error (wrongKind v)

def choose {α : Type} (choices : List (String × α)) (other : Option α) (word : String) :
    Except Fault α :=
  match Assoc.get? word choices, other with
  | some x, _ => .ok x
  | none, some x => .ok x
  | none, none => .error (.unknownWord word (Assoc.keys choices))

/-- One of several words, given as a text or as the only key of an object with nothing under it. -/
def enumeration {α : Type} (choices : List (String × α)) (other : Option α)
    (nothing : Value → Bool) : Reader α
  | .str word => choose choices other word
  | .obj [(word, v)] => do
    let x ← choose choices other word
    if nothing v then return x else .error (wrongKind v)
  | _ => .error .unreadable

/-- A member with its accepted names, the first being the one that is written, and its reader. -/
structure Slot (α : Type) where
  names : List String
  read : Reader α

/-- What the first pass needs to know of a member. -/
structure Member where
  names : List String
  accepts : Value → Except Fault Unit

namespace Slot

variable {α : Type}

def named (name : String) (read : Reader α) : Slot α := ⟨[name], read⟩

def name (s : Slot α) : String := s.names.headD ""

def member (s : Slot α) : Member := ⟨s.names, fun v => (s.read v).map fun _ => ()⟩

/-- The value of the member in a document, under any of its names. -/
def find? (s : Slot α) (doc : Object) : Option Value :=
  s.names.findSome? fun n => Assoc.get? n doc

def require (s : Slot α) (doc : Object) : Except Fault α :=
  match s.find? doc with
  | some v => s.read v
  | none => .error (.missingMember s.name)

def orElse (s : Slot α) (default : α) (doc : Object) : Except Fault α :=
  match s.find? doc with
  | some v => s.read v
  | none => .ok default

end Slot

/-- The first pass: each known member of a document is sound and given once. -/
def check (members : List Member) : List String → Object → Except Fault Unit
  | _, [] => .ok ()
  | seen, (k, v) :: rest =>
    match members.find? fun m => k ∈ m.names with
    | none => check members seen rest
    | some m =>
      if m.names.any (· ∈ seen) then .error .unreadable
      else do
        m.accepts v
        check members (k :: seen) rest

/-- A record with collected members, which only an object can give. -/
def open_ {α : Type} (members : List Member) (assemble : Object → Except Fault α) : Reader α
  | .obj doc => do
    check members [] doc
    assemble doc
  | v => .error (wrongKind v)

def positional (members : List Member) (vs : List Value) : Object :=
  (members.map fun m => m.names.headD "").zip vs

/-- A record that an object gives by name or a list gives by position. A list may be shorter than
the record where defaults stand in, but not longer. -/
def closed {α : Type} (members : List Member) (assemble : Object → Except Fault α) : Reader α
  | .arr vs => do
    let doc := positional members vs
    check members [] doc
    match assemble doc with
    | .ok x => if vs.length ≤ members.length then return x else .error .unreadable
    | .error _ => .error .unreadable
  | v => open_ members assemble v

/-- Alternatives told apart by a word under a tag. The tag may stand anywhere in an object; in a
list it comes first. -/
def tagged {α : Type} (tag : String) (choices : List (String × Reader α))
    (other : Option (Reader α)) : Reader α
  | .obj doc =>
    match Assoc.get? tag doc with
    | none => .error (.missingMember tag)
    | some (.str word) => do
      let read ← choose choices other word
      read (.obj (Assoc.erase tag doc))
    | some _ => .error .unreadable
  | .arr [] => .error (.missingMember tag)
  | .arr (.str word :: rest) => do
    let read ← choose choices other word
    read (.arr rest)
  | v => .error (wrongKind v)

end Record

end WorkflowGraph
