/- Tables of TOML while they are put together from headers and keys. -/

import WorkflowGraph.Json.Value

set_option autoImplicit false
set_option relaxedAutoImplicit false

/-!
A table comes into being in one of three ways: it has a header of its own, it is a parent in the
header of another table, or it is a parent in a dotted key. What may still be added to it, and in
which way, depends on how it came into being.
-/

namespace WorkflowGraph.Toml

/-- How a table came into being. -/
inductive Origin where
  /-- As a parent in a header. -/
  | implied
  /-- By its own header. -/
  | header
  /-- As a parent in a dotted key. -/
  | dotted
deriving DecidableEq

inductive Entry where
  | leaf (v : Value)
  | table (origin : Origin) (members : List (String × Entry))
  /-- Tables under one header of an array, each with its members. -/
  | tables (elements : List (List (String × Entry)))

abbrev Members := List (String × Entry)

mutual

def Entry.value : Entry → Value
  | .leaf v => v
  | .table _ members => .obj (memberValues members)
  | .tables elements => .arr (tableValues elements)

def memberValues : List (String × Entry) → Object
  | [] => []
  | (k, e) :: rest => (k, e.value) :: memberValues rest

def tableValues : List (List (String × Entry)) → List Value
  | [] => []
  | members :: rest => .obj (memberValues members) :: tableValues rest

end

namespace Members

/-- Change the table that a path leads to. A parent that is missing comes into being, an array of
tables leads to its last one, and a dotted key does not lead into a table that has a header. -/
def within (asDotted : Bool) (f : Origin → Members → Option Members) :
    List String → Origin → Members → Option Members
  | [], origin, members => f origin members
  | key :: path, _, members =>
    match Assoc.get? key members with
    | none => do
      let origin : Origin := if asDotted then .dotted else .implied
      let inner ← within asDotted f path origin []
      return Assoc.insert key (.table origin inner) members
    | some (.leaf _) => none
    | some (.table origin inner) =>
      if asDotted ∧ origin = .header then none
      else do
        let inner ← within asDotted f path origin inner
        return Assoc.insert key (.table origin inner) members
    | some (.tables elements) =>
      match elements.getLast? with
      | none => none
      | some last => do
        let last ← within asDotted f path .header last
        return Assoc.insert key (.tables (elements.dropLast ++ [last])) members

/-- Give a key a value, which it must not have yet. -/
def add (key : String) (v : Value) (members : Members) : Option Members :=
  if Assoc.contains key members then none else some (Assoc.insert key (.leaf v) members)

/-- Give a dotted key a value. Its last parent has to be a table of dotted keys. -/
def addDotted (parents : List String) (key : String) (v : Value) (members : Members) :
    Option Members :=
  within true (fun origin inner =>
    if parents.isEmpty ∨ origin = .dotted then add key v inner else none) parents .header members

/-- Begin a table with a header. It may have been implied by the header of another table before. -/
def beginTable (parents : List String) (key : String) (members : Members) : Option Members :=
  within false (fun _ inner =>
    match Assoc.get? key inner with
    | none => some (Assoc.insert key (.table .header []) inner)
    | some (.table .implied sub) => some (Assoc.insert key (.table .header sub) inner)
    | some _ => none) parents .header members

def beginElement (parents : List String) (key : String) (members : Members) : Option Members :=
  within false (fun _ inner =>
    match Assoc.get? key inner with
    | none => some (Assoc.insert key (.tables [[]]) inner)
    | some (.tables elements) => some (Assoc.insert key (.tables (elements ++ [[]])) inner)
    | some _ => none) parents .header members

end Members

end WorkflowGraph.Toml
