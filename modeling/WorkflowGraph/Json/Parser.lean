/- Reading a JSON text into a value, with containers in progress on a stack. -/

import WorkflowGraph.Json.Token

set_option autoImplicit false
set_option relaxedAutoImplicit false

/-!
The reading is a fold over the tokens, so it is total without a bound on the work. The stack holds
the containers that are open; its length is the depth of nesting, which is limited.
-/

namespace WorkflowGraph.Json

def maxDepth : Nat := 127

/-- A container in progress: items in reverse, or members and the key whose value comes next. -/
inductive Frame where
  | arr (items : List Value)
  | obj (members : Object) (key : String)

inductive Expect where
  | value
  | valueOrClose
  | key
  | keyOrClose
  | colon
  | separator

inductive State where
  | reading (next : Expect) (stack : List Frame)
  | done (v : Value)

/-- A complete value goes to the innermost open container, or is the result. A repeated key keeps
its first place and takes the last value. -/
def deliver (v : Value) : List Frame → State
  | [] => .done v
  | .arr items :: stack => .reading .separator (.arr (v :: items) :: stack)
  | .obj members key :: stack =>
    .reading .separator (.obj (Assoc.insert key v members) key :: stack)

def openFrame (f : Frame) (next : Expect) (stack : List Frame) : Option State :=
  if stack.length < maxDepth then some (.reading next (f :: stack)) else none

def beginValue (stack : List Frame) : Token → Option State
  | .scalar v => some (deliver v stack)
  | .openArr => openFrame (.arr []) .valueOrClose stack
  | .openObj => openFrame (.obj [] "") .keyOrClose stack
  | _ => none

def takeKey (stack : List Frame) : Token → Option State
  | .scalar (.str k) =>
    match stack with
    | .obj members _ :: rest => some (.reading .colon (.obj members k :: rest))
    | _ => none
  | _ => none

def step (s : State) (t : Token) : Option State :=
  match s with
  | .done _ => none
  | .reading next stack =>
    match next, t with
    | .valueOrClose, .closeArr =>
      match stack with
      | .arr items :: rest => some (deliver (.arr items.reverse) rest)
      | _ => none
    | .value, t => beginValue stack t
    | .valueOrClose, t => beginValue stack t
    | .keyOrClose, .closeObj =>
      match stack with
      | .obj members _ :: rest => some (deliver (.obj members) rest)
      | _ => none
    | .key, t => takeKey stack t
    | .keyOrClose, t => takeKey stack t
    | .colon, .colon => some (.reading .value stack)
    | .separator, .comma =>
      match stack with
      | .arr _ :: _ => some (.reading .value stack)
      | .obj _ _ :: _ => some (.reading .key stack)
      | [] => none
    | .separator, .closeArr =>
      match stack with
      | .arr items :: rest => some (deliver (.arr items.reverse) rest)
      | _ => none
    | .separator, .closeObj =>
      match stack with
      | .obj members _ :: rest => some (deliver (.obj members) rest)
      | _ => none
    | _, _ => none

def run : State → List Token → Option State
  | s, [] => some s
  | s, t :: ts =>
    match step s t with
    | none => none
    | some s => run s ts

def ofTokens? (ts : List Token) : Option Value :=
  match run (.reading .value []) ts with
  | some (.done v) => some v
  | _ => none

def parse? (s : String) : Option Value := (tokens? s.toList).bind ofTokens?

theorem run_append (s : State) (a b : List Token) : run s (a ++ b) = (run s a).bind (run · b) := by
  induction a generalizing s with
  | nil => rfl
  | cons t ts ih =>
    simp only [List.cons_append, run]
    cases step s t with
    | none => rfl
    | some s => exact ih s

end WorkflowGraph.Json
