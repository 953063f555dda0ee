/- Searching, splitting and replacing in texts, over their characters. -/

set_option autoImplicit false
set_option relaxedAutoImplicit false

namespace WorkflowGraph.Text

/-- What stands after a first part, if the characters begin with that part. -/
def dropFirst? : List Char → List Char → Option (List Char)
  | [], cs => some cs
  | p :: ps, c :: cs => if p = c then dropFirst? ps cs else none
  | _ :: _, [] => none

def startsWith (part cs : List Char) : Bool := (dropFirst? part cs).isSome

def after? (part : List Char) : List Char → Option (List Char)
  | [] => dropFirst? part []
  | c :: cs =>
    match dropFirst? part (c :: cs) with
    | some rest => some rest
    | none => after? part cs

def occurs (part cs : List Char) : Bool := (after? part cs).isSome

/-- What stands before a last part, if the characters end with that part. -/
def dropLast? (part cs : List Char) : Option (List Char) :=
  (dropFirst? part.reverse cs.reverse).map List.reverse

def cut? (sep : Char) (cs : List Char) : Option (List Char × List Char) :=
  match cs.dropWhile (· != sep) with
  | [] => none
  | _ :: rest => some (cs.takeWhile (· != sep), rest)

def splitOn (sep : Char) : List Char → List (List Char)
  | [] => [[]]
  | c :: cs =>
    if c = sep then [] :: splitOn sep cs
    else match splitOn sep cs with
      | [] => [[c]]
      | first :: more => (c :: first) :: more

def replaceChar (old new : Char) (s : String) : String :=
  String.ofList (s.toList.map fun c => if c = old then new else c)

def join (sep : String) : List String → String
  | [] => ""
  | [s] => s
  | s :: rest => s ++ sep ++ join sep rest

/-- A text filled up with spaces to at least a number of characters. -/
def padRight (width : Nat) (s : String) : String :=
  s ++ String.ofList (List.replicate (width - s.length) ' ')

theorem dropFirst?_append (part rest : List Char) : dropFirst? part (part ++ rest) = some rest := by
  induction part with
  | nil => rfl
  | cons p ps ih => simp [dropFirst?, ih]

theorem eq_append_of_dropFirst? {part cs rest : List Char} (h : dropFirst? part cs = some rest) :
    cs = part ++ rest := by
  induction part generalizing cs with
  | nil => simpa [dropFirst?] using h
  | cons p ps ih =>
    cases cs with
    | nil => simp [dropFirst?] at h
    | cons c cs =>
      by_cases hp : p = c
      · rw [hp]
        simp only [dropFirst?, hp, if_true] at h
        rw [List.cons_append, ← ih h]
      · simp [dropFirst?, hp] at h

end WorkflowGraph.Text
