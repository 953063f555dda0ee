/- The JSON value of a YAML text. -/

import WorkflowGraph.Yaml.Core
import WorkflowGraph.Yaml.Node

set_option autoImplicit false
set_option relaxedAutoImplicit false

/-!
Aliases are replaced by the nodes that they stand for. The depth of nesting and the number of
replacements are limited, so that a short text cannot stand for an endless value.
-/

namespace WorkflowGraph.Yaml

def maxDepth : Nat := 128

/-- How many aliases may be replaced for each part of a document. -/
def aliasesPerPart : Nat := 100

mutual

/-- The number of parts of a node: one for a scalar or an alias, a beginning and an end for a
collection. -/
def Node.parts : Node → Nat
  | .alias _ => 1
  | .scalar _ _ => 1
  | .seq _ items => 2 + partsOfItems items
  | .map _ entries => 2 + partsOfEntries entries

def partsOfItems : List Node → Nat
  | [] => 0
  | n :: rest => n.parts + partsOfItems rest

def partsOfEntries : List (Node × Node) → Nat
  | [] => 0
  | (k, v) :: rest => k.parts + v.parts + partsOfEntries rest

end

/-- A function that uses up a budget, on every element of a list. -/
def mapSpending {α : Type} {β : Type} (f : α → Nat → Option (β × Nat)) :
    List α → Nat → Option (List β × Nat)
  | [], budget => some ([], budget)
  | x :: rest, budget => do
    let (y, budget) ← f x budget
    let (ys, budget) ← mapSpending f rest budget
    return (y :: ys, budget)

/-- The node that an alias stands for, at the price of one; any other node stands for itself. -/
def Node.follow (anchors : Anchors) (n : Node) (budget : Nat) : Option (Node × Nat) :=
  match n, budget with
  | .alias _, 0 => none
  | .alias slot, budget + 1 => (anchors.node? slot).map fun n => (n, budget)
  | n, budget => some (n, budget)

/-- The text of a key, which has to be a scalar. Tags of keys do not matter. -/
def Node.keyText (anchors : Anchors) (n : Node) (budget : Nat) : Option (String × Nat) := do
  match ← n.follow anchors budget with
  | (.scalar _ s, budget) => return (String.ofList s.text, budget)
  | _ => none

/-- The value of a node within a depth. A key that comes again keeps its place and takes the last
value. -/
def Node.value (anchors : Anchors) : Nat → Node → Nat → Option (Value × Nat)
  | 0, n, budget => do
    match ← n.follow anchors budget with
    | (.scalar tag s, budget) => return (← s.value? tag, budget)
    | _ => none
  | depth + 1, n, budget => do
    match ← n.follow anchors budget with
    | (.scalar tag s, budget) => return (← s.value? tag, budget)
    | (.seq tag items, budget) =>
      if isLocalTag tag then none
      else do
        let (vs, budget) ← mapSpending (Node.value anchors depth) items budget
        return (.arr vs, budget)
    | (.map tag entries, budget) =>
      if isLocalTag tag then none
      else do
        let (ps, budget) ← mapSpending (fun e budget => do
          let (k, budget) ← e.1.keyText anchors budget
          let (v, budget) ← Node.value anchors depth e.2 budget
          return ((k, v), budget)) entries budget
        return (.obj (Assoc.ofList ps), budget)
    | (.alias _, _) => none

/-- The value of a YAML text, if the text is a document that has one. -/
def parse? (s : String) : Option Value := do
  let ts ← tokens? s.toList
  let doc ← Node.ofTokens? ts
  let (v, _) ← doc.root.value doc.anchors maxDepth (aliasesPerPart * doc.root.parts)
  return v

end WorkflowGraph.Yaml
