/- The tree of nodes that the tokens of a YAML text spell, with its anchors. -/

import WorkflowGraph.Assoc
import WorkflowGraph.Yaml.Token

set_option autoImplicit false
set_option relaxedAutoImplicit false

/-!
A node is an alias, a scalar, a sequence or a list of pairs. An anchor gets a slot when its node
begins; the slot is the number of names known until then, and a slot that is taken again refers to
the later node. A text holds one document at most.
-/

namespace WorkflowGraph.Yaml

/-- A node with its tag in full, if it has one. -/
inductive Node where
  | alias (slot : Nat)
  | scalar (tag : Option (List Char)) (s : Scalar)
  | seq (tag : Option (List Char)) (items : List Node)
  | map (tag : Option (List Char)) (entries : List (Node × Node))

structure Anchors where
  /-- The slot of each name. -/
  names : List (List Char × Nat)
  /-- The node of each slot, by the order of anchored nodes. -/
  slots : List (Nat × Nat)
  /-- The number of anchored nodes begun. -/
  begun : Nat
  /-- The anchored nodes that are complete, by their order. -/
  nodes : List (Nat × Node)

namespace Anchors

def none : Anchors := ⟨[], [], 0, []⟩

def declare (a : Anchors) (name : List Char) : Anchors :=
  { a with
    names := Assoc.insert name a.names.length a.names
    slots := Assoc.insert a.names.length a.begun a.slots
    begun := a.begun + 1 }

def complete (a : Anchors) (order : Nat) (n : Node) : Anchors :=
  { a with nodes := (order, n) :: a.nodes }

def node? (a : Anchors) (slot : Nat) : Option Node :=
  (Assoc.get? slot a.slots).bind fun order => Assoc.get? order a.nodes

end Anchors

namespace Node

structure State where
  ahead : List Token
  anchors : Anchors
  handles : Tag.Handles

abbrev Reading := StateT State Option

def ahead : Reading (List Token) := do return (← get).ahead

def goOn (rest : List Token) : Reading Unit := modify fun s => { s with ahead := rest }

def empty (tag : Option (List Char)) : Node := .scalar tag ⟨true, []⟩

def resolveTag (t : Tag.Written) : Reading (List Char) := do
  match t.resolve (← get).handles with
  | some tag => return tag
  | none => failure

def properties : Reading (Option (List Char) × Option (List Char)) := do
  match ← ahead with
  | .anchor a :: .tag t :: rest => goOn rest; return (some a, some (← resolveTag t))
  | .tag t :: .anchor a :: rest => goOn rest; return (some a, some (← resolveTag t))
  | .anchor a :: rest => goOn rest; return (some a, none)
  | .tag t :: rest => goOn rest; return (none, some (← resolveTag t))
  | _ => return (none, none)

def declare (name : List Char) : Reading Nat := do
  let order := (← get).anchors.begun
  modify fun s => { s with anchors := s.anchors.declare name }
  return order

def slotOf (name : List Char) : Reading Nat := do
  match Assoc.get? name (← get).anchors.names with
  | some slot => return slot
  | none => failure

def endsPart : List Token → Bool
  | .key :: _ => true
  | .value :: _ => true
  | .closeBlock :: _ => true
  | _ => false

/-- Whether the next token ends an entry of a sequence without brackets of its own. -/
def endsEntry : List Token → Bool
  | .blockEntry :: _ => true
  | ts => endsPart ts

def endsItem : List Token → Bool
  | .blockEntry :: _ => true
  | .closeBlock :: _ => true
  | _ => false

def endsFlowItem : List Token → Bool
  | .flowEntry :: _ => true
  | .closeFlowSeq :: _ => true
  | _ => false

def endsFlowValue : List Token → Bool
  | .flowEntry :: _ => true
  | .closeFlowMap :: _ => true
  | _ => false

def isValue : List Token → Bool
  | .value :: _ => true
  | _ => false

def comma (first : Bool) : Reading Unit := do
  if first then return
  match ← ahead with
  | .flowEntry :: rest => goOn rest
  | _ => failure

/-- An exclamation mark alone says that a scalar is read without regard to tags. -/
def scalarTag (tag : Option (List Char)) : Option (List Char) := tag.filter fun t => t ≠ ['!']

mutual

/-- One node. Blocks may begin only where they are allowed, and the value of a pair may be a
sequence that is not indented. -/
def node (block indentless : Bool) : Nat → Reading Node
  | 0 => failure
  | fuel + 1 => do
    match ← ahead with
    | .alias name :: rest =>
      goOn rest
      return .alias (← slotOf name)
    | _ =>
      let (anchor, tag) ← properties
      match anchor with
      | none => content block indentless tag tag.isSome fuel
      | some name =>
        let order ← declare name
        let n ← content block indentless tag true fuel
        modify fun s => { s with anchors := s.anchors.complete order n }
        return n

/-- What follows the properties of a node; nothing may follow if there are any. -/
def content (block indentless : Bool) (tag : Option (List Char)) (mayBeEmpty : Bool) :
    Nat → Reading Node
  | 0 => failure
  | fuel + 1 => do
    match ← ahead with
    | .scalar s :: rest => goOn rest; return .scalar (scalarTag tag) s
    | .openFlowSeq :: rest => goOn rest; return .seq tag (← flowItems true fuel)
    | .openFlowMap :: rest => goOn rest; return .map tag (← flowPairs true fuel)
    | ts =>
      match block, indentless, ts with
      | _, true, .blockEntry :: _ => return .seq tag (← indentlessItems fuel)
      | true, _, .openBlockSeq :: rest => goOn rest; return .seq tag (← blockItems fuel)
      | true, _, .openBlockMap :: rest => goOn rest; return .map tag (← blockPairs fuel)
      | _, _, _ => if mayBeEmpty then return empty tag else failure

def blockItems : Nat → Reading (List Node)
  | 0 => failure
  | fuel + 1 => do
    match ← ahead with
    | .blockEntry :: rest =>
      goOn rest
      let item ← if endsItem rest then pure (empty none) else node true false fuel
      return item :: (← blockItems fuel)
    | .closeBlock :: rest => goOn rest; return []
    | _ => failure

def indentlessItems : Nat → Reading (List Node)
  | 0 => failure
  | fuel + 1 => do
    match ← ahead with
    | .blockEntry :: rest =>
      goOn rest
      let item ← if endsEntry rest then pure (empty none) else node true false fuel
      return item :: (← indentlessItems fuel)
    | _ => return []

def blockPairs : Nat → Reading (List (Node × Node))
  | 0 => failure
  | fuel + 1 => do
    match ← ahead with
    | .key :: rest =>
      goOn rest
      let key ← if endsPart rest then pure (empty none) else node true true fuel
      let value ← blockValue fuel
      return (key, value) :: (← blockPairs fuel)
    | .closeBlock :: rest => goOn rest; return []
    | _ => failure

/-- The value of a pair of a block; it may be missing. -/
def blockValue : Nat → Reading Node
  | 0 => failure
  | fuel + 1 => do
    match ← ahead with
    | .value :: rest =>
      goOn rest
      if endsPart rest then return empty none else node true true fuel
    | _ => return empty none

/-- The items of a flow sequence. An item may be a single pair. -/
def flowItems (first : Bool) : Nat → Reading (List Node)
  | 0 => failure
  | fuel + 1 => do
    match ← ahead with
    | .closeFlowSeq :: rest => goOn rest; return []
    | _ =>
      comma first
      match ← ahead with
      | .closeFlowSeq :: rest => goOn rest; return []
      | .key :: rest =>
        goOn rest
        let key ←
          if isValue rest || endsFlowItem rest then do goOn (rest.drop 1); pure (empty none)
          else node false false fuel
        let value ← flowValue endsFlowItem fuel
        return .map none [(key, value)] :: (← flowItems false fuel)
      | _ =>
        let item ← node false false fuel
        return item :: (← flowItems false fuel)

/-- The pairs of a flow mapping. A key may stand alone. -/
def flowPairs (first : Bool) : Nat → Reading (List (Node × Node))
  | 0 => failure
  | fuel + 1 => do
    match ← ahead with
    | .closeFlowMap :: rest => goOn rest; return []
    | _ =>
      comma first
      match ← ahead with
      | .closeFlowMap :: rest => goOn rest; return []
      | .key :: rest =>
        goOn rest
        let key ←
          if isValue rest || endsFlowValue rest then pure (empty none)
          else node false false fuel
        let value ← flowValue endsFlowValue fuel
        return (key, value) :: (← flowPairs false fuel)
      | _ =>
        let key ← node false false fuel
        return (key, empty none) :: (← flowPairs false fuel)

/-- The value of a pair in a flow collection; it may be missing. -/
def flowValue (ends : List Token → Bool) : Nat → Reading Node
  | 0 => failure
  | fuel + 1 => do
    match ← ahead with
    | .value :: rest =>
      goOn rest
      if ends rest then return empty none else node false false fuel
    | _ => return empty none

end

/-- The handles that directives define, before those that need no directive. The version may be
given once, and a handle may be defined once. -/
def handles : List Directive → Option Tag.Handles
  | [] => some Tag.coreHandles
  | .version major minor :: rest =>
    let again := rest.any fun
      | .version _ _ => true
      | .tag _ _ => false
    if again || major ≠ 1 || (minor ≠ 1 && minor ≠ 2) then none else handles rest
  | .tag h start :: rest =>
    let again := rest.any fun
      | .version _ _ => false
      | .tag h' _ => h = h'
    if again then none else (handles rest).map ((h, start) :: ·)

def takeDirectives : List Token → List Directive × List Token
  | .directive d :: rest =>
    let (ds, rest) := takeDirectives rest
    (d :: ds, rest)
  | rest => ([], rest)

/-- Whether nothing stands between the start of a document and the next mark. -/
def isVoid : List Token → Bool
  | [] => true
  | .directive _ :: _ => true
  | .documentStart :: _ => true
  | .documentEnd :: _ => true
  | _ => false

def isOver : List Token → Bool
  | [] => true
  | .documentEnd :: rest => isOver rest
  | _ => false

/-- A document: its root and its anchors. -/
structure Document where
  root : Node
  anchors : Anchors

def root (hs : Tag.Handles) (ts : List Token) : Option Document :=
  match (node true false (4 * ts.length + 8)).run ⟨ts, .none, hs⟩ with
  | some (n, s) => if isOver s.ahead then some ⟨n, s.anchors⟩ else none
  | none => none

/-- The document that tokens spell. No tokens spell a document without a node, which is as an empty
one. -/
def ofTokens? (ts : List Token) : Option Document :=
  match ts with
  | [] => some ⟨empty none, .none⟩
  | _ =>
    match takeDirectives ts with
    | (ds, .documentStart :: rest) => do
      let hs ← handles ds
      if isVoid rest then
        if isOver rest then some ⟨empty none, .none⟩ else none
      else root hs rest
    | ([], rest) => root Tag.coreHandles rest
    | _ => none

end Node

end WorkflowGraph.Yaml
