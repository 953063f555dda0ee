/- Caches by name and lifetime, as lists of entries. -/

import WorkflowGraph.Json.Value

set_option autoImplicit false
set_option relaxedAutoImplicit false

/-!
Entries stay until they are removed: the passing of time and a limit on their number are not part of
the model. A cache with a lifetime of zero holds nothing, so that every look-up goes to the source.
-/

namespace WorkflowGraph

/-- A cache with a name and the lifetime of its entries in seconds. -/
structure Cache (κ : Type) (ν : Type) where
  name : String
  lifetime : Nat
  entries : List (κ × ν)

/-- What can be told of a cache from outside. -/
structure CacheStats where
  name : String
  lifetime : Nat
  count : Nat
deriving DecidableEq

namespace CacheStats

def toValue (s : CacheStats) : Value :=
  .obj [("name", .str s.name), ("ttl_secs", .ofNat s.lifetime), ("entry_count", .ofNat s.count)]

end CacheStats

namespace Cache

variable {κ : Type} {ν : Type}

def empty (name : String) (lifetime : Nat) : Cache κ ν := ⟨name, lifetime, []⟩

def enabled (c : Cache κ ν) : Bool := c.lifetime != 0

def clear (c : Cache κ ν) : Cache κ ν := { c with entries := [] }

def stats (c : Cache κ ν) : CacheStats := ⟨c.name, c.lifetime, c.entries.length⟩

variable [DecidableEq κ]

def get? (c : Cache κ ν) (k : κ) : Option ν := Assoc.get? k c.entries

def insert (c : Cache κ ν) (k : κ) (v : ν) : Cache κ ν :=
  if c.enabled then { c with entries := Assoc.insert k v c.entries } else c

def erase (c : Cache κ ν) (k : κ) : Cache κ ν := { c with entries := Assoc.erase k c.entries }

/-- The entry under a key, or else an outcome, which becomes the entry if it is a success. -/
def getOrInsert {ε : Type} (c : Cache κ ν) (k : κ) (init : Except ε ν) :
    Except ε ν × Cache κ ν :=
  match c.get? k, init with
  | some v, _ => (.ok v, c)
  | none, .ok v => (.ok v, c.insert k v)
  | none, .error e => (.error e, c)

theorem get?_insert_self {c : Cache κ ν} (h : c.enabled = true) (k : κ) (v : ν) :
    (c.insert k v).get? k = some v := by
  simp only [insert, h, if_true, get?]
  exact Assoc.get?_insert_self k v c.entries

end Cache

end WorkflowGraph
