/- Random seeds drawn from a stream of 64-bit words. -/

set_option autoImplicit false
set_option relaxedAutoImplicit false

/-!
A seed is the upper part of a word. To make all seeds below the bound equally likely by the product
of a word with that bound, words whose product leaves a remainder in the upper half are passed over;
that is, words with bit 32 set.
-/

namespace WorkflowGraph

/-- A stream of words: those still to come, after which zeros follow for ever, and how many have
been taken. -/
structure Words where
  coming : List UInt64
  taken : Nat

namespace Words

def seedBound : Nat := 2147483648

/-- Whether a word gives a seed: bit 32 is clear. -/
def usable (w : UInt64) : Bool := w.toNat / 4294967296 % 2 == 0

def seedOf (w : UInt64) : Nat := w.toNat / 8589934592

/-- The seed of the first usable word, the words after it, and how many were taken. -/
def drawFrom : List UInt64 → Nat × List UInt64 × Nat
  | [] => (0, [], 1)
  | w :: rest =>
    if usable w then (seedOf w, rest, 1)
    else
      let (seed, rest, taken) := drawFrom rest
      (seed, rest, taken + 1)

def draw (ws : Words) : Nat × Words :=
  let (seed, rest, taken) := drawFrom ws.coming
  (seed, ⟨rest, ws.taken + taken⟩)

private theorem drawFrom_fst_lt (ws : List UInt64) : (drawFrom ws).1 < seedBound := by
  induction ws with
  | nil => simp [drawFrom, seedBound]
  | cons w rest ih =>
    simp only [drawFrom]
    split
    · have h := w.toNat_lt
      simp only [seedOf, seedBound]
      omega
    · exact ih

theorem draw_fst_lt (ws : Words) : ws.draw.1 < seedBound := drawFrom_fst_lt ws.coming

end Words

end WorkflowGraph
