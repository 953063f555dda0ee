/- Decimal digits of natural numbers: writing them, reading them, and integers with a sign. -/

set_option autoImplicit false
set_option relaxedAutoImplicit false

namespace WorkflowGraph

namespace Digits

def digitChar (d : Nat) : Char := Char.ofNat (48 + d)

def isDigit (c : Char) : Bool := 48 ≤ c.toNat && c.toNat ≤ 57

def digitValue (c : Char) : Nat := c.toNat - 48

/-- The decimal digits of a natural number, the first one not zero unless it is the only one. -/
def ofNat (n : Nat) : List Char :=
  if n < 10 then [digitChar n] else ofNat (n / 10) ++ [digitChar (n % 10)]

def value (cs : List Char) : Nat := cs.foldl (fun acc c => 10 * acc + digitValue c) 0

def toNat? (cs : List Char) : Option Nat :=
  if !cs.isEmpty && cs.all isDigit then some (value cs) else none

def ofInt (i : Int) : List Char :=
  if i < 0 then '-' :: ofNat i.natAbs else ofNat i.natAbs

def toInt? : List Char → Option Int
  | '-' :: cs => (toNat? cs).map fun n => -(n : Int)
  | '+' :: cs => (toNat? cs).map fun n => (n : Int)
  | cs => (toNat? cs).map fun n => (n : Int)

def hexValue? (c : Char) : Option Nat :=
  if isDigit c then some (c.toNat - 48)
  else if 97 ≤ c.toNat ∧ c.toNat ≤ 102 then some (c.toNat - 87)
  else if 65 ≤ c.toNat ∧ c.toNat ≤ 70 then some (c.toNat - 55)
  else none

def hexChar (d : Nat) : Char := if d < 10 then digitChar d else Char.ofNat (87 + d)

def toNatBase? (base : Nat) (cs : List Char) : Option Nat :=
  if cs.isEmpty then none
  else cs.foldlM (fun acc c =>
    match hexValue? c with
    | some d => if d < base then some (base * acc + d) else none
    | none => none) 0

private theorem digitValue_digitChar {d : Nat} (h : d < 10) : digitValue (digitChar d) = d := by
  have : ∀ d, d < 10 → digitValue (digitChar d) = d := by decide
  exact this d h

private theorem isDigit_digitChar {d : Nat} (h : d < 10) : isDigit (digitChar d) = true := by
  have : ∀ d, d < 10 → isDigit (digitChar d) = true := by decide
  exact this d h

theorem value_append_singleton (cs : List Char) (c : Char) :
    value (cs ++ [c]) = 10 * value cs + digitValue c := by
  simp [value, List.foldl_append]

theorem value_ofNat (n : Nat) : value (ofNat n) = n := by
  induction n using Nat.strongRecOn with
  | ind n ih =>
    rw [ofNat]
    split
    · simp [value, digitValue_digitChar (by assumption)]
    · rw [value_append_singleton, ih (n / 10) (by omega), digitValue_digitChar (by omega)]
      omega

theorem isDigit_of_mem_ofNat {n : Nat} {c : Char} (h : c ∈ ofNat n) : isDigit c = true := by
  induction n using Nat.strongRecOn with
  | ind n ih =>
    rw [ofNat] at h
    split at h
    · rw [List.mem_singleton.1 h]
      exact isDigit_digitChar (by assumption)
    · rcases List.mem_append.1 h with hm | hm
      · exact ih (n / 10) (by omega) hm
      · rw [List.mem_singleton.1 hm]
        exact isDigit_digitChar (by omega)

theorem ofNat_ne_nil (n : Nat) : ofNat n ≠ [] := by
  rw [ofNat]
  split <;> simp

theorem toNat?_ofNat (n : Nat) : toNat? (ofNat n) = some n := by
  have hall : (ofNat n).all isDigit = true :=
    List.all_eq_true.2 fun _ h => isDigit_of_mem_ofNat h
  simp [toNat?, hall, value_ofNat, ofNat_ne_nil]

private theorem toInt?_of_isDigit {cs : List Char} (h : ∀ c ∈ cs, isDigit c = true) :
    toInt? cs = (toNat? cs).map fun n : Nat => (n : Int) := by
  unfold toInt?
  split
  · exact absurd (h '-' List.mem_cons_self) (by decide)
  · exact absurd (h '+' List.mem_cons_self) (by decide)
  · cases toNat? cs <;> rfl

theorem toInt?_ofInt (i : Int) : toInt? (ofInt i) = some i := by
  by_cases negative : i < 0
  · have size : -(i.natAbs : Int) = i := by omega
    have digits : toInt? (ofInt i) = some (-(i.natAbs : Int)) := by
      simp [ofInt, negative, toInt?, toNat?_ofNat]
    rw [digits, size]
  · have size : (i.natAbs : Int) = i := by omega
    have digits : toInt? (ofNat i.natAbs) = (toNat? (ofNat i.natAbs)).map fun n : Nat => (n : Int) :=
      toInt?_of_isDigit fun _ => isDigit_of_mem_ofNat
    rw [ofInt, if_neg negative, digits, toNat?_ofNat, Option.map_some, size]

end Digits

def natText (n : Nat) : String := String.ofList (Digits.ofNat n)

def intText (i : Int) : String := String.ofList (Digits.ofInt i)

def InInt64 (i : Int) : Prop := -9223372036854775808 ≤ i ∧ i < 9223372036854775808

instance (i : Int) : Decidable (InInt64 i) := inferInstanceAs (Decidable (_ ∧ _))

def InNat64 (i : Int) : Prop := 0 ≤ i ∧ i < 18446744073709551616

instance (i : Int) : Decidable (InNat64 i) := inferInstanceAs (Decidable (_ ∧ _))

/-- The signed 64-bit integer that a text spells, with an optional sign. -/
def int64OfText? (cs : List Char) : Option Int :=
  (Digits.toInt? cs).bind fun i => if InInt64 i then some i else none

/-- The unsigned 64-bit integer that a text spells, with an optional plus sign. -/
def nat64OfText? (cs : List Char) : Option Nat :=
  let digits := match cs with
    | '+' :: rest => rest
    | rest => rest
  (Digits.toNat? digits).bind fun n => if n < 18446744073709551616 then some n else none

theorem natText_injective {m n : Nat} (h : natText m = natText n) : m = n := by
  have digits : Digits.ofNat m = Digits.ofNat n := String.ofList_injective h
  have read := congrArg Digits.toNat? digits
  rw [Digits.toNat?_ofNat, Digits.toNat?_ofNat] at read
  exact Option.some.inj read

theorem nat64OfText?_ofNat {n : Nat} (h : n < 18446744073709551616) :
    nat64OfText? (Digits.ofNat n) = some n := by
  unfold nat64OfText?
  split
  · rename_i rest plus
    -- digits have no sign
    have sign : '+' ∈ Digits.ofNat n := plus ▸ List.mem_cons_self
    exact absurd (Digits.isDigit_of_mem_ofNat sign) (by decide)
  · simp only [Digits.toNat?_ofNat, Option.bind_some, if_pos h]

theorem lt_of_nat64OfText? {cs : List Char} {n : Nat} (h : nat64OfText? cs = some n) :
    n < 18446744073709551616 := by
  obtain ⟨m, -, hm⟩ := Option.bind_eq_some_iff.mp h
  split at hm
  · rename_i word
    exact Option.some.inj hm ▸ word
  · exact nomatch hm

end WorkflowGraph
