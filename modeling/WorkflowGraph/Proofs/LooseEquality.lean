/- Loose equality: an equivalence that looks through the two spellings of a number, and the numbers
that it takes for one another. -/

import WorkflowGraph.Proofs.Conditions
import WorkflowGraph.Proofs.NearestDoubles
import WorkflowGraph.Proofs.StructuralEquality

set_option autoImplicit false
set_option relaxedAutoImplicit false

/-!
Values are loosely equal when they are equal with a number at the top replaced by the double nearest
to it, so loose equality inherits the laws of structural equality. Two numbers have the same double
when they are one number, and also when they are different numbers to which one double is nearest.
Since doubles are nearest to themselves, such a pair has an integer that no double is.
-/

namespace WorkflowGraph

namespace Number

variable {m n : Number}

/-- An integer that no double is; all of these lie beyond `2 ^ 53`. -/
def Unheld (n : Number) : Prop :=
  ∃ i fits, n = .int i fits ∧ 2 ^ 53 < i.natAbs ∧ ∀ d : Double, d.value ≠ i

def Conflated (m n : Number) : Prop :=
  m.value ≠ n.value ∧ ∃ d : Double, d.IsNearest m.value ∧ d.IsNearest n.value

private theorem value_toDouble_eq {d : Double} (held : d.value = n.value) :
    n.toDouble.value = n.value := by
  have own := held ▸ d.isNearest_value
  exact (n.isNearest_toDouble.unique own).trans held

private theorem unheld_iff : n.Unheld ↔ n.toDouble.value ≠ n.value := by
  constructor
  · rintro ⟨i, fits, rfl, -, none⟩
    exact none _
  · intro moved
    cases n with
    | double d => exact absurd rfl moved
    | int i fits =>
      refine ⟨i, fits, rfl, ?_, fun d held => moved (value_toDouble_eq held)⟩
      by_contra small
      exact moved (Double.value_ofInt (not_lt.mp small))

private theorem Conflated.unheld (h : m.Conflated n) : m.Unheld ∨ n.Unheld := by
  obtain ⟨different, d, nearM, nearN⟩ := h
  rw [unheld_iff, unheld_iff]
  by_contra held
  rw [not_or, not_not, not_not] at held
  have left := nearM.unique m.isNearest_toDouble
  have right := nearN.unique n.isNearest_toDouble
  exact different (held.1.symm.trans (left.symm.trans (right.trans held.2)))

private theorem Unheld.conflated (h : m.Unheld) : m.Conflated (.double m.toDouble) :=
  ⟨(unheld_iff.mp h).symm, m.toDouble, m.isNearest_toDouble, m.toDouble.isNearest_value⟩

def twoPow53 : Number := .int 9007199254740992 (by decide)

def twoPow53Succ : Number := .int 9007199254740993 (by decide)

private theorem unheld_twoPow53Succ : twoPow53Succ.Unheld := by
  have units : twoPow53Succ.toDouble.units = 9007199254740992 * Double.one := by decide +kernel
  have moved : twoPow53Succ.toDouble.value = 9007199254740992 := by
    rw [Double.value_eq_div, units, Int.cast_mul, mul_div_cancel_right₀ _ Double.cast_one_pos.ne']
    norm_num
  rw [unheld_iff, moved]
  norm_num [twoPow53Succ, value]

end Number

namespace Value

/-- The value with a number at the top replaced by the double nearest to it. -/
def rounded : Value → Value
  | .num n => .num (.double n.toDouble)
  | v => v

private theorem distinct_rounded {v : Value} (h : v.Distinct) : v.rounded.Distinct := by
  cases v with
  | num n => trivial
  | _ => exact h

private theorem looseEq_eq_same (v w : Value) : v.looseEq w = v.rounded.same w.rounded := by
  cases v <;> cases w <;> rfl

variable {u v w : Value}

private theorem looseEq_iff (hv : v.Distinct) (hw : w.Distinct) :
    v.looseEq w = true ↔ Equals v.rounded w.rounded := by
  rw [looseEq_eq_same, same_iff_equals (distinct_rounded hv) (distinct_rounded hw)]

private theorem looseEq_refl (hv : v.Distinct) : v.looseEq v = true :=
  (looseEq_iff hv hv).mpr (.refl _)

private theorem looseEq_symm (hv : v.Distinct) (hw : w.Distinct) (h : v.looseEq w = true) :
    w.looseEq v = true :=
  (looseEq_iff hw hv).mpr ((looseEq_iff hv hw).mp h).symm

private theorem looseEq_trans (hu : u.Distinct) (hv : v.Distinct) (hw : w.Distinct)
    (huv : u.looseEq v = true) (hvw : v.looseEq w = true) : u.looseEq w = true :=
  (looseEq_iff hu hw).mpr (((looseEq_iff hu hv).mp huv).trans ((looseEq_iff hv hw).mp hvw))

private theorem equals_rounded_iff (other : (v.isNumber && w.isNumber) = false) :
    Equals v.rounded w.rounded ↔ Equals v w := by
  cases v with
  | num m =>
    cases w with
    | num n => simp [isNumber] at other
    | _ => exact iff_of_false (by rintro ⟨⟩) (by rintro ⟨⟩)
  | _ =>
    cases w with
    | num n => exact iff_of_false (by rintro ⟨⟩) (by rintro ⟨⟩)
    | _ => exact Iff.rfl

private theorem num_looseEq_num_iff {m n : Number} : (num m).looseEq (num n) = true ↔
    ∃ d : Double, d.IsNearest m.value ∧ d.IsNearest n.value := by
  have doubles : (num m).looseEq (num n) = true ↔ m.toDouble.value = n.toDouble.value :=
    Double.equal_iff
  rw [doubles]
  constructor
  · intro same
    exact ⟨m.toDouble, m.isNearest_toDouble, n.isNearest_toDouble.of_value_eq same.symm⟩
  · rintro ⟨d, nearM, nearN⟩
    exact (m.isNearest_toDouble.unique nearM).trans (nearN.unique n.isNearest_toDouble)

/-- Loose equality is an equivalence on values with distinct keys, and structural equality unless two
numbers are compared. It tells two numbers apart exactly when they are different numbers, unless one
double is nearest to both of them. One of them is an integer that no double is then, and every such
integer is loosely equal to another number. -/
theorem looseEq_by_nearest_double (hu : u.Distinct) (hv : v.Distinct) (hw : w.Distinct)
    (m n : Number) :
    (u.looseEq u = true ∧ (u.looseEq v = true → v.looseEq u = true) ∧
        (u.looseEq v = true → v.looseEq w = true → u.looseEq w = true)) ∧
      ((u.isNumber && v.isNumber) = false → (u.looseEq v = true ↔ Equals u v)) ∧
      (((num m).looseEq (num n) = true ↔ m.value = n.value) ↔ ¬ m.Conflated n) ∧
      (m.Conflated n → m.Unheld ∨ n.Unheld) ∧
      (m.Unheld → m.Conflated (.double m.toDouble)) := by
  refine ⟨⟨looseEq_refl hu, looseEq_symm hu hv, looseEq_trans hu hv hw⟩, fun other => ?_, ?_,
    Number.Conflated.unheld, Number.Unheld.conflated⟩
  · rw [looseEq_iff hu hv, equals_rounded_iff other]
  · rw [num_looseEq_num_iff]
    constructor
    · rintro told ⟨different, common⟩
      exact different (told.mp common)
    · intro apart
      constructor
      · intro common
        by_contra different
        exact apart ⟨different, common⟩
      · intro same
        exact ⟨m.toDouble, m.isNearest_toDouble, same ▸ m.isNearest_toDouble⟩

def frame : Value := .obj [("width", .ofNat 512), ("height", .ofNat 768)]

def heightFirst : Value := .obj [("height", .ofNat 768), ("width", .ofNat 512)]

/-- A frame is equal to itself in another order, and an integer that no double is counts as the
double that it becomes. -/
theorem frame_equal_in_any_order :
    frame.Distinct ∧ heightFirst.Distinct ∧ (frame.isNumber && heightFirst.isNumber) = false ∧
      frame.looseEq heightFirst = true ∧ heightFirst.looseEq frame = true ∧
      Equals frame heightFirst ∧ Number.twoPow53Succ.Unheld ∧
      Number.twoPow53Succ.Conflated (.double Number.twoPow53Succ.toDouble) := by
  have width := (within_ofNat 0 512).distinct
  have height := (within_ofNat 0 768).distinct
  have upright : frame.Distinct := ⟨by decide, width, height, trivial⟩
  have flipped : heightFirst.Distinct := ⟨by decide, height, width, trivial⟩
  have equal : frame.looseEq heightFirst = true := by decide +kernel
  have unheld := Number.unheld_twoPow53Succ
  obtain ⟨⟨-, symm, -⟩, structural, -, -, conflated⟩ := looseEq_by_nearest_double upright flipped
    upright .twoPow53Succ .twoPow53
  exact ⟨upright, flipped, rfl, equal, symm equal, (structural rfl).mp equal, unheld,
    conflated unheld⟩

end Value

namespace Config

variable {c : Config} {f : Field} {d : Dependency} {flat flat' : Object} {v w : Value}

private theorem dependencyMet_eq_of_looseEq (depends : f.dependsOn? = some d)
    (gate : c.gateValue? flat d.field = some v) (gate' : c.gateValue? flat' d.field = some w)
    (hv : v.Distinct) (hw : w.Distinct) (hd : d.value.Distinct) (equal : v.looseEq w = true) :
    c.dependencyMet f flat = c.dependencyMet f flat' := by
  simp only [dependencyMet, depends, gate, gate']
  rw [Bool.eq_iff_iff]
  constructor
  · exact Value.looseEq_trans hw hv hd (Value.looseEq_symm hv hw equal)
  · exact Value.looseEq_trans hv hw hd equal

def seedShare : Field := { fullBlend with dependsOn? := some ⟨"seed", .num .twoPow53⟩ }

def seeded : Config := { blending with inputs := [bareField "seed" .seed, seedShare] }

private theorem seeded_accepted : seeded.validate = .ok () := by
  rw [validate_eq_ok_iff, ← List.isEmpty_iff]
  decide +kernel

/-- Two different integers are loosely equal, so the share applies to a seed that its condition does
not name. -/
theorem next_integer_conflated :
    (Value.num .twoPow53Succ).looseEq (.num .twoPow53) = true ∧
      Number.twoPow53Succ.value ≠ Number.twoPow53.value ∧
      seeded.validate = .ok () ∧ seedShare ∈ seeded.inputs ∧
      seeded.dependencyMet seedShare [("seed", .num .twoPow53Succ)] = true := by
  have equal : (Value.num .twoPow53Succ).looseEq (.num .twoPow53) = true := by decide +kernel
  have different : Number.twoPow53Succ.value ≠ Number.twoPow53.value := by
    norm_num [Number.twoPow53Succ, Number.twoPow53, Number.value]
  have named : seeded.dependencyMet seedShare [("seed", .num .twoPow53)] = true :=
    Value.looseEq_refl (v := .num .twoPow53) trivial
  have applies : seeded.dependencyMet seedShare [("seed", .num .twoPow53Succ)] = true := by
    rw [← named]
    exact dependencyMet_eq_of_looseEq (v := .num .twoPow53Succ) (w := .num .twoPow53)
      (d := ⟨"seed", .num .twoPow53⟩) rfl rfl rfl trivial trivial trivial equal
  exact ⟨equal, different, seeded_accepted, List.mem_of_getLast? rfl, applies⟩

end Config

end WorkflowGraph
