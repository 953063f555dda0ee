/- Parameters put over inputs that come in sections. -/

import WorkflowGraph.Inputs.Parameters
import WorkflowGraph.Proofs.Leaves

set_option autoImplicit false
set_option relaxedAutoImplicit false

/-!
Parameters are put over the inputs before sections are opened, and a parameter whose key the inputs
have at the top takes the place of that member. What stands behind the place is visited later, so a
section there that has a leaf of the same name has the last word. A parameter with a new key goes
to the end, where nothing comes after it.
-/

namespace WorkflowGraph

/-- A value that is no object, so that no flattening opens it. -/
def Value.Closed (v : Value) : Prop := ∀ members, v ≠ .obj members

private theorem Value.Closed.keptWhole {v : Value} (h : v.Closed) (shapeOf : String → Option Shape)
    (key : String) : KeptWhole shapeOf key v :=
  fun members is => absurd is (h members)

def untouched (params base : Object) : Object := base.filter fun p => p.1 ∉ Assoc.keys params

/-- The members behind the place that a key has at the top. -/
def membersBehind (k : String) (base : Object) : Object := (base.dropWhile fun p => p.1 ≠ k).tail

private theorem untouched_cons_of_mem {q : String × Value} {params : Object}
    (h : q.1 ∈ Assoc.keys params) (base : Object) :
    untouched params (q :: base) = untouched params base :=
  List.filter_cons_of_neg (by simpa using h)

private theorem untouched_cons_of_not_mem {q : String × Value} {params : Object}
    (h : q.1 ∉ Assoc.keys params) (base : Object) :
    untouched params (q :: base) = q :: untouched params base :=
  List.filter_cons_of_pos (by simpa using h)

private theorem untouched_filter_ne {key : String} {base : Object} (h : key ∉ Assoc.keys base)
    (params : Object) :
    untouched (params.filter fun p => p.1 ≠ key) base = untouched params base := by
  apply List.filter_congr
  intro p hp
  have other : p.1 ≠ key := fun is => h (is ▸ List.mem_map_of_mem hp)
  have kept : p.1 ∈ Assoc.keys (params.filter fun p => p.1 ≠ key) ↔ p.1 ∈ Assoc.keys params := by
    rw [← Assoc.contains_iff_mem_keys, ← Assoc.contains_iff_mem_keys, Assoc.contains,
      Assoc.get?_filter (fun key' => key' ≠ key), if_pos (by simpa using other), Assoc.contains]
  rw [decide_eq_decide, kept]

/-- Parameters as they are put over inputs: each key once, and no value that flattening opens. -/
structure Overlay (params : Object) : Prop where
  nodup : (Assoc.keys params).Nodup
  closed : ∀ p ∈ params, p.2.Closed

section

variable {shapeOf : String → Option Shape} {base params : Object} {k : String} {v : Value}

namespace Overlay

private theorem filter (h : Overlay params) (keep : String × Value → Bool) :
    Overlay (params.filter keep) where
  nodup := Assoc.nodup_keys_filter h.nodup keep
  closed p hp := h.closed p (List.mem_filter.mp hp).1

private theorem get?_reverse (h : Overlay params) (k : String) :
    Assoc.get? k params.reverse = Assoc.get? k params :=
  (Assoc.get?_perm (List.reverse_perm params).symm h.nodup k).symm

private theorem leavesOf (h : Overlay params) (given : Assoc.get? k params = some v) :
    leavesOf shapeOf k v = [(k, v)] :=
  leavesOf_of_keptWhole ((h.closed _ (Assoc.mem_of_get? given)).keptWhole shapeOf k)

private theorem leaves_insertAll_nil (h : Overlay params) :
    leaves shapeOf (Assoc.insertAll [] params) = params := by
  have all : Assoc.insertAll [] params = params := Assoc.ofList_of_nodup h.nodup
  rw [all]
  exact leaves_of_keptWhole fun p hp => (h.closed p hp).keptWhole shapeOf p.1

private theorem get?_leaves_of_not_mem (h : Overlay params) (nodup : (Assoc.keys base).Nodup)
    (other : k ∉ Assoc.keys params) :
    Assoc.get? k (leaves shapeOf (Assoc.insertAll base params)).reverse =
      Assoc.get? k (leaves shapeOf (untouched params base)).reverse := by
  induction base generalizing params with
  | nil =>
    rw [h.leaves_insertAll_nil, h.get?_reverse, (Assoc.get?_eq_none_iff k _).mpr other]
    rfl
  | cons q base ih =>
    obtain ⟨fresh, nodup⟩ := List.nodup_cons.mp nodup
    have rest := ih (h.filter fun p => p.1 ≠ q.1) nodup
      fun hk => other ((List.filter_sublist.map Prod.fst).subset hk)
    rw [untouched_filter_ne fresh] at rest
    rw [Assoc.insertAll_cons, leaves_cons, List.reverse_append, Assoc.get?_append, rest,
      h.get?_reverse]
    cases given : Assoc.get? q.1 params with
    | some w =>
      have known : q.1 ∈ Assoc.keys params :=
        List.mem_map.mpr ⟨_, Assoc.mem_of_get? given, rfl⟩
      have ne : k ≠ q.1 := fun is => other (is ▸ known)
      have missed : Assoc.get? k [(q.1, w)] = none := by
        rw [Assoc.get?_cons_of_ne (p := (q.1, w)) ne, Assoc.get?_nil]
      rw [untouched_cons_of_mem known, Option.getD_some, h.leavesOf given, List.reverse_singleton,
        missed, Option.or_none]
    | none =>
      have new : q.1 ∉ Assoc.keys params := (Assoc.get?_eq_none_iff _ _).mp given
      rw [untouched_cons_of_not_mem new, Option.getD_none, leaves_cons, List.reverse_append,
        Assoc.get?_append]

/-- A parameter has the last word on its key except where an untouched member behind the place of
the key has a leaf of that name. -/
theorem get?_leaves (h : Overlay params) (nodup : (Assoc.keys base).Nodup)
    (given : Assoc.get? k params = some v) :
    Assoc.get? k (leaves shapeOf (Assoc.insertAll base params)).reverse =
      some ((Assoc.get? k
        (leaves shapeOf (untouched params (membersBehind k base))).reverse).getD v) := by
  induction base generalizing params with
  | nil =>
    rw [h.leaves_insertAll_nil, h.get?_reverse, given]
    rfl
  | cons q base ih =>
    obtain ⟨fresh, nodup⟩ := List.nodup_cons.mp nodup
    rw [Assoc.insertAll_cons, leaves_cons, List.reverse_append, Assoc.get?_append]
    by_cases own : q.1 = k
    · -- The parameter stands here, and all other parameters have other keys.
      subst own
      have other : q.1 ∉ Assoc.keys (params.filter fun p => p.1 ≠ q.1) := by
        simp [Assoc.keys]
      have behind : membersBehind q.1 (q :: base) = base := by simp [membersBehind]
      rw [(h.filter _).get?_leaves_of_not_mem nodup other, untouched_filter_ne fresh, behind,
        h.get?_reverse, given, Option.getD_some, h.leavesOf given]
      cases Assoc.get? q.1 (leaves shapeOf (untouched params base)).reverse with
      | none => simp [Assoc.get?_cons_self]
      | some w => rfl
    · -- The parameter stands further behind, so what stands here has no say.
      have kept : Assoc.get? k (params.filter fun p => p.1 ≠ q.1) = some v := by
        rw [Assoc.get?_filter (fun key => key ≠ q.1), if_pos (by simpa using Ne.symm own), given]
      have behind : membersBehind k (q :: base) = membersBehind k base := by
        simp [membersBehind, own]
      have unseen : q.1 ∉ Assoc.keys (membersBehind k base) := by
        intro hq
        have sub : (membersBehind k base).Sublist base :=
          (List.tail_sublist _).trans (List.dropWhile_sublist _)
        exact fresh ((sub.map Prod.fst).subset hq)
      rw [ih (h.filter _) nodup kept, untouched_filter_ne unseen, behind]
      rfl

end Overlay

end

private theorem overlay_parseParameters {ps : List (String × String)}
    (closed : ∀ p ∈ ps, (parameterValue p.2).Closed) : Overlay (parseParameters ps) where
  nodup := Assoc.nodup_keys_ofList _
  closed p hp := by
    obtain ⟨q, hq, rfl⟩ := List.mem_map.mp (Assoc.mem_ofList hp)
    exact closed q hq

private theorem get?_parseParameters {earlier later : List (String × String)} {k text : String}
    (last : k ∉ Assoc.keys later) :
    Assoc.get? k (parseParameters (earlier ++ (k, text) :: later)) =
      some (parameterValue text) := by
  have others : k ∉ Assoc.keys (later.map fun p => (p.1, parameterValue p.2)).reverse := by
    rw [Assoc.keys_reverse, List.mem_reverse, Assoc.keys, List.map_map]
    exact last
  rw [parseParameters, List.map_append, List.map_cons, Assoc.get?_ofList_append_cons,
    (Assoc.get?_eq_none_iff k _).mpr others]
  rfl

/-- The members that are visited after the place of a key and that no parameter replaces. -/
def visitedLater (k : String) (params base : Object) : Object :=
  untouched params (membersBehind k base)

variable {base : Object} {ps earlier later : List (String × String)} {k text : String}

/-- The last of the parameters with one key has the last word on it, unless a member that is visited
later has a leaf of that name. -/
theorem parameter_wins_iff (nodup : (Assoc.keys base).Nodup)
    (closed : ∀ p ∈ ps, (parameterValue p.2).Closed) (split : ps = earlier ++ (k, text) :: later)
    (last : k ∉ Assoc.keys later) :
    Assoc.get? k (flatten (mergeParameters base (parseParameters ps))) =
        some ((Assoc.get? k (flatten (visitedLater k (parseParameters ps) base))).getD
          (parameterValue text)) ∧
      (Assoc.get? k (flatten (mergeParameters base (parseParameters ps))) =
          some (parameterValue text) ↔
        ∀ w, Assoc.get? k (flatten (visitedLater k (parseParameters ps) base)) = some w →
          w = parameterValue text) := by
  have given : Assoc.get? k (parseParameters ps) = some (parameterValue text) := by
    rw [split, get?_parseParameters last]
  have merged : Assoc.get? k (flatten (mergeParameters base (parseParameters ps))) =
      some ((Assoc.get? k (flatten (visitedLater k (parseParameters ps) base))).getD
        (parameterValue text)) := by
    rw [flatten, flatten, get?_flattenDeclared, get?_flattenDeclared]
    exact (overlay_parseParameters closed).get?_leaves nodup given
  refine ⟨merged, ?_⟩
  rw [merged, Option.some_inj]
  cases Assoc.get? k (flatten (visitedLater k (parseParameters ps) base)) with
  | none => simp
  | some w => exact ⟨fun h w' hw => Option.some_inj.mp hw ▸ h, fun h => h w rfl⟩

/-- A guidance at the top and another one in a section behind it. -/
def guidances : Object := [("cfg", .ofNat 1), ("sampling", .obj [("cfg", .ofNat 2)])]

def guidance : List (String × String) := [("cfg", "7"), ("steps", "8"), ("cfg", "3")]

private theorem closed_guidance : ∀ p ∈ guidance, (parameterValue p.2).Closed := by
  intro p hp members
  simp only [guidance, List.mem_cons, List.not_mem_nil, or_false] at hp
  obtain rfl | rfl | rfl := hp <;> exact Value.noConfusion

/-- With the section first, the parameter wins over both. -/
theorem guidance_wins :
    Assoc.get? "cfg" (flatten (mergeParameters guidances.reverse (parseParameters guidance))) =
      some (parameterValue "3") := by
  have nodup : (Assoc.keys guidances.reverse).Nodup := by decide
  have split : guidance = [("cfg", "7"), ("steps", "8")] ++ ("cfg", "3") :: [] := rfl
  have nothing : visitedLater "cfg" (parseParameters guidance) guidances.reverse = [] := rfl
  refine (parameter_wins_iff nodup closed_guidance split List.not_mem_nil).2.mpr fun w hw => ?_
  rw [nothing] at hw
  cases hw

/-- With the section last, its value replaces that of the parameter. -/
theorem guidance_lost :
    (∀ p ∈ guidance, (parameterValue p.2).Closed) ∧ parameterValue "3" = .ofNat 3 ∧
      Assoc.get? "cfg" (flatten (mergeParameters guidances (parseParameters guidance))) =
        some (.ofNat 2) :=
  ⟨closed_guidance, rfl, rfl⟩

end WorkflowGraph
