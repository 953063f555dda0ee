/- What forgetting one config leaves behind of it. -/

import WorkflowGraph.Proofs.Coherence
import WorkflowGraph.Proofs.Recognition

set_option autoImplicit false
set_option relaxedAutoImplicit false

/-!
A file is cached under every id that it was loaded by. Forgetting an id removes the entry of this id
and all lists. Once the store has another config, an entry under another id is the only place that
the old one can still come from: it is loaded by that id, and listed for a file of that id.
-/

namespace WorkflowGraph

theorem ne_empty_of_configId? {p : Path} {id : String} (h : p.configId? = some id) : id ≠ "" := by
  obtain ⟨name, -, carried⟩ := Option.bind_eq_some_iff.mp h
  exact (eq_configFileName_of_fileId? carried).1

private theorem ne_empty_of_mem_fileIds {paths : List Path} {id : String}
    (h : id ∈ Store.fileIds paths) : id ≠ "" := by
  obtain ⟨p, -, recognised⟩ := List.mem_filterMap.mp (mem_appendNew h)
  exact ne_empty_of_configId? recognised

namespace Store

def Lacks (s : Store) (dir : Path) (c : Config) : Prop := ∀ id, s.config dir id ≠ .ok c

def blank (p : Path) : Store := ofFiles [(p, "")] [] []

private theorem lacks_blank (p dir : Path) (c : Config) : (blank p).Lacks dir c := by
  intro id loaded
  obtain ⟨q, place, holds⟩ := config_eq_ok_iff.mp loaded
  have there : (blank p).holds q = true := List.find?_some place
  obtain rfl : q = p := by simpa [blank, ofFiles, Assoc.contains, Assoc.get?] using there
  have read : (blank q).text q = .ok "" := by
    simp [Store.text, blank, ofFiles, Assoc.get?]
  rw [held, read] at holds
  cases holds

private theorem list_blank (dir : Path) (name : String) :
    (blank (dir.child name)).list dir = .ok [dir.child name] := by
  simp [blank, ofFiles, Assoc.keys, Path.parent?_child]

end Store

namespace Loader

variable {s : Store} {l l' l'' : Loader} {id : String} {c : Config}

/-- In the directory of configs a loader has a config under no ids but those that an earlier loader
has it under, one id apart, and it lists the config only if one of these can be that of a file. -/
structure Remains (l : Loader) (id : String) (c : Config) (l' : Loader) : Prop where
  configsDir_eq : l'.configsDir = l.configsDir
  cached : ∀ k, l'.configs.get? (l.configsDir, k) = some c →
    k ≠ id ∧ l.configs.get? (l.configsDir, k) = some c
  listed : ∀ found, l'.discovered.get? l.configsDir = some found → c ∈ found →
    ∃ k, k ≠ "" ∧ k ≠ id ∧ l.configs.get? (l.configsDir, k) = some c

private theorem Remains.offered (h : Remains l id c l') (lacks : s.Lacks l.configsDir c)
    {k : String} (offered : l'.Offers s l.configsDir k c) :
    k ≠ id ∧ l.configs.get? (l.configsDir, k) = some c :=
  h.cached k (offered.resolve_right (lacks k))

private theorem Remains.gathered (h : Remains l id c l') (lacks : s.Lacks l.configsDir c)
    {found : List Config} (gathered : Gathered s l' l'' l.configsDir found) (hc : c ∈ found) :
    ∃ k, k ≠ "" ∧ k ≠ id ∧ l.configs.get? (l.configsDir, k) = some c := by
  obtain ⟨paths, -, all⟩ := gathered
  obtain ⟨k, hk, offered, -⟩ := all c hc
  exact ⟨k, ne_empty_of_mem_fileIds hk, h.offered lacks offered⟩

private theorem remains_invalidateConfig (l : Loader) (id : String) (c : Config) :
    Remains l id c (l.invalidateConfig id) := by
  refine ⟨rfl, fun k there => ?_, fun found there => nomatch there⟩
  have kept : Assoc.get? (l.configsDir, k) (Assoc.erase (l.configsDir, id) l.configs.entries) =
      some c := there
  by_cases same : k = id
  · subst same
    exact nomatch (Assoc.get?_erase_self _ _).symm.trans kept
  · have other : (l.configsDir, k) ≠ (l.configsDir, id) := fun h => same (Prod.mk.inj h).2
    exact ⟨same, (Assoc.get?_erase_of_ne other _).symm.trans kept⟩

private theorem Remains.perform (maxLoras : Nat) (h : Remains l id c l')
    (lacks : s.Lacks l.configsDir c) (op : Operation) :
    Remains l id c (l'.perform maxLoras s op).2 := by
  cases keeps : op.forgets with
  | false =>
    have grows := grows_perform maxLoras s l' keeps
    refine ⟨grows.configsDir_eq.trans h.configsDir_eq, fun k there => ?_, fun found there hc => ?_⟩
    · exact h.offered lacks (grows.config_new there)
    · rcases grows.list_new there with old | gathered
      · exact h.listed found old hc
      · exact h.gathered lacks gathered hc
  | true =>
    cases op with
    | invalidate | shutdown =>
      exact ⟨h.configsDir_eq, fun _ there => (nomatch there), fun _ there => (nomatch there)⟩
    | invalidateConfig id' =>
      refine ⟨h.configsDir_eq, fun k there => h.cached k ?_, fun _ there _ => nomatch there⟩
      have fewer := remains_invalidateConfig l' id' c
      rw [← h.configsDir_eq] at there ⊢
      exact (fewer.cached k there).2
    | load | loadFrom | template | discover | discoverIn | listWorkflows | parameters | validate
      | generate => exact nomatch keeps

private theorem Remains.after (maxLoras : Nat) {later : List (Store × Operation)}
    (lacks : ∀ step ∈ later, step.1.Lacks l.configsDir c) (h : Remains l id c l') :
    Remains l id c (l'.after maxLoras later) := by
  induction later generalizing l' with
  | nil => exact h
  | cons step later ih =>
    refine ih (fun step' h => lacks step' (List.mem_cons_of_mem step h)) ?_
    exact h.perform maxLoras (lacks step List.mem_cons_self) step.2

private theorem discover_one {paths : List Path} (absent : l.discovered.get? l.configsDir = none)
    (listed : s.list l.configsDir = .ok paths) (ids : Store.fileIds paths = [id])
    (cached : l.configs.get? (l.configsDir, id) = some c) : (l.discover s).1 = .ok [c] := by
  have loaded : l.countListing.loadFrom s l.configsDir id = (.ok c, l.countListing) := by
    have there : l.countListing.configs.get? (l.configsDir, id) = some c := cached
    rw [loadFrom, there]
  have gathered : [id].foldl (collect s l.configsDir) ([], l.countListing) =
      ([c], l.countListing) := by
    rw [List.foldl_cons, List.foldl_nil, collect, loaded]
    rfl
  have scanned : l.scan s l.configsDir = (.ok [c], l.countListing) := by
    rw [scan, listed]
    dsimp only
    rw [ids, gathered, List.mergeSort_singleton]
  rw [discover, discoverIn, absent, scanned]

/-- After an id was forgotten, over stores that have a config no more, the config is still loaded by
exactly the other ids that it was cached under, and it is still listed exactly if one of these can
be the id of a file. -/
theorem stale_iff (maxLoras : Nat) (l : Loader) (id : String) (c : Config) :
    (∀ id', (∃ later s, (∀ step ∈ later, step.1.Lacks l.configsDir c) ∧ s.Lacks l.configsDir c ∧
        (((l.invalidateConfig id).after maxLoras later).load s id').1 = .ok c) ↔
      id' ≠ id ∧ l.configs.get? (l.configsDir, id') = some c) ∧
    ((∃ later s found, (∀ step ∈ later, step.1.Lacks l.configsDir c) ∧ s.Lacks l.configsDir c ∧
        (((l.invalidateConfig id).after maxLoras later).discover s).1 = .ok found ∧ c ∈ found) ↔
      ∃ id', id' ≠ "" ∧ id' ≠ id ∧ l.configs.get? (l.configsDir, id') = some c) := by
  have start := remains_invalidateConfig l id c
  -- an entry under another id is there when the id was forgotten
  have kept : ∀ id', id' ≠ id → l.configs.get? (l.configsDir, id') = some c →
      (l.invalidateConfig id).configs.get? (l.configsDir, id') = some c := by
    intro id' other cached
    have key : (l.configsDir, id') ≠ (l.configsDir, id) := fun h => other (Prod.mk.inj h).2
    exact (Assoc.get?_erase_of_ne key _).trans cached
  refine ⟨fun id' => ⟨?_, ?_⟩, ?_, ?_⟩
  · rintro ⟨later, s, lacks, last, loaded⟩
    have remains := start.after maxLoras lacks
    rw [load, remains.configsDir_eq] at loaded
    exact remains.offered last ((grows_loadFrom s _ _ _).2 c loaded).1
  · rintro ⟨other, cached⟩
    have blank := Store.lacks_blank l.configsDir l.configsDir c
    refine ⟨[], Store.blank l.configsDir, by simp, blank, ?_⟩
    have there := kept id' other cached
    change ((l.invalidateConfig id).loadFrom _ l.configsDir id').1 = _
    rw [loadFrom, there]
  · rintro ⟨later, s, found, lacks, last, listed, hc⟩
    have remains := start.after maxLoras lacks
    rw [discover, remains.configsDir_eq] at listed
    rcases (grows_discoverIn s _ _).2 found listed with old | gathered
    · exact remains.listed found old hc
    · exact remains.gathered last gathered hc
  · rintro ⟨id', named, other, cached⟩
    let p := l.configsDir.child (configFileName id' "json")
    have recognised : p.configId? = some id' := configId?_child named (by decide) _
    have ids : Store.fileIds [p] = [id'] := by
      simp [Store.fileIds, recognised, appendNew]
    have there := kept id' other cached
    refine ⟨[], Store.blank p, [c], by simp, Store.lacks_blank p _ c, ?_, List.mem_cons_self⟩
    exact discover_one rfl (Store.list_blank _ _) ids there

/-- A workflow is listed by the id of its file and loaded by another id. After a change of the file
and the forgetting of the second id, the first one still loads and lists the old config. -/
theorem alias_not_refreshed :
    let old := shelfStore "a_b" "category: before\n"
    let new := shelfStore "a_b" "category: after\n"
    let l := shelfLoader.after 5 [(old, .discover), (old, .load "a-b")]
    let refreshed := l.invalidateConfig "a-b"
    old.configFile? shelf "a-b" = some (fileOn "a_b") ∧
      new.configFile? shelf "a_b" = some (fileOn "a_b") ∧
      (refreshed.load new "a-b").1.toOption.map Config.category = some "after" ∧
      (refreshed.load new "a_b").1.toOption.map Config.category = some "before" ∧
      (refreshed.discover new).1.toOption.map (List.map Config.category) = some ["before"] := by
  decide +kernel

end Loader

end WorkflowGraph
