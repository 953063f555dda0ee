/- What a list of workflows holds: which configs of a directory, and in which order. -/

import Mathlib.Data.Prod.Lex
import Mathlib.Data.String.Basic
import WorkflowGraph.Proofs.Aliases
import WorkflowGraph.Proofs.Staleness

set_option autoImplicit false
set_option relaxedAutoImplicit false

/-!
A list is collected file by file, and a config whose id was collected before is left out. So the ids
in a list are distinct, and the order by name and id has no ties. Whatever is collected has been
loaded by the id of some file, and a config that can be loaded by such an id is collected itself, or
one of the same id was before it.
-/

namespace WorkflowGraph

def Config.rank (c : Config) : String ×ₗ String := toLex (c.name, c.id)

namespace Loader

private theorem listedBefore_iff {a b : Config} : listedBefore a b = true ↔ a.rank ≤ b.rank := by
  rw [Config.rank, Config.rank, Prod.Lex.toLex_le_toLex]
  simp [listedBefore]

private theorem pairwise_mergeSort_listedBefore (found : List Config) :
    (found.mergeSort listedBefore).Pairwise fun a b => a.rank ≤ b.rank := by
  have trans (a b c : Config) (first : listedBefore a b = true) (second : listedBefore b c = true) :
      listedBefore a c = true := by
    rw [listedBefore_iff] at *
    exact first.trans second
  have total (a b : Config) : (listedBefore a b || listedBefore b a) = true := by
    rw [Bool.or_eq_true, listedBefore_iff, listedBefore_iff]
    exact le_total _ _
  exact (List.pairwise_mergeSort trans total found).imp listedBefore_iff.mp

private theorem pairwise_rank_lt {found : List Config} (nodup : (found.map Config.id).Nodup) :
    (found.mergeSort listedBefore).Pairwise fun a b => a.rank < b.rank := by
  have distinct : ((found.mergeSort listedBefore).map Config.id).Nodup :=
    ((List.mergeSort_perm found listedBefore).map Config.id).nodup_iff.mpr nodup
  have both := (pairwise_mergeSort_listedBefore found).and (List.pairwise_map.mp distinct)
  refine both.imp fun {a b} h => lt_of_le_of_ne h.1 fun same => h.2 ?_
  exact congrArg (fun rank => (ofLex rank).2) same

private theorem nodup_addConfig {found : List Config} (h : (found.map Config.id).Nodup)
    (c : Config) :
    ((addConfig found c).map Config.id).Nodup := by
  unfold addConfig
  split
  · exact h
  · next new =>
    rw [List.map_append, List.nodup_append]
    refine ⟨h, by simp, ?_⟩
    intro id hid id' hid' same
    obtain rfl : id' = c.id := by simpa using hid'
    obtain ⟨d, hd, rfl⟩ := List.mem_map.mp hid
    exact new (List.any_eq_true.mpr ⟨d, hd, by simpa using same⟩)

end Loader

namespace Store

variable {s : Store} {dir : Path}

private theorem nodup_collect {found : List Config} (h : (found.map Config.id).Nodup)
    (ids : List String) : ((ids.foldl (s.collect dir) found).map Config.id).Nodup := by
  induction ids generalizing found with
  | nil => exact h
  | cons id ids ih =>
    apply ih
    unfold collect
    split
    · exact Loader.nodup_addConfig h _
    · exact h

private theorem sound_of_config {id : String} {c : Config} (loaded : s.config dir id = .ok c) :
    c.id ≠ "" ∧ c.validate = .ok () := by
  obtain ⟨p, place, holds⟩ := config_eq_ok_iff.mp loaded
  obtain ⟨n, named, -⟩ := configId?_of_configFile? place
  obtain ⟨-, -, -, accepted⟩ := held_eq_ok_iff.mp holds
  refine ⟨?_, accepted⟩
  rcases id_of_held named holds with own | ⟨set, -⟩
  · rw [own]
    exact ne_empty_of_configId? named
  · exact set

private theorem mem_fileIds_iff {paths : List Path} {k : String} :
    k ∈ fileIds paths ↔ ∃ p ∈ paths, p.configId? = some k := by
  constructor
  · intro h
    exact List.mem_filterMap.mp (mem_appendNew h)
  · rintro ⟨p, hp, recognised⟩
    exact mem_fileIds hp recognised

end Store

namespace Loader

/-- Over a store that does not change, a list of workflows is strictly increasing by name and id,
its ids are distinct and not empty, and all configs in it are accepted. Each of them is what some
file id of the listing loads, and what any file id of the listing loads is there by its id. -/
theorem discovered_exactly {s : Store} {configsDir templatesDir dir : Path} {l l' : Loader}
    {found : List Config} (before : Faithful s configsDir templatesDir l)
    (listed : (l.discoverIn s dir).1 = .ok found) (after : Faithful s configsDir templatesDir l') :
    ∃ paths, s.list dir = .ok paths ∧
      found.Pairwise (fun a b => a.rank < b.rank) ∧
      (found.map Config.id).Nodup ∧
      (∀ c ∈ found, c.id ≠ "" ∧ c.validate = .ok () ∧
        ∃ p ∈ paths, ∃ k, p.configId? = some k ∧ (l'.loadFrom s dir k).1 = .ok c) ∧
      ∀ p ∈ paths, ∀ k, p.configId? = some k → ∀ c, (l'.loadFrom s dir k).1 = .ok c →
        ∃ d ∈ found, d.id = c.id := by
  have given : ∀ k, (l'.loadFrom s dir k).1 = s.config dir k :=
    fun k => (gives_loadFrom dir k l' after).1
  rw [(gives_discoverIn dir l before).1] at listed
  unfold Store.discover at listed
  cases paths : s.list dir with
  | error fault =>
    rw [paths] at listed
    exact nomatch listed
  | ok paths' =>
    rw [paths] at listed
    obtain rfl := Except.ok.inj listed
    have empty : (([] : List Config).map Config.id).Nodup := List.nodup_nil
    have nodup : (((Store.fileIds paths').foldl (s.collect dir) []).map Config.id).Nodup :=
      Store.nodup_collect empty _
    have perm := List.mergeSort_perm ((Store.fileIds paths').foldl (s.collect dir) [])
      listedBefore
    refine ⟨paths', rfl, pairwise_rank_lt nodup, (perm.map Config.id).nodup_iff.mpr nodup, ?_, ?_⟩
    · intro c hc
      obtain ⟨k, hk, loaded⟩ :=
        (Store.exists_of_mem_collect (perm.mem_iff.mp hc)).resolve_left List.not_mem_nil
      obtain ⟨p, hp, recognised⟩ := Store.mem_fileIds_iff.mp hk
      obtain ⟨named, accepted⟩ := Store.sound_of_config loaded
      exact ⟨named, accepted, p, hp, k, recognised, (given k).trans loaded⟩
    · intro p hp k recognised c loaded
      rw [given] at loaded
      have hk : k ∈ Store.fileIds paths' := Store.mem_fileIds_iff.mpr ⟨p, hp, recognised⟩
      obtain ⟨d, hd, same⟩ := Store.exists_id_collect hk loaded []
      exact ⟨d, perm.mem_iff.mpr hd, same⟩

def mixedStore : Store where
  holds p := p ∈ [fileOn "alpha", fileOn "broken", fileOn "zeta"]
  read p := .ok (if p = fileOn "broken" then "name: only\n" else
    "name: Demo\nworkflow_file: demo.json\ninputs: []\n")
  list _ := .ok [fileOn "zeta", fileOn "broken", fileOn "alpha"]

theorem mixed_store_discovered : ∃ found, (shelfLoader.discoverIn mixedStore shelf).1 = .ok found ∧
    found.Pairwise (fun a b => a.rank < b.rank) ∧ (∃ c ∈ found, c.id = "alpha") ∧
    (∃ c ∈ found, c.id = "zeta") ∧ ∀ c ∈ found, c.validate = .ok () := by
  have faithful : Faithful mixedStore shelf shelf shelfLoader := faithful_fresh _ _ _ _
  obtain ⟨found, listed⟩ : ∃ found, mixedStore.discover shelf = .ok found := ⟨_, rfl⟩
  rw [← (gives_discoverIn shelf shelfLoader faithful).1] at listed
  obtain ⟨paths, files, increasing, -, sound, complete⟩ :=
    discovered_exactly faithful listed faithful
  obtain rfl : [fileOn "zeta", fileOn "broken", fileOn "alpha"] = paths := Except.ok.inj files
  have kept : ∀ k, fileOn k ∈ [fileOn "zeta", fileOn "broken", fileOn "alpha"] →
      (fileOn k).configId? = some k →
      (shelfLoader.loadFrom mixedStore shelf k).1.toOption.map Config.id = some k →
      ∃ d ∈ found, d.id = k := by
    intro k hk recognised own
    cases loaded : (shelfLoader.loadFrom mixedStore shelf k).1 with
    | error e =>
      rw [loaded] at own
      exact nomatch own
    | ok c =>
      rw [loaded] at own
      obtain ⟨d, hd, same⟩ := complete _ hk k recognised c loaded
      exact ⟨d, hd, same.trans (Option.some.inj own)⟩
  refine ⟨found, listed, increasing, kept "alpha" (by simp) (by decide +kernel) (by decide +kernel),
    kept "zeta" (by simp) (by decide +kernel) (by decide +kernel), fun c hc => (sound c hc).2.1⟩

end Loader

end WorkflowGraph
