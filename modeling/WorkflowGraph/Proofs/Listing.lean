/- Lists of workflows: where a listed config comes from, and when its id opens it again. -/

import WorkflowGraph.Proofs.Caching
import WorkflowGraph.Proofs.FileNames

set_option autoImplicit false
set_option relaxedAutoImplicit false

/-!
A list is made of the files of a directory, a config is opened by the name of its file. A document
without an id of its own has the one in the name of its file, and then both agree. A document that
sets another id is listed under that id, but it is found only if the file of that id holds the same
config.
-/

namespace WorkflowGraph

namespace Store

/-- The config that a file holds. Without an id of its own it has the one in the file name. -/
def held (s : Store) (p : Path) : Except Error Config := (s.text p).bind (configOfText p "")

theorem config_eq_held {s : Store} {dir : Path} {id : String} {p : Path}
    (found : s.configFile? dir id = some p) : s.config dir id = s.held p := by
  obtain ⟨n, named, -⟩ := configId?_of_configFile? found
  have same : configOfText p id = configOfText p "" := by
    funext text
    simp only [configOfText, named, Option.getD_some]
  rw [config, found, held]
  simp only [same]

def SetsId (s : Store) (p : Path) (id : String) : Prop :=
  id ≠ "" ∧ ∃ text d, s.text p = .ok text ∧ Config.parse text (Notation.ofPath p) = .ok d ∧ d.id = id

private theorem exists_of_configOfText {p : Path} {id text : String} {c : Config}
    (h : configOfText p id text = .ok c) :
    ∃ d, Config.parse text (Notation.ofPath p) = .ok d ∧
      c = if d.id = "" then { d with id := p.configId?.getD id } else d := by
  unfold configOfText at h
  split at h
  · exact nomatch h
  · next d parsed =>
    dsimp only at h
    split at h
    · exact nomatch h
    · exact ⟨d, parsed, (Except.ok.inj h).symm⟩

theorem id_of_held {s : Store} {p : Path} {n : String} {c : Config}
    (named : p.configId? = some n) (holds : s.held p = .ok c) : c.id = n ∨ s.SetsId p c.id := by
  rw [held] at holds
  cases read : s.text p with
  | error e =>
    rw [read] at holds
    exact nomatch holds
  | ok text =>
    rw [read] at holds
    obtain ⟨d, parsed, rfl⟩ := exists_of_configOfText holds
    by_cases unset : d.id = ""
    · left
      rw [if_pos unset, named, Option.getD_some]
    · right
      rw [if_neg unset]
      exact ⟨unset, text, d, read, parsed, rfl⟩

theorem config_eq_ok_iff {s : Store} {dir : Path} {id : String} {c : Config} :
    s.config dir id = .ok c ↔ ∃ p, s.configFile? dir id = some p ∧ s.held p = .ok c := by
  constructor
  · intro loaded
    cases found : s.configFile? dir id with
    | none =>
      rw [config, found] at loaded
      exact nomatch loaded
    | some p => exact ⟨p, rfl, (config_eq_held found).symm.trans loaded⟩
  · rintro ⟨p, found, holds⟩
    exact (config_eq_held found).trans holds

theorem mem_addConfig {found : List Config} {c d : Config} (h : d ∈ Loader.addConfig found c) :
    d ∈ found ∨ d = c := by
  unfold Loader.addConfig at h
  split at h
  · exact Or.inl h
  · simpa using h

theorem exists_of_mem_collect {s : Store} {dir : Path} {ids : List String} {found : List Config}
    {c : Config} (h : c ∈ ids.foldl (s.collect dir) found) :
    c ∈ found ∨ ∃ id ∈ ids, s.config dir id = .ok c := by
  induction ids generalizing found with
  | nil => exact Or.inl h
  | cons id ids ih =>
    rcases ih h with h | ⟨id', hid', loaded⟩
    · rw [collect] at h
      cases outcome : s.config dir id with
      | error e =>
        rw [outcome] at h
        exact Or.inl h
      | ok d =>
        rw [outcome] at h
        rcases mem_addConfig h with h | rfl
        · exact Or.inl h
        · exact Or.inr ⟨id, List.mem_cons_self, outcome⟩
    · exact Or.inr ⟨id', List.mem_cons_of_mem id hid', loaded⟩

private theorem exists_of_mem_discover {s : Store} {dir : Path} {found : List Config} {c : Config}
    (listed : s.discover dir = .ok found) (hc : c ∈ found) : ∃ id, s.config dir id = .ok c := by
  unfold discover at listed
  cases paths : s.list dir with
  | error fault =>
    rw [paths] at listed
    exact nomatch listed
  | ok paths' =>
    rw [paths] at listed
    obtain rfl := Except.ok.inj listed
    rcases exists_of_mem_collect (List.mem_mergeSort.mp hc) with none | ⟨id, -, loaded⟩
    · exact absurd none List.not_mem_nil
    · exact ⟨id, loaded⟩

end Store

namespace Loader

/-- A listed config comes from a file, and the id in the name of that file opens it. Its own id is
this one unless the document sets another, and opens it exactly when the file found for it holds the
same config. Operations between listing and opening make no difference. -/
theorem opens_listed_iff {s : Store} {configsDir templatesDir : Path} {l l' : Loader}
    {found : List Config} {c : Config} (before : Faithful s configsDir templatesDir l)
    (listed : (l.discover s).1 = .ok found) (hc : c ∈ found)
    (after : Faithful s configsDir templatesDir l') :
    ∃ n p, p.configId? = some n ∧ s.configFile? configsDir n = some p ∧
      (l'.load s n).1 = .ok c ∧ (c.id = n ∨ s.SetsId p c.id) ∧
      ((l'.load s c.id).1 = .ok c ↔
        ∃ q, s.configFile? configsDir c.id = some q ∧ s.held q = .ok c) := by
  have given : ∀ id, (l'.load s id).1 = s.config configsDir id :=
    fun id => (gives_load id l' after).1
  have listed' : s.discover configsDir = .ok found := (gives_discover l before).1.symm.trans listed
  obtain ⟨id, loaded⟩ := Store.exists_of_mem_discover listed' hc
  obtain ⟨p, place, holds⟩ := Store.config_eq_ok_iff.mp loaded
  obtain ⟨n, named, again⟩ := Store.configId?_of_configFile? place
  have opened : s.config configsDir n = .ok c := Store.config_eq_ok_iff.mpr ⟨p, again, holds⟩
  refine ⟨n, p, named, again, (given n).trans opened, Store.id_of_held named holds, ?_⟩
  rw [given]
  exact Store.config_eq_ok_iff

private theorem exists_listed {r : Except Error (List Config)} {id : String}
    (ids : r.toOption.map (List.map Config.id) = some [id]) : ∃ c, r = .ok [c] ∧ c.id = id := by
  cases r with
  | error e => exact nomatch ids
  | ok found =>
    have ids' : found.map Config.id = [id] := Option.some.inj ids
    cases found with
    | nil => exact nomatch ids'
    | cons c rest =>
      obtain ⟨rfl, last⟩ := List.cons.inj ids'
      obtain rfl := List.map_eq_nil_iff.mp last
      exact ⟨c, rfl, rfl⟩

def shelf : Path := ⟨true, ["configs"]⟩

def fileOn (id : String) : Path := shelf.child (configFileName id "yaml")

/-- A store with the file of one id, which holds a short config after some lines. -/
def shelfStore (id lines : String) : Store :=
  Store.ofFiles [(fileOn id, lines ++ "name: Demo\nworkflow_file: demo.json\ninputs: []\n")] [] []

def shelfLoader : Loader := fresh shelf shelf ⟨300, 300, 300⟩

theorem unnamed_opens : ∃ c, (shelfLoader.discover (shelfStore "demo" "")).1 = .ok [c] ∧
    c.id = "demo" ∧ (shelfLoader.load (shelfStore "demo" "") "demo").1 = .ok c := by
  have ids : ((shelfLoader.discover (shelfStore "demo" "")).1.toOption.map (List.map Config.id)) =
      some ["demo"] := by decide +kernel
  obtain ⟨c, listed, named⟩ := exists_listed ids
  have faithful : Faithful (shelfStore "demo" "") shelf shelf shelfLoader :=
    faithful_fresh _ _ _ _
  obtain ⟨n, p, carried, place, opened, -, -⟩ :=
    opens_listed_iff faithful listed List.mem_cons_self faithful
  have there : (shelfStore "demo" "").holds p = true := List.find?_some place
  have file : p = fileOn "demo" :=
    List.mem_singleton.mp ((Assoc.contains_iff_mem_keys p _).mp there)
  have onFile : (fileOn "demo").configId? = some "demo" := by decide +kernel
  obtain rfl : n = "demo" := Option.some.inj (carried.symm.trans (file ▸ onFile))
  exact ⟨c, listed, named, opened⟩

/-- The file of the id `a` sets the id `b`, under which it is listed but not found. -/
theorem renamed_not_found : ∃ c, (shelfLoader.discover (shelfStore "a" "id: b\n")).1 = .ok [c] ∧
    (shelfLoader.load (shelfStore "a" "id: b\n") c.id).1 =
      .error (.configNotFound "b" ["b_config.json", "b_config.yaml", "b_config.yml"]) := by
  have ids : ((shelfLoader.discover (shelfStore "a" "id: b\n")).1.toOption.map
      (List.map Config.id)) = some ["b"] := by decide +kernel
  obtain ⟨c, listed, named⟩ := exists_listed ids
  have faithful : Faithful (shelfStore "a" "id: b\n") shelf shelf shelfLoader :=
    faithful_fresh _ _ _ _
  have absent : (shelfStore "a" "id: b\n").configFile? shelf "b" = none := by decide +kernel
  have tried : candidateFiles "b" = ["b_config.json", "b_config.yaml", "b_config.yml"] := by
    decide +kernel
  refine ⟨c, listed, ?_⟩
  have given := (gives_load "b" shelfLoader faithful).1
  rw [named, given, Store.config, absent, tried]

end Loader

end WorkflowGraph
