/- What becomes of the files that a listing recognises as configs. -/

import WorkflowGraph.Proofs.Listing

set_option autoImplicit false
set_option relaxedAutoImplicit false

/-!
A file name is recognised whatever the case of its ending, and whatever id stands in it. The search
for an id tries the endings in lower case alone, and nothing for an id that could lead out of the
directory. Where the ending is one of those tried, the second rule decides: the file is passed over
as missing exactly when its id could lead out of the directory. Every other file is loaded and
listed, has its place taken by a file or a config of the same id, or is reported with its failure.
-/

namespace WorkflowGraph

namespace Text

private theorem eq_append_of_cut? {sep : Char} {cs before after : List Char}
    (h : cut? sep cs = some (before, after)) : cs = before ++ sep :: after := by
  unfold cut? at h
  have whole := List.takeWhile_append_dropWhile (p := (· != sep)) (l := cs)
  cases found : cs.dropWhile (· != sep) with
  | nil =>
    rw [found] at h
    exact nomatch h
  | cons c rest =>
    rw [found] at h
    obtain ⟨rfl, rfl⟩ := Prod.mk.inj (Option.some.inj h)
    have first : c = sep := by
      have head := List.head_dropWhile_not (· != sep) (l := cs) (by simp [found])
      simpa [found] using head
    rw [found, first] at whole
    exact whole.symm

private theorem eq_append_of_dropLast? {part cs rest : List Char}
    (h : dropLast? part cs = some rest) :
    cs = rest ++ part := by
  obtain ⟨back, cut, rfl⟩ := Option.map_eq_some_iff.mp h
  have reversed := congrArg List.reverse (eq_append_of_dropFirst? cut)
  simpa using reversed

end Text

private theorem Path.eq_append_of_cutName {name stem extension : String}
    (h : cutName name = (stem, some extension)) : name = stem ++ "." ++ extension := by
  unfold cutName at h
  split at h
  · exact nomatch h
  · exact nomatch h
  · next ending back _ cut =>
    obtain ⟨rfl, last⟩ := Prod.mk.inj h
    obtain rfl := Option.some.inj last
    have whole := congrArg List.reverse (Text.eq_append_of_cut? cut)
    rw [List.reverse_reverse] at whole
    apply String.toList_inj.mp
    rw [whole]
    simp

theorem eq_configFileName_of_fileId? {name id : String} (h : fileId? name = some id) :
    id ≠ "" ∧ ∃ extension, (Path.cutName name).2 = some extension ∧
      name = configFileName id extension := by
  unfold fileId? at h
  split at h
  · next stem extension cut =>
    split at h
    · obtain ⟨stripped, named⟩ := Option.filter_eq_some_iff.mp h
      obtain ⟨cs, dropped, rfl⟩ := Option.map_eq_some_iff.mp stripped
      refine ⟨by simpa using named, extension, by rw [cut], ?_⟩
      have stem_ : stem = String.ofList cs ++ configSuffix := by
        apply String.toList_inj.mp
        rw [Text.eq_append_of_dropLast? dropped]
        simp
      rw [Path.eq_append_of_cutName cut, stem_, configFileName]
    · cases h
  · cases h

private theorem Path.eq_child {p dir : Path} {name : String} (parent : p.parent? = some dir)
    (last : p.fileName? = some name) : p = dir.child name := by
  obtain ⟨absolute, parts⟩ := p
  obtain ⟨ends, -⟩ := Option.filter_eq_some_iff.mp last
  unfold parent? at parent
  split at parent
  · exact nomatch parent
  · obtain rfl := Option.some.inj parent
    obtain ⟨before, rfl⟩ := List.getLast?_eq_some_iff.mp ends
    simp [child]

private theorem eq_child_of_configId? {p dir : Path} {id : String} (parent : p.parent? = some dir)
    (recognised : p.configId? = some id) :
    id ≠ "" ∧ ∃ extension, p.extension? = some extension ∧
      p = dir.child (configFileName id extension) := by
  obtain ⟨name, last, carried⟩ := Option.bind_eq_some_iff.mp recognised
  obtain ⟨named, extension, ending, rfl⟩ := eq_configFileName_of_fileId? carried
  refine ⟨named, extension, ?_, Path.eq_child parent last⟩
  rw [Path.extension?, last, Option.bind_some, ending]

theorem mem_appendNew_of_mem {α : Type} [DecidableEq α] {old new : List α} {x : α}
    (h : x ∈ old ∨ x ∈ new) : x ∈ appendNew old new := by
  induction new generalizing old with
  | nil => exact h.resolve_right List.not_mem_nil
  | cons y new ih =>
    have step : appendNew old (y :: new) =
        appendNew (if y ∈ old then old else old ++ [y]) new := rfl
    rw [step]
    apply ih
    rcases h with h | h
    · left
      split
      · exact h
      · exact List.mem_append_left _ h
    · rcases List.mem_cons.mp h with rfl | h
      · left
        split
        · assumption
        · exact List.mem_append_right _ List.mem_cons_self
      · exact Or.inr h

namespace Store

/-- What is listed of a directory are files directly inside it. -/
def ListsFiles (s : Store) (dir : Path) : Prop :=
  ∀ paths, s.list dir = .ok paths → ∀ p ∈ paths, s.holds p = true ∧ p.parent? = some dir

variable {s : Store} {dir : Path} {id : String}

private theorem exists_configFile? {extension : String} (inside : leavesDirectory id = false)
    (named : id ≠ "") (known : extension ∈ Notation.extensions)
    (there : s.holds (dir.child (configFileName id extension)) = true) :
    ∃ q, s.configFile? dir id = some q ∧ q.configId? = some id := by
  have tried : dir.child (configFileName id extension) ∈
      Notation.extensions.map fun e => dir.child (configFileName id e) :=
    List.mem_map.mpr ⟨extension, known, rfl⟩
  obtain ⟨q, first⟩ := Option.isSome_iff_exists.mp (List.find?_isSome.mpr ⟨_, tried, there⟩)
  obtain ⟨rest, own⟩ := candidateNames_eq_cons named
  refine ⟨q, ?_, ?_⟩
  · rw [configFile?_eq inside, own, List.findSome?_cons, variantFile?, first]
  · obtain ⟨e, known', rfl⟩ := List.mem_map.mp (List.mem_of_find?_eq_some first)
    exact configId?_child named known' dir

private theorem not_isNotFound_of_held {q : Path} {e : Error} (failed : s.held q = .error e) :
    e.isNotFound = false := by
  rw [held] at failed
  cases read : s.read q with
  | error fault =>
    have text : s.text q = .error (.ofIo fault) := by rw [Store.text, read]
    rw [text] at failed
    obtain rfl := Except.error.inj failed
    rfl
  | ok content =>
    have text : s.text q = .ok content := by rw [Store.text, read]
    rw [text] at failed
    have outcome : configOfText q "" content = .error e := failed
    unfold configOfText at outcome
    split at outcome
    · obtain rfl := Except.error.inj outcome
      rfl
    · dsimp only at outcome
      split at outcome
      · obtain rfl := Except.error.inj outcome
        rfl
      · cases outcome

private theorem isNotFound_config_iff :
    (∃ e, s.config dir id = .error e ∧ e.isNotFound = true) ↔ s.configFile? dir id = none := by
  constructor
  · rintro ⟨e, failed, missing⟩
    cases found : s.configFile? dir id with
    | none => rfl
    | some q =>
      rw [config_eq_held found] at failed
      rw [not_isNotFound_of_held failed] at missing
      exact nomatch missing
  · intro none_
    refine ⟨.configNotFound id (candidateFiles id), ?_, rfl⟩
    rw [config, none_]

private theorem exists_id_addConfig (found : List Config) (c : Config) :
    ∃ d ∈ Loader.addConfig found c, d.id = c.id := by
  unfold Loader.addConfig
  split
  · next repeated => simpa using repeated
  · exact ⟨c, List.mem_append_right found List.mem_cons_self, rfl⟩

private theorem mem_collect {found : List Config} {c : Config} (h : c ∈ found) (id : String) :
    c ∈ s.collect dir found id := by
  unfold collect
  split
  · unfold Loader.addConfig
    split
    · exact h
    · exact List.mem_append_left _ h
  · exact h

private theorem mem_foldl_collect {found : List Config} {c : Config} (h : c ∈ found)
    (ids : List String) :
    c ∈ ids.foldl (s.collect dir) found := by
  induction ids generalizing found with
  | nil => exact h
  | cons id ids ih => exact ih (mem_collect h id)

theorem exists_id_collect {ids : List String} {c : Config} (hid : id ∈ ids)
    (loaded : s.config dir id = .ok c) (found : List Config) :
    ∃ d ∈ ids.foldl (s.collect dir) found, d.id = c.id := by
  induction ids generalizing found with
  | nil => exact absurd hid List.not_mem_nil
  | cons id' ids ih =>
    rcases List.mem_cons.mp hid with rfl | later
    · have step : s.collect dir found id = Loader.addConfig found c := by rw [collect, loaded]
      obtain ⟨d, hd, same⟩ := exists_id_addConfig found c
      rw [List.foldl_cons, step]
      exact ⟨d, mem_foldl_collect hd ids, same⟩
    · exact ih later _

private theorem exists_id_discover {paths : List Path} {c : Config}
    (listed : s.list dir = .ok paths) (hid : id ∈ fileIds paths)
    (loaded : s.config dir id = .ok c) :
    ∃ found, s.discover dir = .ok found ∧ ∃ d ∈ found, d.id = c.id := by
  obtain ⟨d, hd, same⟩ := exists_id_collect hid loaded []
  refine ⟨_, by rw [discover, listed], d, ?_, same⟩
  exact List.mem_mergeSort.mpr hd

theorem mem_fileIds {paths : List Path} {p : Path} (hp : p ∈ paths)
    (recognised : p.configId? = some id) : id ∈ fileIds paths :=
  mem_appendNew_of_mem (Or.inr (List.mem_filterMap.mpr ⟨p, hp, recognised⟩))

private theorem listsFiles_ofFiles (files : List (Path × String)) (unreadable unlisted : List Path)
    (dir : Path) : (ofFiles files unreadable unlisted).ListsFiles dir := by
  intro paths listed p hp
  have outcome : (if dir ∈ unlisted then .error .missing
      else .ok (((Assoc.keys files).filter fun p => p.parent? = some dir).mergeSort byName)) =
      (.ok paths : Except IoFault (List Path)) := listed
  split at outcome
  · exact nomatch outcome
  · obtain rfl := Except.ok.inj outcome
    obtain ⟨there, inside⟩ := List.mem_filter.mp (List.mem_mergeSort.mp hp)
    exact ⟨(Assoc.contains_iff_mem_keys p files).mpr there, by simpa using inside⟩

end Store

namespace Loader

/-- A recognised file whose ending is among those tried is passed over as missing exactly when its
id could lead out of the directory. Otherwise a file of this id, the same one or one that comes
before it, is loaded, and a config of the same id is listed, or it is reported with its failure. -/
theorem missing_recognised_iff {s : Store} {configsDir templatesDir dir : Path} {paths : List Path}
    {p : Path} {id : String} {l : Loader} (faithful : Faithful s configsDir templatesDir l)
    (files : s.ListsFiles dir) (listed : s.list dir = .ok paths) (hp : p ∈ paths)
    (recognised : p.configId? = some id)
    (ending : ∃ extension ∈ Notation.extensions, p.extension? = some extension) :
    ((∃ e, (l.loadFrom s dir id).1 = .error e ∧ e.isNotFound = true) ↔
      leavesDirectory id = true) ∧
    (leavesDirectory id = false → ∃ q found, s.configFile? dir id = some q ∧
      q.configId? = some id ∧ (l.discoverIn s dir).1 = .ok found ∧
      ((∃ c, (l.loadFrom s dir id).1 = .ok c ∧ s.held q = .ok c ∧ ∃ d ∈ found, d.id = c.id) ∨
        ∃ e, (l.loadFrom s dir id).1 = .error e ∧ s.held q = .error e ∧ e.isNotFound = false)) := by
  obtain ⟨there, parent⟩ := files paths listed p hp
  obtain ⟨named, extension, own, rfl⟩ := eq_child_of_configId? parent recognised
  obtain ⟨extension', known, own'⟩ := ending
  obtain rfl := Option.some.inj (own.symm.trans own')
  have loaded : (l.loadFrom s dir id).1 = s.config dir id := (gives_loadFrom dir id l faithful).1
  have discovered : (l.discoverIn s dir).1 = s.discover dir := (gives_discoverIn dir l faithful).1
  rw [loaded, discovered, Store.isNotFound_config_iff]
  constructor
  · constructor
    · intro none_
      by_contra inside
      obtain ⟨q, found, -⟩ :=
        Store.exists_configFile? (by simpa using inside) named known there
      exact nomatch none_.symm.trans found
    · intro leaves
      have untried : candidateFiles id = [] := if_pos leaves
      rw [Store.configFile?, candidatePaths, untried]
      rfl
  · intro inside
    obtain ⟨q, place, carried⟩ := Store.exists_configFile? inside named known there
    rw [Store.config_eq_held place]
    cases holds : s.held q with
    | ok c =>
      have config : s.config dir id = .ok c := (Store.config_eq_held place).trans holds
      obtain ⟨found, given, same⟩ :=
        Store.exists_id_discover listed (Store.mem_fileIds hp recognised) config
      exact ⟨q, found, place, carried, given, Or.inl ⟨c, rfl, holds, same⟩⟩
    | error e =>
      refine ⟨q, _, place, carried, by rw [Store.discover, listed], Or.inr ⟨e, rfl, holds, ?_⟩⟩
      exact Store.not_isNotFound_of_held holds

theorem demo_recognised : ∃ q found, (fileOn "demo").configId? = some "demo" ∧
    (shelfStore "demo" "").configFile? shelf "demo" = some q ∧ q.configId? = some "demo" ∧
    (shelfLoader.discoverIn (shelfStore "demo" "") shelf).1 = .ok found ∧
    ∃ c, (shelfLoader.loadFrom (shelfStore "demo" "") shelf "demo").1 = .ok c ∧
      ∃ d ∈ found, d.id = c.id := by
  have faithful : Faithful (shelfStore "demo" "") shelf shelf shelfLoader :=
    faithful_fresh _ _ _ _
  have listed : (shelfStore "demo" "").list shelf = .ok [fileOn "demo"] := by decide +kernel
  have recognised : (fileOn "demo").configId? = some "demo" := by decide +kernel
  have ending : (fileOn "demo").extension? = some "yaml" := by decide +kernel
  have sound : (shelfLoader.loadFrom (shelfStore "demo" "") shelf "demo").1.toBool = true := by
    decide +kernel
  obtain ⟨-, rest⟩ := missing_recognised_iff faithful (Store.listsFiles_ofFiles _ _ _ _) listed
    List.mem_cons_self recognised ⟨"yaml", by decide, ending⟩
  obtain ⟨q, found, place, carried, given, outcome⟩ := rest (by decide +kernel)
  refine ⟨q, found, recognised, place, carried, given, ?_⟩
  rcases outcome with ⟨c, loaded, -, same⟩ | ⟨e, failed, -, -⟩
  · exact ⟨c, loaded, same⟩
  · rw [failed] at sound
    exact nomatch sound

/-- The file of the id `a..b` is recognised and refused: two dots could lead out of the directory.
The file of the id `a` with an ending in capitals is recognised and not tried. -/
theorem recognised_not_loaded :
    ((fileOn "a..b").configId? = some "a..b" ∧
      (shelfStore "a..b" "").list shelf = .ok [fileOn "a..b"] ∧
      (shelfLoader.loadFrom (shelfStore "a..b" "") shelf "a..b").1 =
        .error (.configNotFound "a..b" [])) ∧
    ∃ s : Store, s.ListsFiles shelf ∧ s.list shelf = .ok [shelf.child "a_config.YAML"] ∧
      (shelf.child "a_config.YAML").configId? = some "a" ∧
      ∃ tried, (shelfLoader.loadFrom s shelf "a").1 = .error (.configNotFound "a" tried) := by
  constructor
  · have absent : (shelfStore "a..b" "").configFile? shelf "a..b" = none := by decide +kernel
    have tried : candidateFiles "a..b" = [] := by decide +kernel
    have given := (gives_loadFrom shelf "a..b" shelfLoader
      (faithful_fresh (shelfStore "a..b" "") shelf shelf ⟨300, 300, 300⟩)).1
    refine ⟨by decide +kernel, by decide +kernel, ?_⟩
    rw [given, Store.config, absent, tried]
  · let text := "name: Demo\nworkflow_file: demo.json\ninputs: []\n"
    let s := Store.ofFiles [(shelf.child "a_config.YAML", text)] [] []
    have absent : s.configFile? shelf "a" = none := by decide +kernel
    have given := (gives_loadFrom shelf "a" shelfLoader
      (faithful_fresh s shelf shelf ⟨300, 300, 300⟩)).1
    refine ⟨s, Store.listsFiles_ofFiles _ _ _ _, by decide +kernel, by decide +kernel,
      candidateFiles "a", ?_⟩
    rw [given, Store.config, absent]

end Loader

end WorkflowGraph
