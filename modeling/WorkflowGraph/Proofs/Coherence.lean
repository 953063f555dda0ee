/- The caches of a loader over a store that changes: what is listed stays what is loaded. -/

import WorkflowGraph.Proofs.Listing

set_option autoImplicit false
set_option relaxedAutoImplicit false

/-!
Between two operations anything may happen to the store, so a run is a list of operations, each with
the store as it is at its time. An operation that forgets nothing only adds to the caches: configs
that the store gives, and lists of configs that are cached after it. A list that is still there is
therefore made of configs that are still cached, whatever the store holds by now.
-/

namespace WorkflowGraph

namespace Cache

variable {κ ν : Type} [DecidableEq κ]

def Extends (c c' : Cache κ ν) : Prop := ∀ k v, c.get? k = some v → c'.get? k = some v

private theorem get?_insert_cases {c : Cache κ ν} {k k' : κ} {v v' : ν}
    (h : (c.insert k v).get? k' = some v') : c.get? k' = some v' ∨ k' = k ∧ v' = v := by
  unfold insert at h
  split at h
  · by_cases same : k' = k
    · subst same
      have written := (Assoc.get?_insert_self k' v c.entries).symm.trans h
      exact Or.inr ⟨rfl, (Option.some.inj written).symm⟩
    · exact Or.inl ((Assoc.get?_insert_of_ne same v c.entries).symm.trans h)
  · exact Or.inl h

private theorem Extends.insert {c c' : Cache κ ν} (h : c.Extends c') {k : κ}
    (absent : c.get? k = none) (v : ν) : c.Extends (c'.insert k v) := by
  intro k' v' found
  have other : k' ≠ k := by
    rintro rfl
    exact nomatch absent.symm.trans found
  unfold Cache.insert
  split
  · exact (Assoc.get?_insert_of_ne other v c'.entries).trans (h k' v' found)
  · exact h k' v' found

private theorem enabled_insert (c : Cache κ ν) (k : κ) (v : ν) :
    (c.insert k v).enabled = c.enabled := by
  unfold insert
  split <;> rfl

end Cache

def Operation.forgets : Operation → Bool
  | .invalidate | .invalidateConfig _ | .shutdown => true
  | _ => false

namespace Loader

/-- The loader after operations, each over the store as it is then. -/
def after (maxLoras : Nat) (l : Loader) (steps : List (Store × Operation)) : Loader :=
  steps.foldl (fun l step => (l.perform maxLoras step.1 step.2).2) l

variable {s : Store} {l l' l'' : Loader} {dir : Path} {id : String} {c : Config}
  {found : List Config}

/-- A config is cached under an id, or the store gives it for the id. -/
def Offers (s : Store) (l : Loader) (dir : Path) (id : String) (c : Config) : Prop :=
  l.configs.get? (dir, id) = some c ∨ s.config dir id = .ok c

/-- Configs that were cached or given for ids of the listing, and that are cached afterwards. -/
def Gathered (s : Store) (l l' : Loader) (dir : Path) (found : List Config) : Prop :=
  ∃ paths, s.list dir = .ok paths ∧ ∀ c ∈ found, ∃ k ∈ Store.fileIds paths,
    l.Offers s dir k c ∧ (l.configs.enabled = true → l'.configs.get? (dir, k) = some c)

/-- What an operation over a store may do to a loader if it forgets nothing. -/
structure Grows (s : Store) (l l' : Loader) : Prop where
  configsDir_eq : l'.configsDir = l.configsDir
  enabled_eq : l'.configs.enabled = l.configs.enabled
  configs_kept : l.configs.Extends l'.configs
  lists_kept : l.discovered.Extends l'.discovered
  config_new : ∀ {dir id c}, l'.configs.get? (dir, id) = some c → l.Offers s dir id c
  list_new : ∀ {dir found}, l'.discovered.get? dir = some found →
    l.discovered.get? dir = some found ∨ Gathered s l l' dir found

private theorem Offers.of_grows (grows : Grows s l l') (h : l'.Offers s dir id c) :
    l.Offers s dir id c :=
  h.elim grows.config_new Or.inr

private theorem Gathered.extend (h : Gathered s l l' dir found) (grows : Grows s l' l'') :
    Gathered s l l'' dir found := by
  obtain ⟨paths, listed, all⟩ := h
  refine ⟨paths, listed, fun c hc => ?_⟩
  obtain ⟨k, hk, offered, kept⟩ := all c hc
  exact ⟨k, hk, offered, fun on => grows.configs_kept _ _ (kept on)⟩

private theorem Gathered.of_grows (grows : Grows s l l') (h : Gathered s l' l'' dir found) :
    Gathered s l l'' dir found := by
  obtain ⟨paths, listed, all⟩ := h
  refine ⟨paths, listed, fun c hc => ?_⟩
  obtain ⟨k, hk, offered, kept⟩ := all c hc
  exact ⟨k, hk, offered.of_grows grows, fun on => kept (grows.enabled_eq.trans on)⟩

namespace Grows

private theorem refl (s : Store) (l : Loader) : Grows s l l :=
  ⟨rfl, rfl, fun _ _ h => h, fun _ _ h => h, Or.inl, Or.inl⟩

private theorem trans (first : Grows s l l') (second : Grows s l' l'') : Grows s l l'' where
  configsDir_eq := second.configsDir_eq.trans first.configsDir_eq
  enabled_eq := second.enabled_eq.trans first.enabled_eq
  configs_kept k v h := second.configs_kept k v (first.configs_kept k v h)
  lists_kept k v h := second.lists_kept k v (first.lists_kept k v h)
  config_new h := (second.config_new h).of_grows first
  list_new h := by
    rcases second.list_new h with old | new
    · exact (first.list_new old).imp_right fun gathered => gathered.extend second
    · exact Or.inr (new.of_grows first)

private theorem of_eq (dir_eq : l'.configsDir = l.configsDir) (configs_eq : l'.configs = l.configs)
    (lists_eq : l'.discovered = l.discovered) : Grows s l l' := by
  refine ⟨dir_eq, by rw [configs_eq], ?_, ?_, ?_, ?_⟩
  · rw [configs_eq]
    exact fun _ _ h => h
  · rw [lists_eq]
    exact fun _ _ h => h
  · intro dir id c h
    rw [configs_eq] at h
    exact Or.inl h
  · intro dir found h
    rw [lists_eq] at h
    exact Or.inl h

private theorem insert_config (absent : l.configs.get? (dir, id) = none)
    (given : s.config dir id = .ok c) :
    Grows s l { l with configs := l.configs.insert (dir, id) c } where
  configsDir_eq := rfl
  enabled_eq := Cache.enabled_insert _ _ _
  configs_kept := Cache.Extends.insert (fun _ _ h => h) absent c
  lists_kept _ _ h := h
  config_new h := by
    rcases Cache.get?_insert_cases h with old | ⟨key, rfl⟩
    · exact Or.inl old
    · obtain ⟨rfl, rfl⟩ := Prod.mk.inj key
      exact Or.inr given
  list_new := Or.inl

private theorem insert_list (grows : Grows s l l') (absent : l.discovered.get? dir = none)
    (gathered : Gathered s l l' dir found) :
    Grows s l { l' with discovered := l'.discovered.insert dir found } where
  configsDir_eq := grows.configsDir_eq
  enabled_eq := grows.enabled_eq
  configs_kept := grows.configs_kept
  lists_kept := grows.lists_kept.insert absent found
  config_new := grows.config_new
  list_new h := by
    rcases Cache.get?_insert_cases h with old | ⟨rfl, rfl⟩
    · exact grows.list_new old
    · exact Or.inr gathered

end Grows

private theorem grows_countRead (file : Option Path) : Grows s l (l.countRead file) := by
  unfold countRead
  split
  · exact .of_eq rfl rfl rfl
  · exact .refl s l

private theorem grows_countListing : Grows s l l.countListing := .of_eq rfl rfl rfl

private theorem configs_countRead (file : Option Path) :
    (l.countRead file).configs = l.configs := by
  unfold countRead
  split <;> rfl

theorem grows_loadFrom (s : Store) (l : Loader) (dir : Path) (id : String) :
    Grows s l (l.loadFrom s dir id).2 ∧ ∀ c, (l.loadFrom s dir id).1 = .ok c →
      l.Offers s dir id c ∧
        (l.configs.enabled = true → (l.loadFrom s dir id).2.configs.get? (dir, id) = some c) := by
  unfold loadFrom
  cases cached : l.configs.get? (dir, id) with
  | some d =>
    refine ⟨.refl s l, fun c same => ?_⟩
    obtain rfl := Except.ok.inj same
    exact ⟨Or.inl cached, fun _ => cached⟩
  | none =>
    have counted := grows_countRead (s := s) (l := l) (s.configFile? dir id)
    have absent : (l.countRead (s.configFile? dir id)).configs.get? (dir, id) = none := by
      rw [configs_countRead, cached]
    cases given : s.config dir id with
    | error e => exact ⟨counted, fun c same => nomatch same⟩
    | ok d =>
      refine ⟨counted.trans (.insert_config absent given), fun c same => ?_⟩
      obtain rfl := Except.ok.inj same
      refine ⟨Or.inr given, fun on => Cache.get?_insert_self ?_ _ _⟩
      rw [configs_countRead, on]

private theorem grows_template (s : Store) (l : Loader) (file : String) :
    Grows s l (l.template s file).2 := by
  unfold template
  cases l.templates.get? (Path.ofText file) with
  | some g => exact .refl s l
  | none =>
    have counted := grows_countRead (s := s) (l := l)
      (s.templateFile? l.configsDir l.templatesDir file)
    dsimp only
    cases s.template _ _ file with
    | error e => exact counted
    | ok g => exact counted.trans (.of_eq rfl rfl rfl)

private theorem grows_collect (dir : Path) (ids : List String) (l : Loader) (found : List Config) :
    Grows s l (ids.foldl (collect s dir) (found, l)).2 ∧
      ∀ c ∈ (ids.foldl (collect s dir) (found, l)).1, c ∈ found ∨ ∃ k ∈ ids, l.Offers s dir k c ∧
        (l.configs.enabled = true →
          (ids.foldl (collect s dir) (found, l)).2.configs.get? (dir, k) = some c) := by
  induction ids generalizing l found with
  | nil => exact ⟨.refl s l, fun c hc => Or.inl hc⟩
  | cons id ids ih =>
    obtain ⟨one, gives⟩ := grows_loadFrom s l dir id
    -- what later loads add leaves the configs of earlier ones in the cache
    rcases outcome : l.loadFrom s dir id with ⟨e | d, l'⟩
    · have step : collect s dir (found, l) id = (found, l') := by unfold collect; rw [outcome]
      rw [outcome] at one
      obtain ⟨rest, all⟩ := ih l' found
      rw [List.foldl_cons, step]
      refine ⟨one.trans rest, fun c hc => (all c hc).imp_right ?_⟩
      rintro ⟨k, hk, offered, kept⟩
      exact ⟨k, List.mem_cons_of_mem id hk, offered.of_grows one,
        fun on => kept (one.enabled_eq.trans on)⟩
    · have step : collect s dir (found, l) id = (addConfig found d, l') := by
        unfold collect; rw [outcome]
      rw [outcome] at one gives
      obtain ⟨offered, cached⟩ := gives d rfl
      obtain ⟨rest, all⟩ := ih l' (addConfig found d)
      rw [List.foldl_cons, step]
      refine ⟨one.trans rest, fun c hc => ?_⟩
      rcases all c hc with old | ⟨k, hk, offered', kept⟩
      · rcases Store.mem_addConfig old with old | rfl
        · exact Or.inl old
        · exact Or.inr ⟨id, List.mem_cons_self, offered,
            fun on => rest.configs_kept _ _ (cached on)⟩
      · exact Or.inr ⟨k, List.mem_cons_of_mem id hk, offered'.of_grows one,
          fun on => kept (one.enabled_eq.trans on)⟩

private theorem grows_scan (s : Store) (l : Loader) (dir : Path) :
    Grows s l (l.scan s dir).2 ∧
      ∀ found, (l.scan s dir).1 = .ok found → Gathered s l (l.scan s dir).2 dir found := by
  unfold scan
  cases listed : s.list dir with
  | error fault => exact ⟨grows_countListing, fun found same => nomatch same⟩
  | ok paths =>
    obtain ⟨grows, all⟩ := grows_collect (s := s) dir (Store.fileIds paths) l.countListing []
    refine ⟨grows_countListing.trans grows, fun found same => ?_⟩
    obtain rfl := Except.ok.inj same
    refine ⟨paths, listed, fun c hc => ?_⟩
    exact (all c (List.mem_mergeSort.mp hc)).resolve_left List.not_mem_nil

theorem grows_discoverIn (s : Store) (l : Loader) (dir : Path) :
    Grows s l (l.discoverIn s dir).2 ∧ ∀ found, (l.discoverIn s dir).1 = .ok found →
      l.discovered.get? dir = some found ∨ Gathered s l (l.discoverIn s dir).2 dir found := by
  unfold discoverIn
  cases cached : l.discovered.get? dir with
  | some list =>
    refine ⟨.refl s l, fun found same => ?_⟩
    obtain rfl := Except.ok.inj same
    exact Or.inl rfl
  | none =>
    obtain ⟨grows, gathers⟩ := grows_scan s l dir
    rcases outcome : l.scan s dir with ⟨e | list, l'⟩
    · rw [outcome] at grows
      exact ⟨grows, fun found same => nomatch same⟩
    · rw [outcome] at grows gathers
      have gathered := gathers list rfl
      refine ⟨grows.insert_list cached gathered, fun found same => ?_⟩
      obtain rfl := Except.ok.inj same
      exact Or.inr gathered

private theorem grows_withConfig {α : Type} {next : Config → Loader → Outcome α}
    (h : ∀ c l, Grows s l (next c l).2) (l : Loader) (id : String) :
    Grows s l (withConfig s id next l).2 := by
  obtain ⟨loaded, -⟩ := grows_loadFrom s l l.configsDir id
  unfold withConfig load
  rcases outcome : l.loadFrom s l.configsDir id with ⟨e | c, l'⟩
  · rw [outcome] at loaded
    exact loaded
  · rw [outcome] at loaded
    exact loaded.trans (h c l')

private theorem grows_generate (maxLoras : Nat) (l : Loader) (id : String) (inputs : Object)
    (words : Words) : Grows s l (l.generate maxLoras s id inputs words).2 := by
  refine grows_withConfig (fun c l => ?_) l id
  have loaded := grows_template s l c.workflowFile
  rcases outcome : l.template s c.workflowFile with ⟨e | g, l'⟩ <;>
  · rw [outcome] at loaded
    exact loaded

private theorem grows_listWorkflows (l : Loader) : Grows s l (l.listWorkflows s).2 := by
  obtain ⟨listed, -⟩ := grows_discoverIn s l l.configsDir
  unfold listWorkflows discover
  rcases outcome : l.discoverIn s l.configsDir with ⟨e | found, l'⟩ <;>
  · rw [outcome] at listed
    exact listed

theorem grows_perform (maxLoras : Nat) (s : Store) (l : Loader) {op : Operation}
    (keeps : op.forgets = false) : Grows s l (l.perform maxLoras s op).2 := by
  cases op with
  | load id => exact (grows_loadFrom s l l.configsDir id).1
  | loadFrom dir id => exact (grows_loadFrom s l dir id).1
  | template file => exact grows_template s l file
  | discover => exact (grows_discoverIn s l l.configsDir).1
  | discoverIn dir => exact (grows_discoverIn s l dir).1
  | listWorkflows => exact grows_listWorkflows l
  | parameters id => exact grows_withConfig (fun _ l => .refl s l) l id
  | validate id inputs => exact grows_withConfig (fun _ l => .refl s l) l id
  | generate id inputs words => exact grows_generate maxLoras l id inputs words
  | invalidate | invalidateConfig id | shutdown => exact nomatch keeps

/-- Until something is forgotten, what is cached stays. -/
theorem kept_after (maxLoras : Nat) {later : List (Store × Operation)}
    (keeps : ∀ step ∈ later, step.2.forgets = false) (l : Loader) :
    l.configs.Extends (l.after maxLoras later).configs ∧
      l.discovered.Extends (l.after maxLoras later).discovered := by
  induction later generalizing l with
  | nil => exact ⟨fun _ _ h => h, fun _ _ h => h⟩
  | cons step later ih =>
    have grows := grows_perform maxLoras step.1 l (keeps step List.mem_cons_self)
    obtain ⟨configs, lists⟩ := ih (fun step' h => keeps step' (List.mem_cons_of_mem step h))
      (l.perform maxLoras step.1 step.2).2
    exact ⟨fun k v h => configs k v (grows.configs_kept k v h),
      fun k v h => lists k v (grows.lists_kept k v h)⟩

/-- Every config of a cached list is cached itself, under an id that is known for the directory. -/
structure Coherent (known : Path → String → Prop) (l : Loader) : Prop where
  enabled : l.configs.enabled = true
  cached : ∀ dir found, l.discovered.get? dir = some found → ∀ c ∈ found,
    ∃ k, known dir k ∧ l.configs.get? (dir, k) = some c

variable {known : Path → String → Prop}

private theorem Coherent.of_grows (h : Coherent known l) (grows : Grows s l l')
    (lists : ∀ dir paths, s.list dir = .ok paths → ∀ k ∈ Store.fileIds paths, known dir k) :
    Coherent known l' := by
  refine ⟨grows.enabled_eq.trans h.enabled, fun dir found there c hc => ?_⟩
  rcases grows.list_new there with old | ⟨paths, listed, all⟩
  · obtain ⟨k, hk, cached⟩ := h.cached dir found old c hc
    exact ⟨k, hk, grows.configs_kept _ _ cached⟩
  · obtain ⟨k, hk, -, cached⟩ := all c hc
    exact ⟨k, lists dir paths listed k hk, cached h.enabled⟩

private theorem coherent_perform (maxLoras : Nat) (h : Coherent known l)
    (lists : ∀ dir paths, s.list dir = .ok paths → ∀ k ∈ Store.fileIds paths, known dir k)
    (op : Operation) : Coherent known (l.perform maxLoras s op).2 := by
  cases keeps : op.forgets with
  | false => exact h.of_grows (grows_perform maxLoras s l keeps) lists
  | true =>
    -- whatever is forgotten, all lists are, even those that did not hold the config
    cases op with
    | invalidate | invalidateConfig id | shutdown =>
      exact ⟨h.enabled, fun _ _ there => nomatch there⟩
    | load | loadFrom | template | discover | discoverIn | listWorkflows | parameters | validate
      | generate => exact nomatch keeps

/-- Some store of a run lists a file with this id in a directory. -/
def Listed (steps : List (Store × Operation)) (dir : Path) (id : String) : Prop :=
  ∃ step ∈ steps, ∃ paths, step.1.list dir = .ok paths ∧ id ∈ Store.fileIds paths

private theorem coherent_after (maxLoras : Nat) {steps : List (Store × Operation)}
    (lists : ∀ dir id, Listed steps dir id → known dir id) (h : Coherent known l) :
    Coherent known (l.after maxLoras steps) := by
  induction steps generalizing l with
  | nil => exact h
  | cons step steps ih =>
    refine ih ?_ (coherent_perform maxLoras h ?_ step.2)
    · rintro dir id ⟨step', hstep, listed⟩
      exact lists dir id ⟨step', List.mem_cons_of_mem step hstep, listed⟩
    · intro dir paths listed k hk
      exact lists dir k ⟨step, List.mem_cons_self, paths, listed, hk⟩

/-- In every state of every run, whatever happens to the store between two operations, a config of a
cached list is itself cached under the id of some file that was listed. Until something is
forgotten, this id loads that very config, and the directory gives that very list. -/
theorem listed_config_cached (maxLoras : Nat) (configsDir templatesDir : Path) (ttl : Lifetimes)
    (on : ttl.configs ≠ 0 ∧ ttl.templates ≠ 0 ∧ ttl.discovery ≠ 0)
    (steps : List (Store × Operation)) {l : Loader}
    (reached : l = (fresh configsDir templatesDir ttl).after maxLoras steps)
    (listed : l.discovered.get? dir = some found) (hc : c ∈ found) :
    ∃ k, Listed steps dir k ∧ l.configs.get? (dir, k) = some c ∧
      ∀ later, (∀ step ∈ later, step.2.forgets = false) → ∀ s,
        ((l.after maxLoras later).loadFrom s dir k).1 = .ok c ∧
          ((l.after maxLoras later).discoverIn s dir).1 = .ok found := by
  have start : Coherent (Listed steps) (fresh configsDir templatesDir ttl) :=
    ⟨by simpa [fresh, Cache.empty, Cache.enabled] using on.1, fun _ _ there => nomatch there⟩
  have coherent : Coherent (Listed steps) l := by
    rw [reached]
    exact coherent_after maxLoras (fun _ _ h => h) start
  obtain ⟨k, known, cached⟩ := coherent.cached dir found listed c hc
  refine ⟨k, known, cached, fun later keeps s => ?_⟩
  obtain ⟨configs, lists⟩ := kept_after maxLoras keeps l
  have config : (l.after maxLoras later).configs.get? (dir, k) = some c := configs _ _ cached
  have list : (l.after maxLoras later).discovered.get? dir = some found := lists _ _ listed
  constructor
  · rw [loadFrom, config]
  · rw [discoverIn, list]

private theorem exists_singleton {o : Option (List Config)} {id : String}
    (ids : o.map (List.map Config.id) = some [id]) : ∃ c, o = some [c] ∧ c.id = id := by
  obtain ⟨found, rfl, ids'⟩ := Option.map_eq_some_iff.mp ids
  obtain ⟨c, rfl, named⟩ := List.map_eq_singleton_iff.mp ids'
  exact ⟨c, rfl, named⟩

/-- The file of the listed workflow is gone, and the workflow is still loaded as it was listed. -/
theorem removed_file_cached : ∃ c k,
    (shelfLoader.after 5 [(shelfStore "demo" "", .discover)]).discovered.get? shelf = some [c] ∧
      ((shelfLoader.after 5 [(shelfStore "demo" "", .discover)]).loadFrom (Store.ofFiles [] [] [])
        shelf k).1 = .ok c := by
  have ids : ((shelfLoader.after 5 [(shelfStore "demo" "", .discover)]).discovered.get? shelf).map
      (List.map Config.id) = some ["demo"] := by decide +kernel
  obtain ⟨c, listed, -⟩ := exists_singleton ids
  obtain ⟨k, -, -, later⟩ := listed_config_cached 5 shelf shelf ⟨300, 300, 300⟩ (by decide)
    [(shelfStore "demo" "", .discover)] rfl listed List.mem_cons_self
  have stays : ∀ l : Loader, l.after 5 [] = l := fun _ => rfl
  have kept := (later [] (by simp) (Store.ofFiles [] [] [])).1
  rw [stays] at kept
  exact ⟨c, k, listed, kept⟩

end Loader

end WorkflowGraph
