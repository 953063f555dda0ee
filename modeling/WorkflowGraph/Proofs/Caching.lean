/- Caches over a store that does not change: every reply is the one that the store alone gives. -/

import WorkflowGraph.Proofs.Assoc
import WorkflowGraph.Service

set_option autoImplicit false
set_option relaxedAutoImplicit false

/-!
What an operation replies is given without caches by the store and the directories. A loader is
faithful when everything that it has cached is what the store gives, under whatever key it is kept.
Every operation of a faithful loader gives the reply of the store and leaves the loader faithful, so
the lifetimes of the caches do not show in any run.
-/

namespace WorkflowGraph

namespace Cache

variable {κ ν : Type} [DecidableEq κ]

/-- Every entry is what a source gives for its key. -/
def Agrees (c : Cache κ ν) (source : κ → ν → Prop) : Prop := ∀ k v, c.get? k = some v → source k v

variable {c : Cache κ ν} {source : κ → ν → Prop}

private theorem agrees_empty (name : String) (lifetime : Nat) :
    (empty name lifetime : Cache κ ν).Agrees source :=
  fun _ _ h => nomatch h

private theorem agrees_clear (c : Cache κ ν) : c.clear.Agrees source := fun _ _ h => nomatch h

private theorem Agrees.insert (h : c.Agrees source) {k : κ} {v : ν} (hv : source k v) :
    (c.insert k v).Agrees source := by
  intro k' v' found
  rw [Cache.insert] at found
  split at found
  · by_cases same : k' = k
    · subst same
      obtain rfl : v = v' := Option.some.inj ((Assoc.get?_insert_self k' v _).symm.trans found)
      exact hv
    · exact h k' v' ((Assoc.get?_insert_of_ne same v c.entries).symm.trans found)
  · exact h k' v' found

private theorem Agrees.erase (h : c.Agrees source) (k : κ) : (c.erase k).Agrees source := by
  intro k' v' found
  by_cases same : k' = k
  · subst same
    exact nomatch (Assoc.get?_erase_self k' c.entries).symm.trans found
  · exact h k' v' ((Assoc.get?_erase_of_ne same c.entries).symm.trans found)

end Cache

namespace Store

/-- One more config of a listing; what cannot be loaded is passed over. -/
def collect (s : Store) (dir : Path) (found : List Config) (id : String) : List Config :=
  match s.config dir id with
  | .ok c => Loader.addConfig found c
  | .error _ => found

/-- All configs of a directory that can be loaded, in the order of their names. -/
def discover (s : Store) (dir : Path) : Except Error (List Config) :=
  match s.list dir with
  | .error fault => .error (.ofIo fault)
  | .ok paths => .ok (((fileIds paths).foldl (s.collect dir) []).mergeSort Loader.listedBefore)

private theorem template_of_ofText {s : Store} {configsDir templatesDir : Path}
    {file file' : String} {g : Graph} (h : s.template configsDir templatesDir file = .ok g)
    (same : Path.ofText file' = Path.ofText file) :
    s.template configsDir templatesDir file' = .ok g := by
  have place : s.templateFile? configsDir templatesDir file' =
      s.templateFile? configsDir templatesDir file := by rw [templateFile?, same, templateFile?]
  cases found : s.templateFile? configsDir templatesDir file with
  | none =>
    rw [template, found] at h
    exact nomatch h
  | some p =>
    rw [template, found] at h
    rw [template, place, found]
    exact h

end Store

/-- What can be asked of a service that loads from one directory of configs and one of templates. -/
inductive Operation where
  | load (id : String)
  | loadFrom (dir : Path) (id : String)
  | template (file : String)
  | discover
  | discoverIn (dir : Path)
  | listWorkflows
  | parameters (id : String)
  | validate (id : String) (inputs : Object)
  | generate (id : String) (inputs : Object) (words : Words)
  | invalidate
  | invalidateConfig (id : String)
  | shutdown

inductive Reply where
  | config (r : Except Error Config)
  | graph (r : Except Error Graph)
  | configs (r : Except Error (List Config))
  | summaries (r : Except Error (List Summary))
  | parameters (r : Except Error (List ParameterInfo))
  | report (r : Except Error Report)
  | generation (r : Except Error (Option Generation × Words))
  | done

namespace Loader

def replying {α : Type} (reply : Except Error α → Reply) (o : Outcome α) : Reply × Loader :=
  (reply o.1, o.2)

def perform (maxLoras : Nat) (s : Store) (l : Loader) : Operation → Reply × Loader
  | .load id => replying .config (l.load s id)
  | .loadFrom dir id => replying .config (l.loadFrom s dir id)
  | .template file => replying .graph (l.template s file)
  | .discover => replying .configs (l.discover s)
  | .discoverIn dir => replying .configs (l.discoverIn s dir)
  | .listWorkflows => replying .summaries (l.listWorkflows s)
  | .parameters id => replying .parameters (l.parameters s id)
  | .validate id inputs => replying .report (l.validate maxLoras s id inputs)
  | .generate id inputs words => replying .generation (l.generate maxLoras s id inputs words)
  | .invalidate | .shutdown => (.done, l.invalidate)
  | .invalidateConfig id => (.done, l.invalidateConfig id)

def replies (maxLoras : Nat) (s : Store) : Loader → List Operation → List Reply
  | _, [] => []
  | l, op :: rest =>
    (l.perform maxLoras s op).1 :: replies maxLoras s (l.perform maxLoras s op).2 rest

/-- A loader of two directories that has cached nothing but what the store gives. A template is kept
by its path, whichever text named it. -/
structure Faithful (s : Store) (configsDir templatesDir : Path) (l : Loader) : Prop where
  configsDir_eq : l.configsDir = configsDir
  templatesDir_eq : l.templatesDir = templatesDir
  configs : l.configs.Agrees fun k c => s.config k.1 k.2 = .ok c
  templates : l.templates.Agrees fun p g =>
    ∀ file, Path.ofText file = p → s.template configsDir templatesDir file = .ok g
  discovered : l.discovered.Agrees fun dir found => s.discover dir = .ok found

/-- Whatever is cached, an operation gives one result, and it caches only what the store gives. -/
def Gives (s : Store) (configsDir templatesDir : Path) {α : Type} (op : Loader → Outcome α)
    (r : Except Error α) : Prop :=
  ∀ l, Faithful s configsDir templatesDir l →
    (op l).1 = r ∧ Faithful s configsDir templatesDir (op l).2

variable {s : Store} {configsDir templatesDir : Path} {l : Loader} {α β : Type}

theorem faithful_fresh (s : Store) (configsDir templatesDir : Path) (ttl : Lifetimes) :
    Faithful s configsDir templatesDir (fresh configsDir templatesDir ttl) :=
  ⟨rfl, rfl, Cache.agrees_empty _ _, Cache.agrees_empty _ _, Cache.agrees_empty _ _⟩

namespace Faithful

private theorem countRead (h : Faithful s configsDir templatesDir l) (file : Option Path) :
    Faithful s configsDir templatesDir (l.countRead file) := by
  rw [Loader.countRead]
  split
  · exact ⟨h.configsDir_eq, h.templatesDir_eq, h.configs, h.templates, h.discovered⟩
  · exact h

private theorem countListing (h : Faithful s configsDir templatesDir l) :
    Faithful s configsDir templatesDir l.countListing :=
  ⟨h.configsDir_eq, h.templatesDir_eq, h.configs, h.templates, h.discovered⟩

private theorem invalidate (h : Faithful s configsDir templatesDir l) :
    Faithful s configsDir templatesDir l.invalidate :=
  ⟨h.configsDir_eq, h.templatesDir_eq, Cache.agrees_clear _, Cache.agrees_clear _,
    Cache.agrees_clear _⟩

private theorem invalidateConfig (h : Faithful s configsDir templatesDir l) (id : String) :
    Faithful s configsDir templatesDir (l.invalidateConfig id) :=
  ⟨h.configsDir_eq, h.templatesDir_eq, h.configs.erase _, h.templates, Cache.agrees_clear _⟩

end Faithful

theorem gives_loadFrom (dir : Path) (id : String) :
    Gives s configsDir templatesDir (loadFrom s dir id) (s.config dir id) := by
  intro l h
  unfold loadFrom
  cases cached : l.configs.get? (dir, id) with
  | some c => exact ⟨(h.configs (dir, id) c cached).symm, h⟩
  | none =>
    have counted := h.countRead (s.configFile? dir id)
    cases given : s.config dir id with
    | error e => exact ⟨rfl, counted⟩
    | ok c =>
      have kept := counted.configs.insert (k := (dir, id)) given
      exact ⟨rfl, { counted with configs := kept }⟩

private theorem gives_template (file : String) :
    Gives s configsDir templatesDir (template s file)
      (s.template configsDir templatesDir file) := by
  intro l h
  unfold template
  cases cached : l.templates.get? (Path.ofText file) with
  | some g => exact ⟨(h.templates _ g cached file rfl).symm, h⟩
  | none =>
    have counted := h.countRead (s.templateFile? l.configsDir l.templatesDir file)
    simp only [counted.configsDir_eq, counted.templatesDir_eq]
    cases given : s.template configsDir templatesDir file with
    | error e => exact ⟨rfl, counted⟩
    | ok g =>
      -- other texts may name the same path, and they will find this entry
      have kept := counted.templates.insert fun file' same => Store.template_of_ofText given same
      exact ⟨rfl, rfl, rfl, counted.configs, kept, counted.discovered⟩

theorem gives_load (id : String) :
    Gives s configsDir templatesDir (load s id) (s.config configsDir id) := by
  intro l h
  rw [load, h.configsDir_eq]
  exact gives_loadFrom configsDir id l h

private theorem faithful_collect (dir : Path) (ids : List String) (found : List Config)
    (h : Faithful s configsDir templatesDir l) :
    (ids.foldl (collect s dir) (found, l)).1 = ids.foldl (s.collect dir) found ∧
      Faithful s configsDir templatesDir (ids.foldl (collect s dir) (found, l)).2 := by
  induction ids generalizing found l with
  | nil => exact ⟨rfl, h⟩
  | cons id ids ih =>
    obtain ⟨same, faithful⟩ := gives_loadFrom dir id l h
    have step : collect s dir (found, l) id =
        (s.collect dir found id, (l.loadFrom s dir id).2) := by
      unfold collect Store.collect
      rw [← same]
      rcases l.loadFrom s dir id with ⟨_ | c, l'⟩ <;> rfl
    rw [List.foldl_cons, List.foldl_cons, step]
    exact ih _ faithful

private theorem gives_scan (dir : Path) :
    Gives s configsDir templatesDir (scan s dir) (s.discover dir) := by
  intro l h
  unfold scan Store.discover
  cases s.list dir with
  | error fault => exact ⟨rfl, h.countListing⟩
  | ok paths =>
    obtain ⟨same, faithful⟩ := faithful_collect dir (Store.fileIds paths) [] h.countListing
    exact ⟨congrArg (fun found => Except.ok (List.mergeSort found listedBefore)) same, faithful⟩

theorem gives_discoverIn (dir : Path) :
    Gives s configsDir templatesDir (discoverIn s dir) (s.discover dir) := by
  intro l h
  unfold discoverIn
  cases cached : l.discovered.get? dir with
  | some found => exact ⟨(h.discovered dir found cached).symm, h⟩
  | none =>
    have scanned := gives_scan dir l h
    rcases outcome : l.scan s dir with ⟨e | found, l'⟩
    · rw [outcome] at scanned
      exact scanned
    · rw [outcome] at scanned
      obtain ⟨given, faithful⟩ := scanned
      have kept := faithful.discovered.insert given.symm
      exact ⟨given, { faithful with discovered := kept }⟩

theorem gives_discover : Gives s configsDir templatesDir (discover s) (s.discover configsDir) := by
  intro l h
  rw [discover, h.configsDir_eq]
  exact gives_discoverIn configsDir l h

private theorem gives_done (r : Except Error α) :
    Gives s configsDir templatesDir (fun l => (r, l)) r :=
  fun _ h => ⟨rfl, h⟩

private theorem Gives.then {op : Loader → Outcome α} {r : Except Error α}
    {next : α → Loader → Outcome β} {r' : α → Except Error β} {whole : Loader → Outcome β}
    (first : Gives s configsDir templatesDir op r)
    (second : ∀ a, Gives s configsDir templatesDir (next a) (r' a))
    (ok : ∀ l a l', op l = (.ok a, l') → whole l = next a l')
    (error : ∀ l e l', op l = (.error e, l') → whole l = (.error e, l')) :
    Gives s configsDir templatesDir whole (r.bind r') := by
  intro l h
  have given := first l h
  rcases outcome : op l with ⟨e | a, l'⟩
  · rw [outcome] at given
    obtain ⟨rfl, faithful⟩ := given
    rw [error l e l' outcome]
    exact ⟨rfl, faithful⟩
  · rw [outcome] at given
    obtain ⟨rfl, faithful⟩ := given
    rw [ok l a l' outcome]
    exact second a l' faithful

private theorem gives_listWorkflows :
    Gives s configsDir templatesDir (listWorkflows s)
      ((s.discover configsDir).bind fun found => .ok (found.map Summary.ofConfig)) :=
  gives_discover.then (fun _ => gives_done _)
    (fun l found l' h => by simp only [listWorkflows, h])
    (fun l e l' h => by simp only [listWorkflows, h])

private theorem gives_withConfig {next : Config → Loader → Outcome α} {r : Config → Except Error α}
    (id : String) (h : ∀ c, Gives s configsDir templatesDir (next c) (r c)) :
    Gives s configsDir templatesDir (withConfig s id next) ((s.config configsDir id).bind r) :=
  (gives_load id).then h
    (fun l c l' h => by simp only [withConfig, h])
    (fun l e l' h => by simp only [withConfig, h])

private theorem gives_generate (maxLoras : Nat) (id : String) (inputs : Object) (words : Words) :
    Gives s configsDir templatesDir (generate maxLoras s id inputs words)
      ((s.config configsDir id).bind fun c =>
        (s.template configsDir templatesDir c.workflowFile).bind fun g =>
          c.generate maxLoras g inputs words) :=
  gives_withConfig id fun c => (gives_template c.workflowFile).then (fun _ => gives_done _)
    (fun l g l' h => by simp only [h])
    (fun l e l' h => by simp only [h])

end Loader

def Store.reply (maxLoras : Nat) (s : Store) (configsDir templatesDir : Path) : Operation → Reply
  | .load id => .config (s.config configsDir id)
  | .loadFrom dir id => .config (s.config dir id)
  | .template file => .graph (s.template configsDir templatesDir file)
  | .discover => .configs (s.discover configsDir)
  | .discoverIn dir => .configs (s.discover dir)
  | .listWorkflows => .summaries ((s.discover configsDir).bind fun found =>
      .ok (found.map Summary.ofConfig))
  | .parameters id => .parameters ((s.config configsDir id).bind fun c => .ok c.parameters)
  | .validate id inputs => .report ((s.config configsDir id).bind fun c =>
      .ok (c.check maxLoras inputs))
  | .generate id inputs words => .generation ((s.config configsDir id).bind fun c =>
      (s.template configsDir templatesDir c.workflowFile).bind fun g =>
        c.generate maxLoras g inputs words)
  | .invalidate | .shutdown | .invalidateConfig _ => .done

namespace Loader

variable {s : Store} {configsDir templatesDir : Path} {l : Loader}

private theorem Gives.replying {α : Type} {op : Loader → Outcome α} {r : Except Error α}
    (given : Gives s configsDir templatesDir op r) (reply : Except Error α → Reply)
    (h : Faithful s configsDir templatesDir l) :
    (replying reply (op l)).1 = reply r ∧
      Faithful s configsDir templatesDir (Loader.replying reply (op l)).2 :=
  ⟨congrArg reply (given l h).1, (given l h).2⟩

/-- Every operation gives the reply of the store, and caches nothing else. -/
theorem faithful_perform (maxLoras : Nat) (h : Faithful s configsDir templatesDir l)
    (op : Operation) :
    (l.perform maxLoras s op).1 = s.reply maxLoras configsDir templatesDir op ∧
      Faithful s configsDir templatesDir (l.perform maxLoras s op).2 := by
  cases op with
  | load id => exact (gives_load id).replying .config h
  | loadFrom dir id => exact (gives_loadFrom dir id).replying .config h
  | template file => exact (gives_template file).replying .graph h
  | discover => exact gives_discover.replying .configs h
  | discoverIn dir => exact (gives_discoverIn dir).replying .configs h
  | listWorkflows => exact gives_listWorkflows.replying .summaries h
  | parameters id =>
    exact (gives_withConfig id fun c => gives_done (.ok c.parameters)).replying .parameters h
  | validate id inputs =>
    exact (gives_withConfig id fun c => gives_done (.ok (c.check maxLoras inputs))).replying
      .report h
  | generate id inputs words =>
    exact (gives_generate maxLoras id inputs words).replying .generation h
  | invalidate => exact ⟨rfl, h.invalidate⟩
  | invalidateConfig id => exact ⟨rfl, h.invalidateConfig id⟩
  | shutdown => exact ⟨rfl, h.invalidate⟩

private theorem replies_of_faithful (maxLoras : Nat) (h : Faithful s configsDir templatesDir l)
    (ops : List Operation) :
    l.replies maxLoras s ops = ops.map (s.reply maxLoras configsDir templatesDir) := by
  induction ops generalizing l with
  | nil => rfl
  | cons op ops ih =>
    obtain ⟨given, faithful⟩ := faithful_perform maxLoras h op
    rw [replies, given, ih faithful, List.map_cons]

/-- Over a store that does not change, every run gives the same replies whatever the lifetimes of
the caches, and those of caches that are turned off. -/
theorem replies_eq_uncached (maxLoras : Nat) (s : Store) (configsDir templatesDir : Path)
    (ttl : Lifetimes) (ops : List Operation) :
    (fresh configsDir templatesDir ttl).replies maxLoras s ops =
      (fresh configsDir templatesDir ⟨0, 0, 0⟩).replies maxLoras s ops := by
  have cached := faithful_fresh s configsDir templatesDir ttl
  have uncached := faithful_fresh s configsDir templatesDir ⟨0, 0, 0⟩
  rw [replies_of_faithful maxLoras cached, replies_of_faithful maxLoras uncached]

end Loader

end WorkflowGraph
