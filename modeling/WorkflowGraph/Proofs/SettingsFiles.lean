/- Settings files: reading one that is asked for, and reading one at the default place. -/

import WorkflowGraph.Settings

set_option autoImplicit false
set_option relaxedAutoImplicit false

/-!
A file that is asked for is read into settings with a default for every member that it leaves out. A
file at the default place is read into the groups that it has, which then replace whole groups of the
default settings. A group has the same defaults either way, so the settings are the same, and one way
fails where the other does.
-/

namespace WorkflowGraph

namespace Record

private theorem map_open_ {α β : Type} (members : List Member) (assemble : Object → Except Fault α)
    (f : α → β) (v : Value) :
    (open_ members assemble v).map f = open_ members (fun doc => (assemble doc).map f) v := by
  cases v with
  | obj doc =>
    change ((check members [] doc).bind fun _ => assemble doc).map f =
      (check members [] doc).bind fun _ => (assemble doc).map f
    cases check members [] doc <;> rfl
  | _ => rfl

end Record

namespace Settings

private theorem orElse_eq_map_given? {α : Type} (s : Record.Slot α) (default : α) (doc : Object) :
    s.orElse default doc = (given? s doc).map fun x? => x?.getD default := by
  rw [Record.Slot.orElse, given?]
  cases s.find? doc with
  | none => rfl
  | some v =>
    dsimp only
    cases s.read v <;> rfl

private theorem read_eq_map_readGroups (v : Value) :
    read v = (readGroups v).map default.overlay := by
  rw [readGroups, Record.map_open_, read]
  congr 1
  funext doc
  rw [orElse_eq_map_given?, orElse_eq_map_given?, orElse_eq_map_given?]
  cases given? directoriesSlot doc with
  | error fault => rfl
  | ok directories? =>
    cases given? cacheSlot doc with
    | error fault => rfl
    | ok cache? => cases given? validationSlot doc <;> rfl

section Text

variable {store : Store} {text : String}

private theorem fromFile_of_read {file : String} (there : store.read (Path.exactly file) = .ok text)
    (env : Environment) :
    fromFile env store file = match ofText text with
      | .ok s => .ok (s.withEnvironment env)
      | .error problem => .error (.settings (file ++ ": " ++ problem)) := by
  have found : store.text (Path.exactly file) = .ok text := by rw [Store.text, there]
  rw [fromFile, found]
  dsimp only [Bind.bind, Except.bind]
  cases ofText text <;> rfl

private theorem load_of_read {place : Path} (there : store.read place = .ok text)
    (env : Environment) :
    load env store place = (((ofText text).toOption).getD default).withEnvironment env := by
  have groups : groupsIn? store place =
      (Toml.parse? text).bind fun doc => (readGroups (.obj doc)).toOption := by
    rw [groupsIn?, there]
    rfl
  rw [load, groups, ofText]
  cases Toml.parse? text with
  | none => rfl
  | some doc =>
    rw [Option.bind_some]
    dsimp only
    rw [read_eq_map_readGroups]
    cases readGroups (.obj doc) <;> rfl

end Text

/-- A file that is asked for and a file of the same text at the default place, wherever that is, give
the same settings, variables of the environment included. What is wrong with the text is reported of
the one, and of the other nothing is used: there are the default settings with what the variables
say. -/
theorem loaders_agree (env : Environment) {text file : String} {place : Path}
    {asked placed : Store} (there : asked.read (Path.exactly file) = .ok text)
    (inPlace : placed.read place = .ok text) :
    (∀ s, fromFile env asked file = .ok s → load env placed place = s) ∧
      ∀ e, fromFile env asked file = .error e →
        (∃ problem, ofText text = .error problem ∧ e = .settings (file ++ ": " ++ problem)) ∧
          load env placed place = Settings.default.withEnvironment env := by
  rw [fromFile_of_read there, load_of_read inPlace]
  cases made : ofText text with
  | ok s =>
    constructor
    · rintro _ ⟨⟩
      rfl
    · exact fun _ failed => nomatch failed
  | error problem =>
    constructor
    · exact fun _ succeeded => nomatch succeeded
    · rintro _ ⟨⟩
      exact ⟨⟨problem, rfl, rfl⟩, rfl⟩

def shellVariables : Environment := fun name =>
  Assoc.get? name [("HOME", "/home/ann"), ("GRAPHSMITH_CACHE_TTL_SECS", "soon"),
    ("GRAPHSMITH_MAX_LORAS", "9")]

/-- A store that holds a text as a settings file, and once more at the default place. -/
def settingsStore (text : String) : Store :=
  .ofFiles [(Path.exactly "settings.toml", text), (defaultFile shellVariables, text)] [] []

private theorem settingsStore_read (text : String) :
    (settingsStore text).read (Path.exactly "settings.toml") = .ok text ∧
      (settingsStore text).read (defaultFile shellVariables) = .ok text := by
  have apart : defaultFile shellVariables ≠ Path.exactly "settings.toml" := by decide
  refine ⟨?_, ?_⟩
  · simp [settingsStore, Store.ofFiles, Assoc.get?]
  · simp [settingsStore, Store.ofFiles, Assoc.get?, apart]

def lifetimeText : String := "[cache]\nconfig_ttl_secs = 10\n"

def brokenText : String := "[cache\n"

private theorem ofText_lifetimeText :
    ofText lifetimeText = .ok ⟨.default, ⟨10, 300, 300, 256⟩, 5⟩ := by
  have sound : (ofText lifetimeText).toOption = some ⟨.default, ⟨10, 300, 300, 256⟩, 5⟩ := by
    decide +kernel
  cases made : ofText lifetimeText with
  | error problem => exact nomatch made ▸ sound
  | ok s =>
    rw [made] at sound
    exact congrArg Except.ok (Option.some.inj sound)

private theorem exists_ofText_brokenText : ∃ problem, ofText brokenText = .error problem := by
  have unsound : (ofText brokenText).toOption = none := by decide +kernel
  cases made : ofText brokenText with
  | error problem => exact ⟨problem, rfl⟩
  | ok s => exact nomatch made ▸ unsound

/-- Of either file the one lifetime is used and the others are the default. At the default place the
broken text counts for nothing, and the variable that spells a number counts all the same. -/
theorem lifetime_from_either_file :
    (∃ s, fromFile shellVariables (settingsStore lifetimeText) "settings.toml" = .ok s ∧
        load shellVariables (settingsStore lifetimeText) (defaultFile shellVariables) = s ∧
        s = ⟨.default, ⟨10, 300, 300, 256⟩, 9⟩) ∧
      load shellVariables (settingsStore brokenText) (defaultFile shellVariables) =
        ⟨.default, .default, 9⟩ := by
  constructor
  · obtain ⟨there, inPlace⟩ := settingsStore_read lifetimeText
    have read := fromFile_of_read there shellVariables
    rw [ofText_lifetimeText] at read
    exact ⟨_, read, (loaders_agree shellVariables there inPlace).1 _ read, rfl⟩
  · obtain ⟨there, inPlace⟩ := settingsStore_read brokenText
    have read := fromFile_of_read there shellVariables
    obtain ⟨problem, unsound⟩ := exists_ofText_brokenText
    rw [unsound] at read
    exact ((loaders_agree shellVariables there inPlace).2 _ read).2

end Settings

end WorkflowGraph
