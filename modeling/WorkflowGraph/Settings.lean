/- Settings: where documents lie, how long caches keep them, and limits. -/

import WorkflowGraph.Inputs.Validation
import WorkflowGraph.Store.Loader
import WorkflowGraph.Toml.Document

set_option autoImplicit false
set_option relaxedAutoImplicit false

/-!
A settings file has a table for each group of settings. What it leaves out has its default, and
variables of the environment go before both. A file that is asked for has to be sound, while one at
the default place is used only if it is.
-/

namespace WorkflowGraph

abbrev Environment := String → Option String

/-- The directories of documents, as texts. -/
structure Directories where
  configs : String
  /-- Where templates lie, if not beside the configs. -/
  templates? : Option String
deriving DecidableEq

namespace Directories

def default : Directories := ⟨"workflow_configs", none⟩

def templates (d : Directories) : String := d.templates?.getD d.configs

end Directories

/-- The lifetimes of what is cached, in seconds, and how many entries each cache may have. -/
structure CacheLimits where
  configs : Nat
  templates : Nat
  discovery : Nat
  capacity : Nat
deriving DecidableEq

namespace CacheLimits

def default : CacheLimits := ⟨300, 300, 300, 256⟩

def withLifetime (seconds : Nat) (c : CacheLimits) : CacheLimits :=
  { c with configs := seconds, templates := seconds, discovery := seconds }

end CacheLimits

structure Settings where
  directories : Directories
  cache : CacheLimits
  /-- The number of loras beyond which a warning is due. -/
  maxLoras : Nat
deriving DecidableEq

/-- The groups that a settings file has. -/
structure SettingsGroups where
  directories? : Option Directories
  cache? : Option CacheLimits
  maxLoras? : Option Nat
deriving DecidableEq

namespace Settings

def default : Settings := ⟨.default, .default, defaultMaxLoras⟩

/-! Reading. -/

/-- A group of settings by name or, in an array, by position; there is no harm in further items. -/
def group {α : Type} (members : List Record.Member) (assemble : Object → Except Fault α) :
    Record.Reader α
  | .arr vs => Record.closed members assemble (.arr (vs.take members.length))
  | v => Record.closed members assemble v

def configsSlot : Record.Slot String := .named "configs_dir" Record.text
def templatesSlot : Record.Slot (Option String) :=
  .named "templates_dir" fun v => (Record.text v).map some

def readDirectories : Record.Reader Directories :=
  group [configsSlot.member, templatesSlot.member] fun doc => do
    return {
      configs := ← configsSlot.orElse Directories.default.configs doc
      templates? := ← templatesSlot.orElse Directories.default.templates? doc }

def configLifetimeSlot : Record.Slot Nat := .named "config_ttl_secs" Record.natural
def templateLifetimeSlot : Record.Slot Nat := .named "template_ttl_secs" Record.natural
def discoveryLifetimeSlot : Record.Slot Nat := .named "discovery_ttl_secs" Record.natural
def capacitySlot : Record.Slot Nat := .named "max_capacity" Record.natural

def readCache : Record.Reader CacheLimits :=
  group [configLifetimeSlot.member, templateLifetimeSlot.member, discoveryLifetimeSlot.member,
      capacitySlot.member] fun doc => do
    return {
      configs := ← configLifetimeSlot.orElse CacheLimits.default.configs doc
      templates := ← templateLifetimeSlot.orElse CacheLimits.default.templates doc
      discovery := ← discoveryLifetimeSlot.orElse CacheLimits.default.discovery doc
      capacity := ← capacitySlot.orElse CacheLimits.default.capacity doc }

def maxLorasSlot : Record.Slot Nat := .named "max_loras" Record.natural

def readValidation : Record.Reader Nat :=
  group [maxLorasSlot.member] (maxLorasSlot.orElse defaultMaxLoras)

def directoriesSlot : Record.Slot Directories := .named "paths" readDirectories
def cacheSlot : Record.Slot CacheLimits := .named "cache" readCache
def validationSlot : Record.Slot Nat := .named "validation" readValidation

def groups : List Record.Member :=
  [directoriesSlot.member, cacheSlot.member, validationSlot.member]

def read : Record.Reader Settings :=
  Record.open_ groups fun doc => do
    return {
      directories := ← directoriesSlot.orElse .default doc
      cache := ← cacheSlot.orElse .default doc
      maxLoras := ← validationSlot.orElse defaultMaxLoras doc }

def given? {α : Type} (s : Record.Slot α) (doc : Object) : Except Fault (Option α) :=
  match s.find? doc with
  | some v => (s.read v).map some
  | none => .ok none

def readGroups : Record.Reader SettingsGroups :=
  Record.open_ groups fun doc => do
    return {
      directories? := ← given? directoriesSlot doc
      cache? := ← given? cacheSlot doc
      maxLoras? := ← given? validationSlot doc }

def overlay (s : Settings) (g : SettingsGroups) : Settings where
  directories := g.directories?.getD s.directories
  cache := g.cache?.getD s.cache
  maxLoras := g.maxLoras?.getD s.maxLoras

/-- Settings with what variables of the environment say. A variable that should be a number and is
not counts for nothing. -/
def withEnvironment (env : Environment) (s : Settings) : Settings :=
  let number? (name : String) : Option Nat := (env name).bind fun t => nat64OfText? t.toList
  { directories := {
      configs := (env "GRAPHSMITH_CONFIGS_DIR").getD s.directories.configs
      templates? := (env "GRAPHSMITH_TEMPLATES_DIR").or s.directories.templates? }
    cache := match number? "GRAPHSMITH_CACHE_TTL_SECS" with
      | some seconds => s.cache.withLifetime seconds
      | none => s.cache
    maxLoras := (number? "GRAPHSMITH_MAX_LORAS").getD s.maxLoras }

/-! Files. -/

def ofText (text : String) : Except String Settings :=
  match Toml.parse? text with
  | none => .error "the text is not a TOML document"
  | some doc =>
    match read (.obj doc) with
    | .ok s => .ok s
    | .error fault => .error fault.message

def fromFile (env : Environment) (store : Store) (file : String) : Except Error Settings := do
  match ofText (← store.text (Path.exactly file)) with
  | .ok s => return s.withEnvironment env
  | .error problem => .error (.settings (file ++ ": " ++ problem))

def groupsIn? (store : Store) (file : Path) : Option SettingsGroups := do
  let text ← (store.read file).toOption
  let doc ← Toml.parse? text
  (readGroups (.obj doc)).toOption

/-- The default settings with what the file at the default place says, if it is there and sound. -/
def load (env : Environment) (store : Store) (file : Path) : Settings :=
  let s := match groupsIn? store file with
    | some g => default.overlay g
    | none => default
  s.withEnvironment env

/-- The default place of the settings file, under the directory of the user's settings as far as the
environment names one. -/
def defaultFile (env : Environment) : Path :=
  let home := ((env "HOME").filter (· ≠ "")).map fun h => (Path.ofText h).child ".config"
  let chosen := ((env "XDG_CONFIG_HOME").map Path.ofText).filter Path.absolute
  match chosen.or home with
  | some dir => (dir.child "graphsmith").child "config.toml"
  | none => (Path.ofText ".graphsmith").child "config.toml"

/-! Use. -/

def loader (s : Settings) : Loader :=
  .fresh (Path.ofText s.directories.configs) (Path.ofText s.directories.templates)
    ⟨s.cache.configs, s.cache.templates, s.cache.discovery⟩

def toValue (s : Settings) : Value :=
  .obj [
    ("paths", .obj [("configs_dir", .str s.directories.configs),
      ("templates_dir", .ofText? s.directories.templates?)]),
    ("cache", .obj [("config_ttl_secs", .ofNat s.cache.configs),
      ("template_ttl_secs", .ofNat s.cache.templates),
      ("discovery_ttl_secs", .ofNat s.cache.discovery),
      ("max_capacity", .ofNat s.cache.capacity)]),
    ("validation", .obj [("max_loras", .ofNat s.maxLoras)])]

end Settings

end WorkflowGraph
