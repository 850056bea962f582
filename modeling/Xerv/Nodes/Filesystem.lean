import Xerv.Loader.Validator
import Xerv.Nodes.PathSecurity

/-!
# The filesystem trigger (`triggers/filesystem/trigger.rs`)

The path is checked when the trigger is configured and once more when it starts. Each query goes to the file
system as it is then. What follows the installation of the watcher, and a watcher that cannot be installed, are
left out.
-/

namespace Xerv.Nodes
open Xerv.Lib Xerv.Lib.UnixPath

/-- What is read of the parameters of a trigger. -/
structure TriggerYaml extends Yaml where
  asBool : Value → Option Bool
  asSequence : Value → Option (List Value)

structure TriggerConfig (yaml : TriggerYaml) where
  id : String
  params : yaml.Value

namespace TriggerConfig
variable {yaml : TriggerYaml} (config : TriggerConfig yaml)

def getString (key : String) : Option String := (yaml.get config.params key).bind yaml.asStr

def getBool (key : String) : Option Bool := (yaml.get config.params key).bind yaml.asBool

end TriggerConfig

structure WatchedEvents where
  create : Bool
  modify : Bool
  remove : Bool
  deriving DecidableEq

namespace WatchedEvents

def all : WatchedEvents := ⟨true, true, true⟩

def add (events : WatchedEvents) : String → WatchedEvents
  | "create" => { events with create := true }
  | "modify" => { events with modify := true }
  | "remove" | "delete" => { events with remove := true }
  | "rename" => { events with create := true, remove := true }
  | _ => events

def ofConfig {yaml : TriggerYaml} (config : TriggerConfig yaml) : WatchedEvents :=
  match (yaml.get config.params "events").bind yaml.asSequence with
  | none => all
  | some events => (events.filterMap yaml.asStr).foldl add ⟨false, false, false⟩

end WatchedEvents

structure FilesystemTrigger where
  id : String
  path : Bytes
  recursive : Bool
  events : WatchedEvents
  deriving DecidableEq

/-- What the watcher is installed on. -/
structure Watch where
  path : Bytes
  recursive : Bool
  deriving DecidableEq

namespace FilesystemTrigger

def validatePathSyntax (path : List Char) : Except XervError Unit :=
  if ['.', '.'] <:+: path then .error (pathError "Path traversal ('..') is not allowed")
  else if '\x00' ∈ path then .error (pathError "Path contains null bytes")
  else if ["/etc", "/root", "/proc", "/sys", "/dev"].any fun dir =>
      (dir.toList ++ ['/']).isPrefixOf path || path == dir.toList then
    .error (pathError ("Path '" ++ String.ofList path ++ "' is in a sensitive system directory"))
  else .ok ()

def ofPath {yaml : TriggerYaml} (config : TriggerConfig yaml) (path : String) : FilesystemTrigger where
  id := config.id
  path := utf8 path
  recursive := (config.getBool "recursive").getD false
  events := .ofConfig config

section Checks
variable (env : PathEnv)

/-- `atExists`, `atCheck`: the file system at the two queries. -/
def checkConfigured (security : PathSecurityConfig) (path : String) (atExists atCheck : Files) :
    Except XervError Unit :=
  if atExists.pathExists (utf8 path) then security.validatePath env atCheck (utf8 path)
  else validatePathSyntax path.toList

def fromConfigWithSecurity {yaml : TriggerYaml} (security : PathSecurityConfig) (config : TriggerConfig yaml)
    (atExists atCheck : Files) : Except XervError FilesystemTrigger :=
  match config.getString "path" with
  | none => .error (pathError "Filesystem trigger requires 'path' parameter")
  | some path => (checkConfigured env security path atExists atCheck).map fun _ => ofPath config path

/-- `from_config`, with the policy of the process. -/
def fromConfig {yaml : TriggerYaml} (globalPathSecurity : PathSecurityConfig) (config : TriggerConfig yaml)
    (atExists atCheck : Files) : Except XervError FilesystemTrigger :=
  fromConfigWithSecurity env globalPathSecurity config atExists atCheck

/-- `start`, up to the installation of the watcher. -/
def start (globalPathSecurity : PathSecurityConfig) (trigger : FilesystemTrigger) (running : Bool)
    (atExists atCheck : Files) : Except XervError Watch :=
  if running then .error (.configValue "trigger" "Trigger is already running")
  else if ¬ atExists.pathExists trigger.path then
    .error (pathError ("Path does not exist: " ++ display trigger.path))
  else (globalPathSecurity.validatePath env atCheck trigger.path).map fun _ => ⟨trigger.path, trigger.recursive⟩

end Checks

end FilesystemTrigger

/-! ### The two checks -/

theorem map_unit_ok_iff {α : Type} {x : Except XervError Unit} {a b : α} :
    (x.map fun _ => a) = .ok b ↔ x = .ok () ∧ b = a := by
  cases x with
  | error e => exact iff_of_false nofun nofun
  | ok u => exact ⟨fun h => ⟨rfl, (Except.ok.inj h).symm⟩, fun h => congrArg Except.ok h.2.symm⟩

theorem validatePath_ok_iff {env : PathEnv} {config : PathSecurityConfig} {files : Files} {path : Bytes} :
    config.validatePath env files path = .ok () ↔
      ∃ canonical, files.canonicalize path = .ok canonical ∧ config.validateCanonical env canonical = .ok () := by
  unfold PathSecurityConfig.validatePath
  cases files.canonicalize path with
  | error e => exact iff_of_false nofun nofun
  | ok canonical => exact ⟨fun h => ⟨canonical, rfl, h⟩, fun ⟨_, heq, h⟩ => Except.ok.inj heq ▸ h⟩

namespace FilesystemTrigger

section Accepted
variable {env : PathEnv} {yaml : TriggerYaml} {security : PathSecurityConfig} {config : TriggerConfig yaml}
  {atExists atCheck : Files} {trigger : FilesystemTrigger}

theorem fromConfig_ok_iff : fromConfigWithSecurity env security config atExists atCheck = .ok trigger ↔
    ∃ path, config.getString "path" = some path ∧ checkConfigured env security path atExists atCheck = .ok () ∧
      trigger = ofPath config path := by
  unfold fromConfigWithSecurity
  cases config.getString "path" with
  | none => exact iff_of_false nofun nofun
  | some path =>
    refine map_unit_ok_iff.trans ⟨fun h => ⟨path, rfl, h⟩, ?_⟩
    rintro ⟨_, heq, h⟩
    cases heq
    exact h

theorem start_ok_iff {globalPathSecurity : PathSecurityConfig} {running : Bool} {watch : Watch} :
    start env globalPathSecurity trigger running atExists atCheck = .ok watch ↔
      running = false ∧ atExists.pathExists trigger.path = true ∧
        globalPathSecurity.validatePath env atCheck trigger.path = .ok () ∧
          watch = ⟨trigger.path, trigger.recursive⟩ := by
  unfold start
  cases running with
  | true => exact iff_of_false nofun nofun
  | false =>
    rw [if_neg Bool.false_ne_true, and_iff_right rfl]
    by_cases hexists : atExists.pathExists trigger.path = true
    · rw [if_neg (not_not.mpr hexists), map_unit_ok_iff, and_iff_right hexists]
    · rw [if_pos hexists]
      exact iff_of_false nofun fun h => hexists h.1

theorem checkConfigured_ok {path : String} (h : checkConfigured env security path atExists atCheck = .ok ()) :
    validatePathSyntax path.toList = .ok () ∨ ∃ canonical, security.validateCanonical env canonical = .ok () := by
  unfold checkConfigured at h
  split at h
  · obtain ⟨canonical, -, hok⟩ := validatePath_ok_iff.mp h
    exact .inr ⟨canonical, hok⟩
  · exact .inl h

end Accepted

def emptyFiles : Files := ⟨fun _ => false, fun _ => .error "No such file or directory (os error 2)"⟩

theorem exists_checkConfigured {env : PathEnv} {security : PathSecurityConfig} {path : String}
    (h : validatePathSyntax path.toList = .ok () ∨ ∃ canonical, security.validateCanonical env canonical = .ok ()) :
    ∃ files, checkConfigured env security path files files = .ok () := by
  rcases h with hsyntax | ⟨canonical, hok⟩
  · exact ⟨emptyFiles, hsyntax⟩
  · exact ⟨resolving canonical, hok⟩

/-- For every policy, every global policy and every configuration: whatever the file system is at each query, the
policy permits the path at the check of each start that gets to the watcher, if and only if it permits every path
that the global policy permits or the configuration is never accepted. -/
theorem watched_path_permitted_iff (env : PathEnv) (globalPathSecurity security : PathSecurityConfig)
    {yaml : TriggerYaml} (config : TriggerConfig yaml) :
    (∀ trigger running watch atConfig atConfigCheck atStart atStartCheck,
        fromConfigWithSecurity env security config atConfig atConfigCheck = .ok trigger →
        start env globalPathSecurity trigger running atStart atStartCheck = .ok watch →
        security.validatePath env atStartCheck trigger.path = .ok ()) ↔
      ∀ path, config.getString "path" = some path →
        (validatePathSyntax path.toList = .ok () ∨ ∃ canonical, security.validateCanonical env canonical = .ok ()) →
        ∀ canonical, globalPathSecurity.validateCanonical env canonical = .ok () →
          security.validateCanonical env canonical = .ok () := by
  constructor
  · intro hall path hpath haccepted canonical hglobal
    obtain ⟨files, hchecked⟩ := exists_checkConfigured haccepted
    -- once accepted, the path comes to be the one that only the global policy permits
    have hstart : start env globalPathSecurity (ofPath config path) false (resolving canonical) (resolving canonical) =
        .ok ⟨utf8 path, (ofPath config path).recursive⟩ := start_ok_iff.mpr ⟨rfl, rfl, hglobal, rfl⟩
    exact hall _ _ _ files files _ _ (fromConfig_ok_iff.mpr ⟨path, hpath, hchecked, rfl⟩) hstart
  · intro hpermits trigger running watch atConfig atConfigCheck atStart atStartCheck hconfig hstart
    obtain ⟨path, hpath, hchecked, rfl⟩ := fromConfig_ok_iff.mp hconfig
    obtain ⟨-, -, hruntime, -⟩ := start_ok_iff.mp hstart
    obtain ⟨canonical, hcanonical, hglobal⟩ := validatePath_ok_iff.mp hruntime
    exact validatePath_ok_iff.mpr
      ⟨canonical, hcanonical, hpermits path hpath (checkConfigured_ok hchecked) canonical hglobal⟩

def pathYaml : TriggerYaml where
  Value := String
  get v key := if key = "path" then some v else none
  asI64 _ := none
  asStr := some
  asBool _ := none
  asSequence _ := none

def watchTmp : TriggerConfig pathYaml := ⟨"watcher", "/tmp/x"⟩

def tmpPath : CanonicalPath := ⟨["tmp", "x"].map utf8, by decide⟩

def onlyDataIn : PathSecurityConfig := ⟨[utf8 "/data/in"], [], false⟩

/-- A path that is created after the configuration is watched outside the whitelist. -/
theorem late_path_watched :
    fromConfigWithSecurity plainEnv onlyDataIn watchTmp emptyFiles emptyFiles = .ok (ofPath watchTmp "/tmp/x") ∧
      start plainEnv .default (ofPath watchTmp "/tmp/x") false (resolving tmpPath) (resolving tmpPath) =
        .ok ⟨utf8 "/tmp/x", false⟩ ∧
      onlyDataIn.validatePath plainEnv (resolving tmpPath) (utf8 "/tmp/x") ≠ .ok () := by
  decide

end FilesystemTrigger

end Xerv.Nodes
