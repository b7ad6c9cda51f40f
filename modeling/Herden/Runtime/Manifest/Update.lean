import Herden.Lib.Fallible
import Herden.Runtime.Manifest.Rules

/-!
# `Herden.Runtime.Manifest.Update`: cached manifests and how they are loaded

Embedding of `process_agent_manifest` of `detect/manifest_update.rs` with what it reads and writes,
and of `load_manifest_uncached` of `detect/manifest.rs`. A disk holds the bytes of each file. Every
write may fail, as `Outcomes` says for one call, and a failed write may leave a temporary file; a
file that is there can be read. A failed sync of the directory is only logged, and is left out.

`Setting` holds what is outside: the `toml` crate with the types it fills, the places of files, and
the texts of the bundled manifests. A panic is `none`.
-/

namespace Herden.Runtime.Manifest.Update

open Herden.Lib
open Herden.Lib.Text (utf8 fromUtf8)
open Herden.Runtime.Detect (Agent agentLabel parseAgentLabel)
open Herden.Runtime.Manifest.Version (ManifestVersion)
open Herden.Runtime.Manifest.Rules

/-- The bytes of each file. -/
abbrev Disk := Path → Option (List UInt8)

structure Setting where
  engine : Engine
  /-- `toml::from_str::<AgentManifest>`. -/
  toml : Text → Except Text AgentManifest
  stateDir : Path
  configDir : Path
  bundledManifests : List (Text × Text)

def manifestEngineVersion : Nat := 3

/-- `path.display()`. -/
def display (path : Path) : Text := path.flatMap (['/'] ++ ·)

/-- `fs::read_to_string`. -/
def readToString (disk : Disk) (path : Path) : Except Text Text :=
  match disk path with
  | none => .error "No such file or directory (os error 2)".toList
  | some bytes =>
      match fromUtf8 bytes with
      | none => .error "stream did not contain valid UTF-8".toList
      | some text => .ok text

def stateRoot (setting : Setting) : Path := setting.stateDir ++ ["agent-detection".toList]

def manifestFile (agent : Agent) : Text := (agentLabel agent).toList ++ ".toml".toList

def remoteManifestPath (setting : Setting) (agent : Agent) : Path :=
  stateRoot setting ++ ["remote".toList, manifestFile agent]

def overridePath (setting : Setting) (agent : Agent) : Path :=
  setting.configDir ++ ["agent-detection".toList, manifestFile agent]

/-! ### Parsing -/

structure ParsedRemoteManifest where
  manifest : AgentManifest
  version : ManifestVersion

def parseManifest (setting : Setting) (content : Text) : Except Text AgentManifest := do
  let manifest ← setting.toml content
  validateManifest setting.engine manifest
  return manifest

def manifestMatchesAgent (manifest : AgentManifest) (agent : Agent) : Bool :=
  let id := (agentLabel agent).toList
  manifest.id = id || manifest.aliases.any (· = id) ||
    parseAgentLabel (String.ofList manifest.id) = some agent ||
    manifest.aliases.any fun label => parseAgentLabel (String.ofList label) = some agent

def parseRemoteManifestForAgent (setting : Setting) (agent : Agent) (content : Text) :
    Except Text ParsedRemoteManifest := do
  let manifest ← parseManifest setting content
  if !manifestMatchesAgent manifest agent then
    .error ("manifest id ".toList ++ manifest.id ++ " does not match ".toList ++
      (agentLabel agent).toList)
  else
    match manifest.version with
    | none => .error "remote manifest must include version".toList
    | some version =>
        match manifest.minEngineVersion with
        | none => .error "remote manifest must include min_engine_version".toList
        | some minEngineVersion =>
            if manifestEngineVersion < minEngineVersion then
              .error ("manifest requires engine ".toList ++ number minEngineVersion ++
                ", current engine is ".toList ++ number manifestEngineVersion)
            else return ⟨manifest, version⟩

/-! ### Updates -/

/-- How the writes of a call end. -/
structure Outcomes where
  createDirAll : Except Text Unit
  createDirAllAgain : Except Text Unit
  create : Except Text Unit
  /-- What has been written when it fails. -/
  writeAll : Except (Text × List UInt8) Unit
  rename : Except Text Unit
  /-- A temporary file can be removed. -/
  removeFile : Bool
  processId : Nat
  nowNanos : Nat

/-- An operation with a given outcome. -/
def attempt (outcome : Except Text Unit) : Fallible Disk Text Unit := fun disk => (outcome, disk)

def setFile (path : Path) (bytes : Option (List UInt8)) (disk : Disk) : Disk :=
  fun other => if other = path then bytes else disk other

def removeTemporary (outcomes : Outcomes) (path : Path) : Fallible Disk Text Unit :=
  if outcomes.removeFile then .modify (setFile path none) else pure ()

def temporaryPath (outcomes : Outcomes) (path : Path) : Path :=
  path.dropLast ++ [['.'] ++ path.getLast?.getD "manifest".toList ++ ['.'] ++
    number outcomes.processId ++ ['.'] ++ number outcomes.nowNanos ++ ".tmp".toList]

def atomicWrite (outcomes : Outcomes) (path : Path) (bytes : List UInt8) :
    Fallible Disk Text Unit := do
  if path = [] then .throw ("path ".toList ++ display path ++ " has no parent".toList)
  else
    attempt outcomes.createDirAllAgain
    let tmpPath := temporaryPath outcomes path
    attempt outcomes.create
    .modify (setFile tmpPath (some []))
    match outcomes.writeAll with
    | .error (err, written) =>
        .modify (setFile tmpPath (some written))
        removeTemporary outcomes tmpPath
        .throw err
    | .ok () =>
        .modify (setFile tmpPath (some bytes))
        match outcomes.rename with
        | .error err =>
            removeTemporary outcomes tmpPath
            .throw err
        | .ok () => .modify fun disk => setFile tmpPath none (setFile path (disk tmpPath) disk)

def cachedRemoteVersion (setting : Setting) (agent : Agent) (disk : Disk) :
    Option ManifestVersion := do
  let content ← (readToString disk (remoteManifestPath setting agent)).toOption
  let parsed ← (parseRemoteManifestForAgent setting agent content).toOption
  return parsed.version

def commitRemoteManifest (setting : Setting) (outcomes : Outcomes) (agent : Agent)
    (content : Text) : Fallible Disk Text Unit := do
  let path := remoteManifestPath setting agent
  if path = [] then
    .throw ("remote manifest path ".toList ++ display path ++ " has no parent".toList)
  else
    attempt outcomes.createDirAll
    atomicWrite outcomes path (utf8 content)

structure ManifestUpdateCommit where
  agent : Agent
  version : ManifestVersion

/-- `commit_remote_manifest` and the commit that is returned. -/
def commitAndReport (setting : Setting) (outcomes : Outcomes) (agent : Agent) (content : Text)
    (version : ManifestVersion) : Fallible Disk Text (Option ManifestUpdateCommit) := do
  commitRemoteManifest setting outcomes agent content
  return some ⟨agent, version⟩

def processAgentManifest (setting : Setting) (outcomes : Outcomes) (agent : Agent)
    (content : Text) : Fallible Disk Text (Option ManifestUpdateCommit) := do
  match parseRemoteManifestForAgent setting agent content with
  | .error err => .throw err
  | .ok parsed =>
      let disk ← .get
      match cachedRemoteVersion setting agent disk with
      | none => commitAndReport setting outcomes agent content parsed.version
      | some current =>
          match parsed.version.cmp current with
          | .lt =>
              .throw ("remote version ".toList ++ parsed.version.text ++
                " is older than cached ".toList ++ current.text)
          | .eq =>
              let committed :=
                (readToString disk (remoteManifestPath setting agent)).toOption.getD []
              if committed ≠ content then
                .throw ("remote version ".toList ++ parsed.version.text ++
                  " changed content without a version bump".toList)
              else return none
          | .gt => commitAndReport setting outcomes agent content parsed.version

/-! ### Loading -/

variable (setting : Setting)

/-- The inner `none` is that of the source. -/
def bundledManifest (agent : Agent) : Option (Option AgentManifest) :=
  match setting.bundledManifests.find? (·.1 = (agentLabel agent).toList) with
  | none => some none
  | some (_, content) => (parseManifest setting content).toOption.map some

def readOverrideManifest (disk : Disk) (path : Path) : Except Text AgentManifest := do
  let content ← readToString disk path
  parseManifest setting content

/-- The inner `none` is that of the source. -/
def readRemoteManifest (agent : Agent) (bundled : AgentManifest) (disk : Disk) :
    Option (Option (LoadedManifest setting.engine.Regex)) := do
  let path := remoteManifestPath setting agent
  if (disk path).isNone then return none
  else
    let read : Except Text AgentManifest := do
      let content ← readToString disk path
      let parsed ← parseRemoteManifestForAgent setting agent content
      return parsed.manifest
    let ignored := "ignored remote manifest ".toList ++ display path ++ " because ".toList
    match read with
    | .error err =>
        return some (← bundledLoadedManifest setting.engine bundled
          (some (ignored ++ "it could not be loaded: ".toList ++ err)) none false)
    | .ok manifest =>
        let version := (manifest.version.map (·.text)).getD "unknown".toList
        let older : Option (ManifestVersion × ManifestVersion) := do
          let remoteVersion ← manifest.version
          let bundledVersion ← bundled.version
          if remoteVersion.cmp bundledVersion = .lt then some (remoteVersion, bundledVersion)
          else none
        match older with
        | some (remoteVersion, bundledVersion) =>
            return some (← bundledLoadedManifest setting.engine bundled
              (some (ignored ++ "cached version ".toList ++ remoteVersion.text ++
                " is older than bundled ".toList ++ bundledVersion.text))
              (some remoteVersion.text) false)
        | none =>
            match loadedManifest setting.engine manifest (.remote path version) none none false with
            | .ok loaded => return some loaded
            | .error err =>
                return some (← bundledLoadedManifest setting.engine bundled
                  (some (ignored ++ "it could not be compiled: ".toList ++ err)) none false)

/-- The remote manifest, or the bundled one. -/
def remoteOrBundled (remote : Option (LoadedManifest setting.engine.Regex))
    (bundled : AgentManifest) (cachedRemoteVersion : Option Text)
    (localOverrideShadowingRemote : Bool) : Option (LoadedManifest setting.engine.Regex) :=
  match remote with
  | some loaded => some loaded
  | none =>
      bundledLoadedManifest setting.engine bundled none cachedRemoteVersion
        localOverrideShadowingRemote

def loadManifestUncached (agent : Agent) (disk : Disk) :
    Option (Option (LoadedManifest setting.engine.Regex)) := do
  match ← bundledManifest setting agent with
  | none => return none
  | some bundled =>
      let remote ← readRemoteManifest setting agent bundled disk
      let cachedRemoteVersion := remote.bind fun loaded =>
        if loaded.cachedRemoteVersion.isSome then loaded.cachedRemoteVersion
        else
          match loaded.source with
          | .remote _ version => some version
          | _ => none
      let path := overridePath setting agent
      let shadowing := (disk path).isSome && cachedRemoteVersion.isSome
      let remote := remote.map fun loaded =>
        { loaded with
          cachedRemoteVersion := cachedRemoteVersion
          localOverrideShadowingRemote := shadowing }
      let fallback := remoteOrBundled setting remote bundled cachedRemoteVersion shadowing
      let ignored := "ignored override ".toList ++ display path ++ " because ".toList
      if (disk path).isNone then return some (← fallback)
      else
        match readOverrideManifest setting disk path with
        | .ok manifest =>
            if manifestMatchesAgent manifest agent then
              match loadedManifest setting.engine manifest (.override path) none
                cachedRemoteVersion shadowing with
              | .ok loaded => return some loaded
              | .error err =>
                  return some { ← fallback with
                    warning := some (ignored ++ "it could not be compiled: ".toList ++ err) }
            else
              return some { ← fallback with
                warning := some (ignored ++ "manifest id ".toList ++ manifest.id ++
                  " does not match ".toList ++ (agentLabel agent).toList) }
        | .error err =>
            return some { ← fallback with
              warning := some (ignored ++ "it could not be loaded: ".toList ++ err) }

end Herden.Runtime.Manifest.Update
