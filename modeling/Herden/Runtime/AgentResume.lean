import Herden.Runtime.Detect

/-!
# `Herden.Runtime.AgentResume`: agent sessions and how to resume them

Embedding of the session types of `runtime/src/agent_resume.rs` and of `plan`, the command line
that resumes a session, as a Unix build compiles it (`cfg!(windows)` is false).
-/

namespace Herden.Runtime.AgentResume

open Herden.Runtime.Detect (strip?)

inductive AgentSessionRefKind where
  | id
  | path
deriving DecidableEq

structure AgentSessionRef where
  kind : AgentSessionRefKind
  value : String
deriving DecidableEq

structure PersistedAgentSession where
  source : String
  agent : String
  sessionRef : AgentSessionRef
deriving DecidableEq

/-- A resume command reported by the agent itself. -/
structure ReportedAgentResume where
  source : String
  agent : String
  argv : List String
deriving DecidableEq

structure AgentResumePlan where
  agent : String
  argv : List String
  dedupeKey : String

def agentSourceKind (source : String) : Option String :=
  ((strip? "herden:".toList source.toList).or (strip? "herdr:".toList source.toList)).map
    String.ofList

def isOfficialAgentSource (source agent : String) : Bool :=
  match agentSourceKind source, agent with
  | some "claude", "claude" => true
  | some "codex", "codex" => true
  | some "copilot", "copilot" => true
  | some "devin", "devin" => true
  | some "droid", "droid" => true
  | some "kimi", "kimi" => true
  | some "omp", "omp" => true
  | some "mastracode", "mastracode" => true
  | some "pi", "pi" => true
  | some "hermes", "hermes" => true
  | some "opencode", "opencode" => true
  | some "qodercli", "qodercli" => true
  | some "qwen", "qwen" => true
  | some "kilo", "kilo" => true
  | some "cursor", "cursor" => true
  | some "antigravity_cli", "agy" => true
  | some "grok", "grok" => true
  | some "letta", "letta" => true
  | _, _ => false

def debugKind : AgentSessionRefKind → String
  | .id => "Id"
  | .path => "Path"

/-- The parts are joined by NUL characters. -/
def dedupeKey (source agent : String) (sessionRef : AgentSessionRef) : String :=
  let nul := String.singleton (Char.ofNat 0)
  source ++ nul ++ agent ++ nul ++ debugKind sessionRef.kind ++ nul ++ sessionRef.value

/-- The arguments that resume a session, where the agent can resume that kind of session. -/
def resumeArgv (source agent : String) (sessionRef : AgentSessionRef) : Option (List String) :=
  let value := sessionRef.value
  match agentSourceKind source, agent, sessionRef.kind with
  | some "claude", "claude", .id => some ["claude", "--resume", value]
  | some "codex", "codex", .id => some ["codex", "resume", value]
  | some "copilot", "copilot", .id => some ["copilot", "--resume=" ++ value]
  | some "devin", "devin", .id => some ["devin", "--resume", value]
  | some "droid", "droid", .id => some ["droid", "--resume", value]
  | some "kimi", "kimi", .id => some ["kimi", "--session", value]
  | some "mastracode", "mastracode", .id => some ["mastracode", "--thread", value]
  | some "pi", "pi", _ => some ["pi", "--session", value]
  | some "omp", "omp", _ => some ["omp", "--resume=" ++ value]
  | some "hermes", "hermes", .id => some ["hermes", "--resume", value]
  | some "opencode", "opencode", .id => some ["opencode", "--session", value]
  | some "qodercli", "qodercli", .id => some ["qodercli", "--resume", value]
  | some "qwen", "qwen", .id => some ["qwen", "--resume", value]
  | some "kilo", "kilo", .id => some ["kilo", "--session", value]
  | some "cursor", "cursor", .id => some ["cursor-agent", "--resume", value]
  | some "antigravity_cli", "agy", .id => some ["agy", "--conversation", value]
  | some "grok", "grok", .id => some ["grok", "--resume", value]
  | some "letta", "letta", .id =>
      match strip? "default:".toList value.toList with
      | some [] => none
      | some agentId => some
          ["letta", "--conversation", "default", "--agent", String.ofList agentId]
      | none => some ["letta", "--conversation", value]
  | _, _, _ => none

def plan (source agent : String) (sessionRef : AgentSessionRef) : Option AgentResumePlan :=
  if isOfficialAgentSource source agent then
    (resumeArgv source agent sessionRef).map fun argv =>
      ⟨agent, argv, dedupeKey source agent sessionRef⟩
  else none

end Herden.Runtime.AgentResume
