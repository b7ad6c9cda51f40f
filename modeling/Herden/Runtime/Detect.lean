import Mathlib.Data.List.Basic

/-!
# `Herden.Runtime.Detect`: agents, their labels and their integrations

Embedding of the pure part of `runtime/src/detect/mod.rs`: the agents Herden knows, the label
of each, how a reported label is read back (`parse_agent_label`), and which integration sources
own the whole life cycle of their agent.

Text is a `String`. Its characters are walked as a list, because Rust's `trim` and
`to_lowercase` follow Unicode tables. `toLowercase` lower-cases the ASCII letters and the two
other characters whose lower case contains an ASCII letter. It leaves the remaining ones
alone: no name in `lookupAgent` contains one, and lower case never makes one of them ASCII.
-/

namespace Herden.Runtime.Detect

inductive AgentState where
  | idle
  | working
  | blocked
  | unknown
deriving DecidableEq

inductive Agent where
  | pi
  | claude
  | codex
  | gemini
  | cursor
  | devin
  | antigravity
  | cline
  | omp
  | mastracode
  | openCode
  | githubCopilot
  | kimi
  | kiro
  | droid
  | amp
  | grok
  | hermes
  | kilo
  | qodercli
  | qwen
  | letta
  | maki
  | muse
deriving DecidableEq

/-- `Agent::ALL`. -/
def Agent.all : List Agent :=
  [.pi, .claude, .codex, .gemini, .cursor, .devin, .antigravity, .cline, .omp, .mastracode,
    .openCode, .githubCopilot, .kimi, .kiro, .droid, .amp, .grok, .hermes, .kilo, .qodercli,
    .qwen, .letta, .maki, .muse]

def agentLabel : Agent → String
  | .pi => "pi"
  | .claude => "claude"
  | .codex => "codex"
  | .gemini => "gemini"
  | .cursor => "cursor"
  | .devin => "devin"
  | .antigravity => "agy"
  | .cline => "cline"
  | .omp => "omp"
  | .mastracode => "mastracode"
  | .openCode => "opencode"
  | .githubCopilot => "copilot"
  | .kimi => "kimi"
  | .kiro => "kiro"
  | .droid => "droid"
  | .amp => "amp"
  | .grok => "grok"
  | .hermes => "hermes"
  | .kilo => "kilo"
  | .qodercli => "qodercli"
  | .qwen => "qwen"
  | .letta => "letta"
  | .maki => "maki"
  | .muse => "muse"

/-! ### Text -/

/-- `str::strip_prefix`, on characters. -/
def strip? (start text : List Char) : Option (List Char) :=
  if start.isPrefixOf text then some (text.drop start.length) else none

/-- The Unicode property `White_Space`, as `char::is_whitespace` tests it. -/
def isWhitespace (c : Char) : Bool :=
  let n := c.toNat
  (0x9 ≤ n && n ≤ 0xD) || n = 0x20 || n = 0x85 || n = 0xA0 || n = 0x1680
    || (0x2000 ≤ n && n ≤ 0x200A) || n = 0x2028 || n = 0x2029 || n = 0x202F || n = 0x205F
    || n = 0x3000

def trim (text : List Char) : List Char :=
  ((text.dropWhile isWhitespace).reverse.dropWhile isWhitespace).reverse

/-- The lower case of one character: `K` (Kelvin) becomes `k`, and `İ` becomes `i` with a
combining dot. -/
def toLowercaseChar (c : Char) : List Char :=
  if c.toNat = 0x212A then ['k']
  else if c.toNat = 0x130 then ['i', Char.ofNat 0x307]
  else [c.toLower]

def toLowercase (text : List Char) : List Char := text.flatMap toLowercaseChar

/-- Drop the first of some suffixes that the text ends in. -/
def dropSuffix (text : List Char) : List (List Char) → List Char
  | [] => text
  | suffix :: rest =>
      if suffix.isSuffixOf text then text.take (text.length - suffix.length)
      else dropSuffix text rest

def normalizedAgentLookupName (name : String) : String :=
  String.ofList (dropSuffix (toLowercase (trim name.toList))
    [".exe".toList, ".cmd".toList, ".bat".toList, ".ps1".toList, ".js".toList])

/-- The last component between slashes, of either kind, that is not empty. -/
def pathBasename (path : String) : String :=
  let components := path.toList.splitOnP (fun c => c = '/' || c = '\\')
  match components.reverse.find? (fun component => !component.isEmpty) with
  | some component => String.ofList component
  | none => path

/-! ### Reading a label -/

def isMuseVersionedBinary (name : String) : Bool :=
  (strip? "muse-bin-".toList (pathBasename name).toList).any
    (fun rest => rest.head?.any Char.isDigit)

def lookupAgent (name : String) : Option Agent :=
  let name := pathBasename name
  match name with
  | "pi" => some .pi
  | "claude" | "claude-code" => some .claude
  | "codex" => some .codex
  | "gemini" => some .gemini
  | "cursor" | "cursor-agent" => some .cursor
  | "devin" | "devin-cli" | "devin cli" => some .devin
  | "agy" | "antigravity" | "antigravity-cli" => some .antigravity
  | "cline" | ".cline" => some .cline
  | "omp" => some .omp
  | "mastracode" | "mastra-code" | "mastra code" => some .mastracode
  | "opencode" | "opencode2" | "open-code" => some .openCode
  | "copilot" | "github-copilot" | "ghcs" => some .githubCopilot
  | "kimi" | "kimi-code" | "kimi code" => some .kimi
  | "kiro" | "kiro-cli" => some .kiro
  | "droid" => some .droid
  | "amp" | "amp-local" => some .amp
  | "grok" | "grok-build" => some .grok
  | "hermes" | "hermes-agent" => some .hermes
  | "kilo" | "kilo-code" | "kilo code" => some .kilo
  | "qodercli" | "qoderclicn" | "qoder" | "qodercn" => some .qodercli
  | "qwen" | "qwen-code" | "qwen code" => some .qwen
  | "letta" | "letta-code" | "letta code" => some .letta
  | "maki" => some .maki
  | "muse" | "muse-code" | "muse-cli" => some .muse
  | other => if isMuseVersionedBinary other then some .muse else none

def parseCanonicalAgentLabel (label : String) : Option Agent :=
  (lookupAgent label).filter (fun agent => agentLabel agent = label)

def parseAgentLabel (agent : String) : Option Agent :=
  let name := normalizedAgentLookupName agent
  (parseCanonicalAgentLabel name).or (lookupAgent name)

/-- Every label is read back as its agent. -/
theorem parseAgentLabel_agentLabel (agent : Agent) :
    parseAgentLabel (agentLabel agent) = some agent := by
  cases agent <;> decide +kernel

/-! ### Integration sources -/

def integrationSourceKind (source : String) : Option String :=
  ((strip? "herden:".toList source.toList).or (strip? "herdr:".toList source.toList)).map
    String.ofList

/-- Whether the source's reports own the whole life cycle of the labelled agent. -/
def fullLifecycleHookAuthority (source label : String) : Bool :=
  match integrationSourceKind source, label with
  | some "pi", "pi" => true
  | some "omp", "omp" => true
  | some "mastracode", "mastracode" => true
  | some "opencode", "opencode" => true
  | some "kilo", "kilo" => true
  | some "kimi", "kimi" => true
  | _, _ => false

/-- Whether the source reports sessions only and leaves the state to the screen. -/
def sessionIdentityOnlyIntegration (source label : String) : Bool :=
  match integrationSourceKind source, label with
  | some "hermes", "hermes" => true
  | some "qwen", "qwen" => true
  | some "letta", "letta" => true
  | some "antigravity_cli", "agy" => true
  | _, _ => false

end Herden.Runtime.Detect
