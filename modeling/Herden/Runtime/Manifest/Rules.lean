import Herden.Runtime.Detect
import Herden.Runtime.Manifest.Region
import Herden.Runtime.Manifest.Version
import Mathlib.Data.List.Infix

/-!
# `Herden.Runtime.Manifest.Rules`: rules of a manifest and how they are evaluated

Embedding of the gates of `detect/manifest.rs`: what `validate_manifest` accepts, what
`compile_gate` builds, when a compiled gate matches, and what `evaluate_loaded_manifest` reports. A
gate is a tree of gates under `all`, `any` and `not`; each recursion of the source is a pair of
functions here, one over a gate and one over a list of gates.

`Engine` stands for the `regex` crate and for the tables of the standard library. A panic is `none`
in the functions that can meet one.
-/

namespace Herden.Runtime.Manifest.Rules

open Herden.Lib
open Herden.Lib.Text (trim)
open Herden.Runtime.Detect (Agent AgentState agentLabel)
open Herden.Runtime.Manifest.Region (DetectionInput region validateRegionName)
open Herden.Runtime.Manifest.Version (ManifestVersion)

/-- Regular expressions, and what the standard library does by its tables. -/
structure Engine where
  Regex : Type
  /-- `Regex::new`. -/
  new : Text → Except Text Regex
  isMatch : Regex → Text → Bool
  toLowercase : Text → Text
  /-- The `{:?}` of a string. -/
  debug : Text → Text

/-! ### Manifests -/

inductive ManifestState where
  | idle
  | working
  | blocked
  | unknown
deriving DecidableEq

/-- `AgentState::from`. -/
def ManifestState.agentState : ManifestState → AgentState
  | .idle => .idle
  | .working => .working
  | .blocked => .blocked
  | .unknown => .unknown

structure ManifestGate where
  all : List ManifestGate
  any : List ManifestGate
  notGate : List ManifestGate
  contains : List Text
  regex : List Text
  lineRegex : List Text

structure ManifestRule where
  id : Text
  state : Option ManifestState
  priority : Int
  region : Text
  visibleIdle : Bool
  visibleBlocker : Bool
  visibleWorking : Bool
  skipStateUpdate : Bool
  all : List ManifestGate
  any : List ManifestGate
  notGate : List ManifestGate
  contains : List Text
  regex : List Text
  lineRegex : List Text

structure AgentManifest where
  id : Text
  version : Option ManifestVersion
  minEngineVersion : Option Nat
  aliases : List Text
  rules : List ManifestRule

def manifestGateFromRule (rule : ManifestRule) : ManifestGate :=
  ⟨rule.all, rule.any, rule.notGate, rule.contains, rule.regex, rule.lineRegex⟩

/-! ### Validation -/

def maxRulesPerManifest : Nat := 128
def maxGateDepth : Nat := 8
def maxTotalGates : Nat := 512
def maxMatchersPerGate : Nat := 32
def maxTotalMatchers : Nat := 1024
def maxMatcherChars : Nat := 512
def topNonEmptyLinesEngineVersion : Nat := 3

structure ManifestComplexity where
  totalGates : Nat
  totalMatchers : Nat

/-- A number in a message. -/
def number (n : Nat) : Text := (toString n).toList

def gateHasPositiveMatcher (gate : ManifestGate) : Bool :=
  !gate.contains.isEmpty || !gate.regex.isEmpty || !gate.lineRegex.isEmpty || !gate.all.isEmpty ||
    !gate.any.isEmpty

def gateHasAnyMatcher (gate : ManifestGate) : Bool :=
  gateHasPositiveMatcher gate || !gate.notGate.isEmpty

def validateMatcherLimits (gate : ManifestGate) (context : Text)
    (complexity : ManifestComplexity) : Except Text ManifestComplexity :=
  let matcherCount := gate.contains.length + gate.regex.length + gate.lineRegex.length
  if maxMatchersPerGate < matcherCount then
    .error
        (context ++ " has ".toList ++ number matcherCount ++ " direct matchers, max is ".toList ++
      number maxMatchersPerGate)
  else
    let complexity :=
      { complexity with totalMatchers := complexity.totalMatchers + matcherCount }
    if maxTotalMatchers < complexity.totalMatchers then
      .error ("manifest exceeds max matcher count ".toList ++ number maxTotalMatchers)
    else if (gate.contains ++ gate.regex ++ gate.lineRegex).any
        (maxMatcherChars < ·.length) then
      .error (context ++ " matcher exceeds max length ".toList ++ number maxMatcherChars)
    else .ok complexity

def validateRegexPatterns (engine : Engine) (patterns : List Text) (context field : Text) :
    Except Text Unit :=
  patterns.forM fun pattern =>
    match engine.new pattern with
    | .ok _ => .ok ()
    | .error err =>
        .error (context ++ " contains invalid ".toList ++ field ++ " pattern ".toList ++
          engine.debug pattern ++ ": ".toList ++ err)

/-- The gate is not too deep, and it is counted. -/
def countGate (context : Text) (depth : Nat) (complexity : ManifestComplexity) :
    Except Text ManifestComplexity :=
  if maxGateDepth < depth then
    .error (context ++ " exceeds max gate depth ".toList ++ number maxGateDepth)
  else
    let complexity := { complexity with totalGates := complexity.totalGates + 1 }
    if maxTotalGates < complexity.totalGates then
      .error ("manifest exceeds max gate count ".toList ++ number maxTotalGates)
    else .ok complexity

mutual

def validateGate (engine : Engine) (context : Text) (depth : Nat) :
    ManifestGate → ManifestComplexity → Except Text ManifestComplexity
  | ⟨all, any, notGate, contains, regex, lineRegex⟩, complexity => do
      let gate : ManifestGate := ⟨all, any, notGate, contains, regex, lineRegex⟩
      let complexity ← countGate context depth complexity
      let complexity ← validateMatcherLimits gate context complexity
      if !gateHasPositiveMatcher gate then
        .error (context ++ " must contain a positive matcher".toList)
      else
        validateRegexPatterns engine regex context "regex".toList
        validateRegexPatterns engine lineRegex context "line_regex".toList
        let complexity ← validateGates engine "all gate".toList (depth + 1) all complexity
        let complexity ← validateGates engine "any gate".toList (depth + 1) any complexity
        validateNotGatesOf engine context (depth + 1) notGate complexity

/-- A loop over `validate_gate`. -/
def validateGates (engine : Engine) (context : Text) (depth : Nat) :
    List ManifestGate → ManifestComplexity → Except Text ManifestComplexity
  | [], complexity => .ok complexity
  | nested :: rest, complexity => do
      let complexity ← validateGate engine context depth nested complexity
      validateGates engine context depth rest complexity

/-- The loop over the not gates in `validate_gate`. -/
def validateNotGatesOf (engine : Engine) (context : Text) (depth : Nat) :
    List ManifestGate → ManifestComplexity → Except Text ManifestComplexity
  | [], complexity => .ok complexity
  | nested :: rest, complexity => do
      if !gateHasAnyMatcher nested then
        .error (context ++ " contains an empty not gate".toList)
      else
        let complexity ← validateNotGate engine depth nested complexity
        validateNotGatesOf engine context depth rest complexity

def validateNotGate (engine : Engine) (depth : Nat) :
    ManifestGate → ManifestComplexity → Except Text ManifestComplexity
  | ⟨all, any, notGate, contains, regex, lineRegex⟩, complexity => do
      let gate : ManifestGate := ⟨all, any, notGate, contains, regex, lineRegex⟩
      let complexity ← countGate "not gate".toList depth complexity
      let complexity ← validateMatcherLimits gate "not gate".toList complexity
      if !gateHasAnyMatcher gate then .error "not gate must contain a matcher".toList
      else
        validateRegexPatterns engine regex "not gate".toList "regex".toList
        validateRegexPatterns engine lineRegex "not gate".toList "line_regex".toList
        let complexity ← validateGates engine "not all gate".toList (depth + 1) all complexity
        let complexity ← validateGates engine "not any gate".toList (depth + 1) any complexity
        validateNotGates engine (depth + 1) notGate complexity

/-- The loop over the not gates in `validate_not_gate`. -/
def validateNotGates (engine : Engine) (depth : Nat) :
    List ManifestGate → ManifestComplexity → Except Text ManifestComplexity
  | [], complexity => .ok complexity
  | nested :: rest, complexity => do
      let complexity ← validateNotGate engine depth nested complexity
      validateNotGates engine depth rest complexity

end

def validateRuleGate (engine : Engine) (rule : ManifestRule) (complexity : ManifestComplexity) :
    Except Text ManifestComplexity :=
  validateGate engine "rule".toList 0 (manifestGateFromRule rule) complexity

/-- The body of the loop of `validate_manifest`. -/
def validateRule (engine : Engine) (manifest : AgentManifest) (complexity : ManifestComplexity)
    (rule : ManifestRule) : Except Text ManifestComplexity := do
  if (trim rule.id).isEmpty then .error "manifest rule id must not be empty".toList
  else if rule.skipStateUpdate && rule.state ≠ some .unknown then
    .error ("rule ".toList ++ rule.id ++
      " uses skip_state_update without state = \"unknown\"".toList)
  else if rule.skipStateUpdate &&
      (rule.visibleIdle || rule.visibleBlocker || rule.visibleWorking) then
    .error ("rule ".toList ++ rule.id ++
      " uses skip_state_update with visible state evidence".toList)
  else
    (validateRegionName rule.region).mapError fun err =>
      "rule ".toList ++ rule.id ++ " uses invalid region: ".toList ++ err
    if "top_non_empty_lines(".toList.isPrefixOf (trim rule.region) &&
        manifest.minEngineVersion.any (· < topNonEmptyLinesEngineVersion) then
      .error ("rule ".toList ++ rule.id ++
        " uses top_non_empty_lines but min_engine_version is below ".toList ++
        number topNonEmptyLinesEngineVersion)
    else
      (validateRuleGate engine rule complexity).mapError fun err =>
        "rule ".toList ++ rule.id ++ " has invalid matcher gates: ".toList ++ err

def validateManifest (engine : Engine) (manifest : AgentManifest) : Except Text Unit := do
  if manifest.rules.isEmpty then .error "manifest must contain at least one rule".toList
  else if maxRulesPerManifest < manifest.rules.length then
    .error ("manifest contains ".toList ++ number manifest.rules.length ++ " rules, max is ".toList
      ++ number maxRulesPerManifest)
  else
    let _ ← manifest.rules.foldlM (validateRule engine manifest) ⟨0, 0⟩
    return ()

/-! ### Compilation -/

structure CompiledGate (Regex : Type) where
  all : List (CompiledGate Regex)
  any : List (CompiledGate Regex)
  notGate : List (CompiledGate Regex)
  contains : List Text
  regex : List Regex
  lineRegex : List Regex

structure CompiledRule (Regex : Type) where
  gate : CompiledGate Regex

mutual

def compileGate (engine : Engine) : ManifestGate → Except Text (CompiledGate engine.Regex)
  | ⟨all, any, notGate, contains, regex, lineRegex⟩ => do
      let all ← compileGates engine all
      let any ← compileGates engine any
      let notGate ← compileGates engine notGate
      let regex ← regex.mapM engine.new
      let lineRegex ← lineRegex.mapM engine.new
      return ⟨all, any, notGate, contains.map engine.toLowercase, regex, lineRegex⟩

/-- `map(compile_gate)` and `collect`. -/
def compileGates (engine : Engine) :
    List ManifestGate → Except Text (List (CompiledGate engine.Regex))
  | [] => .ok []
  | gate :: rest => do
      let compiled ← compileGate engine gate
      let compiledRest ← compileGates engine rest
      return compiled :: compiledRest

end

def compileRule (engine : Engine) (rule : ManifestRule) :
    Except Text (CompiledRule engine.Regex) :=
  ((compileGate engine (manifestGateFromRule rule)).map CompiledRule.mk).mapError fun err =>
    "rule ".toList ++ rule.id ++ " could not be compiled: ".toList ++ err

def compileManifest (engine : Engine) (manifest : AgentManifest) :
    Except Text (List (CompiledRule engine.Regex)) :=
  manifest.rules.mapM (compileRule engine)

/-! ### Matching -/

mutual

def compiledGateMatches (engine : Engine) (text lowerText : Text) :
    CompiledGate engine.Regex → Bool
  | ⟨all, any, notGate, contains, regex, lineRegex⟩ =>
      contains.all (· <:+: lowerText) && regex.all (engine.isMatch · text) &&
        lineRegex.all (fun regex => (Text.lines text).any (engine.isMatch regex)) &&
        allGatesMatch engine text lowerText all &&
        (any.isEmpty || anyGateMatches engine text lowerText any) &&
        !anyGateMatches engine text lowerText notGate

def allGatesMatch (engine : Engine) (text lowerText : Text) :
    List (CompiledGate engine.Regex) → Bool
  | [] => true
  | nested :: rest =>
      compiledGateMatches engine text lowerText nested && allGatesMatch engine text lowerText rest

def anyGateMatches (engine : Engine) (text lowerText : Text) :
    List (CompiledGate engine.Regex) → Bool
  | [] => false
  | nested :: rest =>
      compiledGateMatches engine text lowerText nested || anyGateMatches engine text lowerText rest

end

def compiledRuleMatches (engine : Engine) (rule : CompiledRule engine.Regex) (text : Text) :
    Bool :=
  compiledGateMatches engine text (engine.toLowercase text) rule.gate

/-! ### Loaded manifests -/

/-- The components of a path. -/
abbrev Path := List Text

inductive ManifestSource where
  | bundled
  | remote (path : Path) (version : Text)
  | override (path : Path)

structure LoadedManifest (Regex : Type) where
  manifest : AgentManifest
  compiledRules : List (CompiledRule Regex)
  source : ManifestSource
  warning : Option Text
  cachedRemoteVersion : Option Text
  localOverrideShadowingRemote : Bool

def loadedManifest (engine : Engine) (manifest : AgentManifest) (source : ManifestSource)
    (warning cachedRemoteVersion : Option Text) (localOverrideShadowingRemote : Bool) :
    Except Text (LoadedManifest engine.Regex) := do
  let compiledRules ← compileManifest engine manifest
  return ⟨manifest, compiledRules, source, warning, cachedRemoteVersion,
    localOverrideShadowingRemote⟩

/-- It panics where the manifest cannot be compiled. -/
def bundledLoadedManifest (engine : Engine) (manifest : AgentManifest)
    (warning cachedRemoteVersion : Option Text) (localOverrideShadowingRemote : Bool) :
    Option (LoadedManifest engine.Regex) :=
  (loadedManifest engine manifest .bundled warning cachedRemoteVersion
    localOverrideShadowingRemote).toOption

/-! ### Evaluation -/

structure MatchedRule where
  id : Text
  priority : Int
  region : Text
  state : AgentState

structure RuleEvidence where
  contains : List Text
  regex : List Text
  lineRegex : List Text
  allCount : Nat
  anyCount : Nat
  notCount : Nat
  regionBytes : Nat
  regionPreview : Text

structure EvaluatedRule where
  id : Text
  priority : Int
  region : Text
  evidence : RuleEvidence
  state : AgentState
  isMatched : Bool

structure DetectionExplain where
  agent : Option Text
  state : AgentState
  source : Option ManifestSource
  matchedRule : Option MatchedRule
  screenDetectionSkipped : Bool
  visibleIdle : Bool
  visibleBlocker : Bool
  visibleWorking : Bool
  skipStateUpdate : Bool
  skippedUpdateReason : Option Text
  fallbackReason : Option Text
  evaluatedRules : List EvaluatedRule
  warning : Option Text
  manifestVersion : Option Text
  cachedRemoteVersion : Option Text
  localOverrideShadowingRemote : Bool
  remoteUpdateStatus : Option Text
  remoteUpdateError : Option Text

/-- What the status file says of an agent. -/
structure AgentRemoteStatus where
  lastResult : Text
  lastError : Option Text

def defaultKnownAgentIdleFallback : Text := "default_known_agent_idle_fallback".toList

def boundedPreview (text : Text) : Text :=
  text.take 240 ++ if 240 < text.length then "...".toList else []

def ruleEvidence (rule : ManifestRule) (regionText : Text) : RuleEvidence where
  contains := rule.contains
  regex := rule.regex
  lineRegex := rule.lineRegex
  allCount := rule.all.length
  anyCount := rule.any.length
  notCount := rule.notGate.length
  regionBytes := byteLen regionText
  regionPreview := boundedPreview regionText

/-- `rule.state.map(AgentState::from).unwrap_or(AgentState::Unknown)`. -/
def ruleState (rule : ManifestRule) : AgentState :=
  (rule.state.map ManifestState.agentState).getD .unknown

/-- The body of the loop of `evaluate_loaded_manifest`. -/
def evaluateRule (engine : Engine) (input : DetectionInput)
    (progress : Option (ManifestRule × Text) × List EvaluatedRule)
    (pair : ManifestRule × CompiledRule engine.Regex) :
    Option (Option (ManifestRule × Text) × List EvaluatedRule) := do
  let (matched, evaluatedRules) := progress
  let (rule, compiledRule) := pair
  let regionText ← region input rule.region
  let matchedRule := compiledRuleMatches engine compiledRule regionText.text
  let evaluatedRules := evaluatedRules ++ [⟨rule.id, rule.priority, rule.region,
    ruleEvidence rule regionText.text, ruleState rule, matchedRule⟩]
  if !matchedRule then return (matched, evaluatedRules)
  else
    match matched with
    | some (previous, name) =>
        if rule.priority ≤ previous.priority then
          return (some (previous, name), evaluatedRules)
        else return (some (rule, rule.region), evaluatedRules)
    | none => return (some (rule, rule.region), evaluatedRules)

def fallbackExplain {Regex : Type} (updateStatus : Agent → Option AgentRemoteStatus)
    (agent : Option Agent) (context : Option (LoadedManifest Regex × List EvaluatedRule))
    (includeUpdateStatus : Bool) : DetectionExplain :=
  let loaded := context.map (·.1)
  let remoteUpdateStatus := if includeUpdateStatus then agent.bind updateStatus else none
  { agent := agent.map fun agent => (agentLabel agent).toList
    state := if agent.isSome then .idle else .unknown
    source := loaded.map (·.source)
    matchedRule := none
    screenDetectionSkipped := false
    visibleIdle := false
    visibleBlocker := false
    visibleWorking := false
    skipStateUpdate := false
    skippedUpdateReason := none
    fallbackReason := if agent.isSome then some defaultKnownAgentIdleFallback else none
    evaluatedRules := (context.map (·.2)).getD []
    warning := loaded.bind (·.warning)
    manifestVersion := loaded.bind fun loaded => loaded.manifest.version.map (·.text)
    cachedRemoteVersion := loaded.bind (·.cachedRemoteVersion)
    localOverrideShadowingRemote := (loaded.map (·.localOverrideShadowingRemote)).getD false
    remoteUpdateStatus := remoteUpdateStatus.map (·.lastResult)
    remoteUpdateError := remoteUpdateStatus.bind (·.lastError) }

/-- It panics where `region` does. -/
def evaluateLoadedManifest (engine : Engine) (updateStatus : Agent → Option AgentRemoteStatus)
    (agent : Agent) (input : DetectionInput) (loaded : LoadedManifest engine.Regex)
    (includeUpdateStatus : Bool) : Option DetectionExplain := do
  let (matched, evaluatedRules) ←
    (loaded.manifest.rules.zip loaded.compiledRules).foldlM (evaluateRule engine input) (none, [])
  match matched with
  | none =>
      return fallbackExplain updateStatus (some agent) (some (loaded, evaluatedRules))
        includeUpdateStatus
  | some (rule, regionName) =>
      let state := ruleState rule
      let remoteUpdateStatus := if includeUpdateStatus then updateStatus agent else none
      return {
        agent := some (agentLabel agent).toList
        state := state
        source := some loaded.source
        matchedRule := some ⟨rule.id, rule.priority, regionName, state⟩
        screenDetectionSkipped := false
        visibleIdle := rule.visibleIdle && state = .idle
        visibleBlocker := rule.visibleBlocker && state = .blocked
        visibleWorking := rule.visibleWorking && state = .working
        skipStateUpdate := rule.skipStateUpdate
        skippedUpdateReason :=
          if rule.skipStateUpdate then some ("matched_rule:".toList ++ rule.id) else none
        fallbackReason := none
        evaluatedRules := evaluatedRules
        warning := loaded.warning
        manifestVersion := loaded.manifest.version.map (·.text)
        cachedRemoteVersion := loaded.cachedRemoteVersion
        localOverrideShadowingRemote := loaded.localOverrideShadowingRemote
        remoteUpdateStatus := remoteUpdateStatus.map (·.lastResult)
        remoteUpdateError := remoteUpdateStatus.bind (·.lastError) }

end Herden.Runtime.Manifest.Rules
