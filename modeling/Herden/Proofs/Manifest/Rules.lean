import Herden.Lib.Fallible
import Herden.Runtime.Manifest.Rules

/-!
# `Herden.Proofs.Manifest.Rules`: validated manifests evaluate soundly

Validation, compilation and matching are three recursions over the same trees of gates, so what
each of them says is one induction over gates (`gate_induct`): what validation accepts
compiles (`Compilable`), has something positive in each gate outside the not gates (`Positive`), and
a positive gate matches only on the evidence of a matcher (`Evidence`).

The loop over the rules keeps the first of the matching rules of highest priority (`Best`), and
`evaluation_sound` puts the two together.
-/

namespace Herden.Proofs.Manifest.Rules

open Herden.Lib
open Herden.Runtime.Detect (Agent AgentState)
open Herden.Runtime.Manifest.Region (DetectionInput region)
open Herden.Runtime.Manifest.Rules

/-! ### Gates -/

/-- What passes from the gates inside a gate to the gate holds of every gate. -/
theorem gate_induct {P : ManifestGate → Prop}
    (step : ∀ gate : ManifestGate, (∀ nested ∈ gate.all, P nested)
      → (∀ nested ∈ gate.any, P nested) → (∀ nested ∈ gate.notGate, P nested) → P gate)
    (gate : ManifestGate) : P gate := by
  refine @ManifestGate.rec P (fun gates => ∀ nested ∈ gates, P nested) ?_ ?_ ?_ gate
  · intro all any notGate contains regex lineRegex hall hany hnot
    exact step _ hall hany hnot
  · exact fun _ hmem => nomatch hmem
  · intro head rest hhead hrest nested hmem
    rcases List.mem_cons.mp hmem with rfl | hmore
    · exact hhead
    · exact hrest nested hmore

/-- Every pattern in the gate and in the gates inside it is a regular expression. -/
inductive Compilable (engine : Engine) : ManifestGate → Prop where
  | mk (gate : ManifestGate)
      (regex : ∀ pattern ∈ gate.regex, ∃ compiled, engine.new pattern = .ok compiled)
      (lineRegex : ∀ pattern ∈ gate.lineRegex, ∃ compiled, engine.new pattern = .ok compiled)
      (all : ∀ nested ∈ gate.all, Compilable engine nested)
      (any : ∀ nested ∈ gate.any, Compilable engine nested)
      (notGate : ∀ nested ∈ gate.notGate, Compilable engine nested) : Compilable engine gate

/-- The gate and the gates inside its all and any gates each have something positive. -/
inductive Positive : ManifestGate → Prop where
  | mk (gate : ManifestGate) (positive : gateHasPositiveMatcher gate = true)
      (all : ∀ nested ∈ gate.all, Positive nested) (any : ∀ nested ∈ gate.any, Positive nested) :
      Positive gate

/-- A matcher of the gate, or of a gate inside its all and any gates, matches the text. -/
inductive Evidence (engine : Engine) (text : Text) : ManifestGate → Prop where
  | contains {gate : ManifestGate} {needle : Text} (mem : needle ∈ gate.contains)
      (found : engine.toLowercase needle <:+: engine.toLowercase text) : Evidence engine text gate
  | regex {gate : ManifestGate} {pattern : Text} {compiled : engine.Regex}
      (mem : pattern ∈ gate.regex) (new : engine.new pattern = .ok compiled)
      (found : engine.isMatch compiled text = true) : Evidence engine text gate
  | lineRegex {gate : ManifestGate} {pattern line : Text} {compiled : engine.Regex}
      (mem : pattern ∈ gate.lineRegex) (new : engine.new pattern = .ok compiled)
      (line_mem : line ∈ Text.lines text) (found : engine.isMatch compiled line = true) :
      Evidence engine text gate
  | all {gate nested : ManifestGate} (mem : nested ∈ gate.all)
      (inside : Evidence engine text nested) : Evidence engine text gate
  | any {gate nested : ManifestGate} (mem : nested ∈ gate.any)
      (inside : Evidence engine text nested) : Evidence engine text gate

/-! ### Validation -/

variable {context : Text} {engine : Engine} {after before : ManifestComplexity} {depth : Nat}
  {gates : List ManifestGate} {rule : ManifestRule} {gate : ManifestGate} {input : DetectionInput}
  {rules : List ManifestRule}

theorem validateRegexPatterns_ok {patterns : List Text} {field : Text}
    (h : validateRegexPatterns engine patterns context field = .ok ()) :
    ∀ pattern ∈ patterns, ∃ compiled, engine.new pattern = .ok compiled := by
  intro pattern hmem
  have hpattern := forM_eq_ok.mp h pattern hmem
  cases hnew : engine.new pattern with
  | ok compiled => exact ⟨compiled, rfl⟩
  | error err =>
    rw [hnew] at hpattern
    cases hpattern

/-- A loop that threads its complexity has accepted each gate. -/
theorem validateGates_ok (h : validateGates engine context depth gates before = .ok after) :
    ∀ nested ∈ gates, ∃ start stop,
      validateGate engine context depth nested start = .ok stop := by
  induction gates generalizing before with
  | nil => exact fun _ hmem => nomatch hmem
  | cons gate gates ih =>
    rw [validateGates, bind_eq_ok] at h
    obtain ⟨next, hgate, hrest⟩ := h
    intro nested hmem
    rcases List.mem_cons.mp hmem with rfl | hmore
    · exact ⟨before, next, hgate⟩
    · exact ih hrest nested hmore

theorem validateNotGates_ok (h : validateNotGates engine depth gates before = .ok after) :
    ∀ nested ∈ gates, ∃ start stop, validateNotGate engine depth nested start = .ok stop := by
  induction gates generalizing before with
  | nil => exact fun _ hmem => nomatch hmem
  | cons gate gates ih =>
    rw [validateNotGates, bind_eq_ok] at h
    obtain ⟨next, hgate, hrest⟩ := h
    intro nested hmem
    rcases List.mem_cons.mp hmem with rfl | hmore
    · exact ⟨before, next, hgate⟩
    · exact ih hrest nested hmore

theorem validateNotGatesOf_ok
    (h : validateNotGatesOf engine context depth gates before = .ok after) :
    ∀ nested ∈ gates, ∃ start stop, validateNotGate engine depth nested start = .ok stop := by
  induction gates generalizing before with
  | nil => exact fun _ hmem => nomatch hmem
  | cons gate gates ih =>
    rw [validateNotGatesOf] at h
    split at h
    next => cases h
    next =>
      obtain ⟨next, hgate, hrest⟩ := bind_eq_ok.mp h
      intro nested hmem
      rcases List.mem_cons.mp hmem with rfl | hmore
      · exact ⟨before, next, hgate⟩
      · exact ih hrest nested hmore

/-- What `validate_gate` accepts is positive, and all of it can be compiled. -/
theorem validated_gate (engine : Engine) (gate : ManifestGate) :
    (∀ context depth before after, validateGate engine context depth gate before = .ok after →
        Compilable engine gate ∧ Positive gate)
      ∧ ∀ depth before after, validateNotGate engine depth gate before = .ok after →
        Compilable engine gate := by
  induction gate using gate_induct with
  | step gate hall hany hnot =>
    obtain ⟨all, any, notGate, contains, regex, lineRegex⟩ := gate
    constructor
    · intro context depth before after h
      rw [validateGate] at h
      obtain ⟨_, -, h⟩ := bind_eq_ok.mp h
      obtain ⟨_, -, h⟩ := bind_eq_ok.mp h
      split at h
      next => cases h
      next hpositive =>
        obtain ⟨_, hregex, h⟩ := bind_eq_ok.mp h
        obtain ⟨_, hlineRegex, h⟩ := bind_eq_ok.mp h
        obtain ⟨_, hallGates, h⟩ := bind_eq_ok.mp h
        obtain ⟨_, hanyGates, hnotGates⟩ := bind_eq_ok.mp h
        have hallOk := validateGates_ok hallGates
        have hanyOk := validateGates_ok hanyGates
        have hnotOk := validateNotGatesOf_ok hnotGates
        refine ⟨⟨_, validateRegexPatterns_ok hregex, validateRegexPatterns_ok hlineRegex,
          fun nested hmem => ?_, fun nested hmem => ?_, fun nested hmem => ?_⟩,
          ⟨_, by simpa using hpositive, fun nested hmem => ?_, fun nested hmem => ?_⟩⟩
        · obtain ⟨start, stop, hnested⟩ := hallOk nested hmem
          exact ((hall nested hmem).1 _ _ _ _ hnested).1
        · obtain ⟨start, stop, hnested⟩ := hanyOk nested hmem
          exact ((hany nested hmem).1 _ _ _ _ hnested).1
        · obtain ⟨start, stop, hnested⟩ := hnotOk nested hmem
          exact (hnot nested hmem).2 _ _ _ hnested
        · obtain ⟨start, stop, hnested⟩ := hallOk nested hmem
          exact ((hall nested hmem).1 _ _ _ _ hnested).2
        · obtain ⟨start, stop, hnested⟩ := hanyOk nested hmem
          exact ((hany nested hmem).1 _ _ _ _ hnested).2
    · intro depth before after h
      rw [validateNotGate] at h
      obtain ⟨_, -, h⟩ := bind_eq_ok.mp h
      obtain ⟨_, -, h⟩ := bind_eq_ok.mp h
      split at h
      next => cases h
      next =>
        obtain ⟨_, hregex, h⟩ := bind_eq_ok.mp h
        obtain ⟨_, hlineRegex, h⟩ := bind_eq_ok.mp h
        obtain ⟨_, hallGates, h⟩ := bind_eq_ok.mp h
        obtain ⟨_, hanyGates, hnotGates⟩ := bind_eq_ok.mp h
        refine ⟨_, validateRegexPatterns_ok hregex, validateRegexPatterns_ok hlineRegex,
          fun nested hmem => ?_, fun nested hmem => ?_, fun nested hmem => ?_⟩
        · obtain ⟨start, stop, hnested⟩ := validateGates_ok hallGates nested hmem
          exact ((hall nested hmem).1 _ _ _ _ hnested).1
        · obtain ⟨start, stop, hnested⟩ := validateGates_ok hanyGates nested hmem
          exact ((hany nested hmem).1 _ _ _ _ hnested).1
        · obtain ⟨start, stop, hnested⟩ := validateNotGates_ok hnotGates nested hmem
          exact (hnot nested hmem).2 _ _ _ hnested

theorem mapError_eq_ok {ε ε' α : Type} {x : Except ε α} {f : ε → ε'} {a : α} :
    x.mapError f = .ok a ↔ x = .ok a := by
  cases x with
  | error e => exact iff_of_false (fun h => nomatch h) fun h => nomatch h
  | ok b => exact ⟨fun h => (by cases h; rfl), fun h => (by cases h; rfl)⟩

theorem map_eq_ok {ε α β : Type} {x : Except ε α} {f : α → β} {b : β} :
    x.map f = .ok b ↔ ∃ a, x = .ok a ∧ f a = b := by
  cases x with
  | error e => exact iff_of_false (fun h => nomatch h) fun ⟨_, h, _⟩ => nomatch h
  | ok a =>
    constructor
    · intro h
      cases h
      exact ⟨a, rfl, rfl⟩
    · rintro ⟨_, h, rfl⟩
      cases h
      rfl

variable {manifest : AgentManifest} {compiled : CompiledGate engine.Regex} {text : Text}
  {matched : Option (ManifestRule × Text)} {reports : List EvaluatedRule}

theorem validateRule_ok (h : validateRule engine manifest before rule = .ok after) :
    Compilable engine (manifestGateFromRule rule) ∧ Positive (manifestGateFromRule rule) := by
  unfold validateRule at h
  split at h
  next => cases h
  split at h
  next => cases h
  split at h
  next => cases h
  obtain ⟨_, -, h⟩ := bind_eq_ok.mp h
  split at h
  next => cases h
  exact (validated_gate engine _).1 _ _ _ _ (mapError_eq_ok.mp h)

theorem validateManifest_ok (h : validateManifest engine manifest = .ok ()) :
    ∀ rule ∈ manifest.rules,
      Compilable engine (manifestGateFromRule rule) ∧ Positive (manifestGateFromRule rule) := by
  unfold validateManifest at h
  split at h
  next => cases h
  split at h
  next => cases h
  obtain ⟨last, hrules, -⟩ := bind_eq_ok.mp h
  generalize manifest.rules = rules at hrules ⊢
  generalize (⟨0, 0⟩ : ManifestComplexity) = complexity at hrules
  induction rules generalizing complexity with
  | nil => exact fun _ hmem => nomatch hmem
  | cons rule rules ih =>
    rw [List.foldlM_cons, bind_eq_ok] at hrules
    obtain ⟨next, hrule, hrest⟩ := hrules
    intro other hmem
    rcases List.mem_cons.mp hmem with rfl | hmore
    · exact validateRule_ok hrule
    · exact ih next hrest other hmore

/-! ### Compilation -/

theorem compileGates_eq (engine : Engine) (gates : List ManifestGate) :
    compileGates engine gates = gates.mapM (compileGate engine) := by
  induction gates with
  | nil => rfl
  | cons gate gates ih =>
    rw [compileGates, ih, List.mapM_cons]

theorem exists_compileGate (h : Compilable engine gate) :
    ∃ compiled, compileGate engine gate = .ok compiled := by
  induction gate using gate_induct with
  | step gate hall hany hnot =>
    obtain ⟨_, hregex, hlineRegex, hallOk, hanyOk, hnotOk⟩ := h
    obtain ⟨all, any, notGate, contains, regex, lineRegex⟩ := gate
    have hgates : ∀ gates : List ManifestGate,
        (∀ nested ∈ gates, ∃ compiled, compileGate engine nested = .ok compiled) →
          ∃ compiled, compileGates engine gates = .ok compiled := by
      intro gates h
      rw [compileGates_eq]
      exact exists_mapM_eq_ok h
    obtain ⟨all', hall'⟩ := hgates all fun nested hmem => hall nested hmem (hallOk nested hmem)
    obtain ⟨any', hany'⟩ := hgates any fun nested hmem => hany nested hmem (hanyOk nested hmem)
    obtain ⟨not', hnot'⟩ := hgates notGate fun nested hmem => hnot nested hmem (hnotOk nested hmem)
    obtain ⟨regex', hregex'⟩ := exists_mapM_eq_ok hregex
    obtain ⟨lineRegex', hlineRegex'⟩ := exists_mapM_eq_ok hlineRegex
    exact ⟨⟨all', any', not', contains.map engine.toLowercase, regex', lineRegex'⟩, by
      rw [compileGate, hall', hany', hnot', hregex', hlineRegex']
      rfl⟩

/-- The parts of a compiled gate come from the parts of its gate. -/
theorem compileGate_spec (h : compileGate engine gate = .ok compiled) :
    List.Forall₂ (fun nested c => compileGate engine nested = .ok c) gate.all compiled.all
      ∧ List.Forall₂ (fun nested c => compileGate engine nested = .ok c) gate.any compiled.any
      ∧ compiled.contains = gate.contains.map engine.toLowercase
      ∧ List.Forall₂ (fun pattern c => engine.new pattern = .ok c) gate.regex compiled.regex
      ∧ List.Forall₂ (fun pattern c => engine.new pattern = .ok c) gate.lineRegex
        compiled.lineRegex := by
  obtain ⟨all, any, notGate, contains, regex, lineRegex⟩ := gate
  rw [compileGate, compileGates_eq, compileGates_eq, compileGates_eq] at h
  obtain ⟨all', hall, h⟩ := bind_eq_ok.mp h
  obtain ⟨any', hany, h⟩ := bind_eq_ok.mp h
  obtain ⟨not', -, h⟩ := bind_eq_ok.mp h
  obtain ⟨regex', hregex, h⟩ := bind_eq_ok.mp h
  obtain ⟨lineRegex', hlineRegex, h⟩ := bind_eq_ok.mp h
  cases h
  exact ⟨mapM_eq_ok.mp hall, mapM_eq_ok.mp hany, rfl, mapM_eq_ok.mp hregex,
    mapM_eq_ok.mp hlineRegex⟩

/-! ### Matching -/

theorem allGatesMatch_eq (engine : Engine) (text lowerText : Text)
    (gates : List (CompiledGate engine.Regex)) :
    allGatesMatch engine text lowerText gates
      = gates.all (compiledGateMatches engine text lowerText) := by
  induction gates with
  | nil => rfl
  | cons gate gates ih => rw [allGatesMatch, ih, List.all_cons]

theorem anyGateMatches_eq (engine : Engine) (text lowerText : Text)
    (gates : List (CompiledGate engine.Regex)) :
    anyGateMatches engine text lowerText gates
      = gates.any (compiledGateMatches engine text lowerText) := by
  induction gates with
  | nil => rfl
  | cons gate gates ih => rw [anyGateMatches, ih, List.any_cons]

/-- What a gate that matches says of its parts outside the not gates. -/
theorem compiledGateMatches_spec {lowerText : Text} {gate : CompiledGate engine.Regex}
    (h : compiledGateMatches engine text lowerText gate = true) :
    (∀ needle ∈ gate.contains, needle <:+: lowerText)
      ∧ (∀ regex ∈ gate.regex, engine.isMatch regex text = true)
      ∧ (∀ regex ∈ gate.lineRegex, ∃ line ∈ Text.lines text, engine.isMatch regex line = true)
      ∧ (∀ nested ∈ gate.all, compiledGateMatches engine text lowerText nested = true)
      ∧ (gate.any = [] ∨
        ∃ nested ∈ gate.any, compiledGateMatches engine text lowerText nested = true) := by
  obtain ⟨all, any, notGate, contains, regex, lineRegex⟩ := gate
  rw [compiledGateMatches, allGatesMatch_eq, anyGateMatches_eq, anyGateMatches_eq] at h
  simp only [Bool.and_eq_true, Bool.or_eq_true, List.all_eq_true, List.any_eq_true,
    List.isEmpty_iff, decide_eq_true_eq] at h
  obtain ⟨⟨⟨⟨⟨hcontains, hregex⟩, hlineRegex⟩, hall⟩, hany⟩, -⟩ := h
  exact ⟨hcontains, hregex, hlineRegex, hall, hany⟩

theorem exists_of_forall₂_left {α β : Type} {R : α → β → Prop} {items : List α} {results : List β}
    (h : List.Forall₂ R items results) {item : α} (hmem : item ∈ items) :
    ∃ result ∈ results, R item result := by
  induction h with
  | nil => cases hmem
  | cons hhead _ ih =>
    rcases List.mem_cons.mp hmem with rfl | hrest
    · exact ⟨_, List.mem_cons_self, hhead⟩
    · obtain ⟨result, hresult, hR⟩ := ih hrest
      exact ⟨result, List.mem_cons_of_mem _ hresult, hR⟩

theorem exists_of_forall₂_right {α β : Type} {R : α → β → Prop} {items : List α}
    {results : List β} (h : List.Forall₂ R items results) {result : β} (hmem : result ∈ results) :
    ∃ item ∈ items, R item result :=
  exists_of_forall₂_left h.flip hmem

/-- A positive gate that matches has a matcher that does. -/
theorem evidence_of_matches (hpositive : Positive gate)
    (hcompile : compileGate engine gate = .ok compiled)
    (hmatch : compiledGateMatches engine text (engine.toLowercase text) compiled = true) :
    Evidence engine text gate := by
  induction gate using gate_induct generalizing compiled with
  | step gate hall hany hnot =>
    obtain ⟨_, hsome, hallPositive, hanyPositive⟩ := hpositive
    obtain ⟨hcompileAll, hcompileAny, hcontains, hregex, hlineRegex⟩ := compileGate_spec hcompile
    obtain ⟨hmatchContains, hmatchRegex, hmatchLine, hmatchAll, hmatchAny⟩ :=
      compiledGateMatches_spec hmatch
    unfold gateHasPositiveMatcher at hsome
    simp only [Bool.or_eq_true, Bool.not_eq_true', List.isEmpty_eq_false_iff_exists_mem] at hsome
    rcases hsome with (((⟨needle, hmem⟩ | ⟨pattern, hmem⟩) | ⟨pattern, hmem⟩) | ⟨nested, hmem⟩)
      | ⟨nested, hmem⟩
    · refine Evidence.contains hmem (hmatchContains _ ?_)
      rw [hcontains]
      exact List.mem_map_of_mem hmem
    · obtain ⟨c, hc, hnew⟩ := exists_of_forall₂_left hregex hmem
      exact Evidence.regex hmem hnew (hmatchRegex c hc)
    · obtain ⟨c, hc, hnew⟩ := exists_of_forall₂_left hlineRegex hmem
      obtain ⟨line, hline, hfound⟩ := hmatchLine c hc
      exact Evidence.lineRegex hmem hnew hline hfound
    · obtain ⟨c, hc, hnested⟩ := exists_of_forall₂_left hcompileAll hmem
      exact Evidence.all hmem
        (hall nested hmem (hallPositive nested hmem) hnested (hmatchAll c hc))
    · -- Some any gate matches, not necessarily this one.
      obtain ⟨c, hc, -⟩ := exists_of_forall₂_left hcompileAny hmem
      rcases hmatchAny with hnil | ⟨d, hd, hfound⟩
      · rw [hnil] at hc
        cases hc
      · obtain ⟨other, hother, hcompiled⟩ := exists_of_forall₂_right hcompileAny hd
        exact Evidence.any hother
          (hany other hother (hanyPositive other hother) hcompiled hfound)

/-! ### Evaluation -/

/-- The gate of a rule matches the region of the rule. -/
def RuleMatches (engine : Engine) (input : DetectionInput) (rule : ManifestRule) : Prop :=
  ∃ slice compiled, region input rule.region = some slice
    ∧ compileRule engine rule = .ok compiled
    ∧ compiledRuleMatches engine compiled slice.text = true

/-- A matcher that is reached from a rule through all and any gates matches its region. -/
def HasEvidence (engine : Engine) (input : DetectionInput) (rule : ManifestRule) : Prop :=
  ∃ slice, region input rule.region = some slice
    ∧ Evidence engine slice.text (manifestGateFromRule rule)

/-- The rule is the first of the matching rules of highest priority. -/
def IsFirstBest (engine : Engine) (input : DetectionInput) (rules : List ManifestRule)
    (rule : ManifestRule) : Prop :=
  ∃ before after, rules = before ++ rule :: after ∧ RuleMatches engine input rule
    ∧ (∀ other ∈ before, RuleMatches engine input other → other.priority < rule.priority)
    ∧ ∀ other ∈ after, RuleMatches engine input other → other.priority ≤ rule.priority

/-- What the loop has found in the rules it has seen. -/
inductive Best (engine : Engine) (input : DetectionInput) (rules : List ManifestRule) :
    Option (ManifestRule × Text) → Prop where
  | none (h : ∀ rule ∈ rules, ¬ RuleMatches engine input rule) : Best engine input rules none
  | some (rule : ManifestRule) (h : IsFirstBest engine input rules rule) :
      Best engine input rules (some (rule, rule.region))

/-- The report on a rule. -/
structure Reports (engine : Engine) (input : DetectionInput) (rule : ManifestRule)
    (report : EvaluatedRule) : Prop where
  id : report.id = rule.id
  priority : report.priority = rule.priority
  region : report.region = rule.region
  state : report.state = ruleState rule
  matched : report.isMatched = true ↔ RuleMatches engine input rule

theorem ruleMatches_iff {slice : Str} {compiled : CompiledRule engine.Regex}
    (hregion : region input rule.region = some slice)
    (hcompile : compileRule engine rule = .ok compiled) :
    RuleMatches engine input rule ↔ compiledRuleMatches engine compiled slice.text = true := by
  constructor
  · rintro ⟨slice', compiled', hregion', hcompile', hmatch⟩
    rw [hregion] at hregion'
    rw [hcompile] at hcompile'
    cases hregion'
    cases hcompile'
    exact hmatch
  · intro hmatch
    exact ⟨slice, compiled, hregion, hcompile, hmatch⟩

theorem IsFirstBest.concat (h : IsFirstBest engine input rules rule) {next : ManifestRule}
    (hnext : RuleMatches engine input next → next.priority ≤ rule.priority) :
    IsFirstBest engine input (rules ++ [next]) rule := by
  obtain ⟨before, after, rfl, hmatch, hbefore, hafter⟩ := h
  refine ⟨before, after ++ [next], by simp, hmatch, hbefore, ?_⟩
  intro other hother
  rcases List.mem_append.mp hother with hold | hnew
  · exact hafter other hold
  · rw [List.mem_singleton.mp hnew]
    exact hnext

/-- All matching rules have at most the priority of the best. -/
theorem IsFirstBest.priority_le (h : IsFirstBest engine input rules rule) :
    ∀ other ∈ rules, RuleMatches engine input other → other.priority ≤ rule.priority := by
  obtain ⟨before, after, rfl, -, hbefore, hafter⟩ := h
  intro other hother hmatch
  rcases List.mem_append.mp hother with hold | hrest
  · exact Int.le_of_lt (hbefore other hold hmatch)
  · rcases List.mem_cons.mp hrest with rfl | hnew
    · exact Int.le_refl _
    · exact hafter other hnew hmatch

/-- One rule is evaluated. -/
theorem evaluateRule_spec {compiled : CompiledRule engine.Regex}
    (hbest : Best engine input rules matched)
    (hreports : List.Forall₂ (Reports engine input) rules reports)
    (hcompile : compileRule engine rule = .ok compiled) :
    match evaluateRule engine input (matched, reports) (rule, compiled) with
    | none => region input rule.region = none
    | some (matched', reports') => Best engine input (rules ++ [rule]) matched'
        ∧ List.Forall₂ (Reports engine input) (rules ++ [rule]) reports' := by
  unfold evaluateRule
  dsimp only [Option.bind_eq_bind]
  cases hregion : region input rule.region with
  | none => rfl
  | some slice =>
    rw [Option.bind_some]
    have hiff := ruleMatches_iff hregion hcompile
    have hall : List.Forall₂ (Reports engine input) (rules ++ [rule])
        (reports ++ [⟨rule.id, rule.priority, rule.region, ruleEvidence rule slice.text,
          ruleState rule, compiledRuleMatches engine compiled slice.text⟩]) :=
      List.rel_append hreports
        (List.Forall₂.cons ⟨rfl, rfl, rfl, rfl, hiff.symm⟩ List.Forall₂.nil)
    cases hmatch : compiledRuleMatches engine compiled slice.text with
    | false =>
      rw [hmatch] at hall hiff
      refine ⟨?_, hall⟩
      cases hbest with
      | none hnone =>
        refine Best.none fun other hother => ?_
        rcases List.mem_append.mp hother with hold | hnew
        · exact hnone other hold
        · rw [List.mem_singleton.mp hnew, hiff]
          exact Bool.false_ne_true
      | some best hfirst => exact Best.some best (hfirst.concat fun h => nomatch hiff.mp h)
    | true =>
      rw [hmatch] at hall hiff
      have hrule := hiff.mpr rfl
      cases hbest with
      | none hnone =>
        refine ⟨Best.some rule ⟨rules, [], rfl, hrule, ?_, fun _ hmem => nomatch hmem⟩, hall⟩
        exact fun other hother hother' => absurd hother' (hnone other hother)
      | some best hfirst =>
        dsimp only
        by_cases hle : rule.priority ≤ best.priority
        · rw [if_pos hle]
          exact ⟨Best.some best (hfirst.concat fun _ => hle), hall⟩
        · rw [if_neg hle]
          refine ⟨Best.some rule ⟨rules, [], rfl, hrule, ?_, fun _ hmem => nomatch hmem⟩, hall⟩
          intro other hother hmatches
          have hother_le := hfirst.priority_le other hother hmatches
          omega

/-- All rules are evaluated, unless the region of one panics. -/
theorem evaluateRules_spec {done : List ManifestRule} {compiled : List (CompiledRule engine.Regex)}
    (hcompile : List.Forall₂ (fun rule c => compileRule engine rule = .ok c) rules compiled)
    (hbest : Best engine input done matched)
    (hreports : List.Forall₂ (Reports engine input) done reports) :
    match (rules.zip compiled).foldlM (evaluateRule engine input) (matched, reports) with
    | none => ∃ rule ∈ rules, region input rule.region = none
    | some (matched', reports') => Best engine input (done ++ rules) matched'
        ∧ List.Forall₂ (Reports engine input) (done ++ rules) reports' := by
  induction hcompile generalizing done matched reports with
  | nil =>
    rw [List.append_nil]
    exact ⟨hbest, hreports⟩
  | @cons rule c rules compiled hrule _ ih =>
    rw [List.zip_cons_cons, List.foldlM_cons]
    have hstep := evaluateRule_spec hbest hreports hrule
    cases heval : evaluateRule engine input (matched, reports) (rule, c) with
    | none =>
      rw [heval] at hstep
      exact ⟨rule, List.mem_cons_self, hstep⟩
    | some progress =>
      obtain ⟨matched', reports'⟩ := progress
      rw [heval] at hstep
      obtain ⟨hbest', hreports'⟩ := hstep
      have hrest := ih hbest' hreports'
      rw [Option.bind_eq_bind, Option.bind_some]
      generalize (rules.zip compiled).foldlM (evaluateRule engine input) (matched', reports')
        = outcome at hrest ⊢
      cases outcome with
      | none =>
        obtain ⟨other, hmem, hpanic⟩ := hrest
        exact ⟨other, List.mem_cons_of_mem _ hmem, hpanic⟩
      | some progress =>
        rw [List.append_assoc] at hrest
        exact hrest

/-- What an evaluation of a manifest reports. -/
structure Sound (engine : Engine) (updateStatus : Agent → Option AgentRemoteStatus)
    (agent : Agent) (input : DetectionInput) (loaded : LoadedManifest engine.Regex)
    (includeUpdateStatus : Bool) (explain : DetectionExplain) : Prop where
  /-- There is one report for each rule. -/
  reports : List.Forall₂ (Reports engine input) loaded.manifest.rules explain.evaluatedRules
  /-- A matched rule is the first of the best, and a matcher is the evidence for it. -/
  matched : ∀ matched ∈ explain.matchedRule, ∃ rule,
    IsFirstBest engine input loaded.manifest.rules rule ∧ HasEvidence engine input rule
      ∧ matched = ⟨rule.id, rule.priority, rule.region, ruleState rule⟩
      ∧ explain.state = ruleState rule
  /-- A rule is reported where one matches. -/
  found : (∃ rule ∈ loaded.manifest.rules, RuleMatches engine input rule) →
    explain.matchedRule.isSome = true
  fallback : (∀ rule ∈ loaded.manifest.rules, ¬ RuleMatches engine input rule) →
    explain = fallbackExplain updateStatus (some agent) (some (loaded, explain.evaluatedRules))
      includeUpdateStatus
  visibleIdle : explain.visibleIdle = true → explain.state = .idle
  visibleBlocker : explain.visibleBlocker = true → explain.state = .blocked
  visibleWorking : explain.visibleWorking = true → explain.state = .working
  atMostOne :
    [explain.visibleIdle, explain.visibleBlocker, explain.visibleWorking].count true ≤ 1

/-- A visible flag is that of the state. -/
theorem atMostOne_visible (idle blocker working : Bool) (state : AgentState) :
    [idle && decide (state = .idle), blocker && decide (state = .blocked),
      working && decide (state = .working)].count true ≤ 1 := by
  cases state <;> cases idle <;> cases blocker <;> cases working <;> decide

theorem evaluateLoadedManifest_spec (updateStatus : Agent → Option AgentRemoteStatus)
    (agent : Agent) (input : DetectionInput) {loaded : LoadedManifest engine.Regex}
    (includeUpdateStatus : Bool)
    (hpositive : ∀ rule ∈ loaded.manifest.rules, Positive (manifestGateFromRule rule))
    (hcompile : compileManifest engine loaded.manifest = .ok loaded.compiledRules) :
    match evaluateLoadedManifest engine updateStatus agent input loaded includeUpdateStatus with
    | none => ∃ rule ∈ loaded.manifest.rules, region input rule.region = none
    | some explain =>
        Sound engine updateStatus agent input loaded includeUpdateStatus explain := by
  have hstart : Best engine input [] none := Best.none fun _ hmem => nomatch hmem
  have hrun := evaluateRules_spec (mapM_eq_ok.mp hcompile) hstart List.Forall₂.nil
  rw [List.nil_append] at hrun
  unfold evaluateLoadedManifest
  generalize (loaded.manifest.rules.zip loaded.compiledRules).foldlM (evaluateRule engine input)
    (none, []) = outcome at hrun ⊢
  cases outcome with
  | none => exact hrun
  | some progress =>
    obtain ⟨matched, reports⟩ := progress
    obtain ⟨hbest, hreports⟩ := hrun
    rw [Option.bind_eq_bind, Option.bind_some]
    cases hbest with
    | none hnone =>
      refine ⟨hreports, fun _ hmem => (nomatch hmem), ?_, fun _ => rfl, fun h => (nomatch h),
        fun h => (nomatch h), fun h => (nomatch h), Nat.zero_le 1⟩
      rintro ⟨rule, hmem, hmatch⟩
      exact absurd hmatch (hnone rule hmem)
    | some rule hfirst =>
      obtain ⟨before, after, hrules, hmatch, -⟩ := id hfirst
      have hmem : rule ∈ loaded.manifest.rules := by simp [hrules]
      have hevidence : HasEvidence engine input rule := by
        obtain ⟨slice, compiled, hregion, hrule, hfound⟩ := hmatch
        obtain ⟨gate, hgate, rfl⟩ := map_eq_ok.mp (mapError_eq_ok.mp hrule)
        exact ⟨slice, hregion, evidence_of_matches (hpositive rule hmem) hgate hfound⟩
      refine ⟨hreports, ?_, fun _ => rfl, fun hnone => absurd hmatch (hnone rule hmem), ?_, ?_, ?_,
        atMostOne_visible _ _ _ _⟩
      · intro matched hmatched
        cases hmatched
        exact ⟨rule, hfirst, hevidence, rfl, rfl⟩
      · exact fun h => of_decide_eq_true (Bool.and_eq_true_iff.mp h).2
      · exact fun h => of_decide_eq_true (Bool.and_eq_true_iff.mp h).2
      · exact fun h => of_decide_eq_true (Bool.and_eq_true_iff.mp h).2

/-- A validated manifest compiles rule by rule, so it is always loaded, and what its evaluation
reports is sound. It reports nothing only where the region of a rule panics. -/
theorem evaluation_sound (engine : Engine) {manifest : AgentManifest}
    (h : validateManifest engine manifest = .ok ()) :
    (∃ compiled, compileManifest engine manifest = .ok compiled
        ∧ List.Forall₂ (fun rule c => compileRule engine rule = .ok c) manifest.rules compiled
        ∧ compiled.length = manifest.rules.length)
      ∧ (∀ warning cachedRemoteVersion shadowing,
        (bundledLoadedManifest engine manifest warning cachedRemoteVersion shadowing).isSome
          = true)
      ∧ ∀ source warning cachedRemoteVersion shadowing, ∃ loaded,
        loadedManifest engine manifest source warning cachedRemoteVersion shadowing = .ok loaded
          ∧ loaded.manifest = manifest
          ∧ ∀ updateStatus agent input includeUpdateStatus,
            match evaluateLoadedManifest engine updateStatus agent input loaded
              includeUpdateStatus with
            | none => ∃ rule ∈ manifest.rules, region input rule.region = none
            | some explain =>
                Sound engine updateStatus agent input loaded includeUpdateStatus explain := by
  have hrules := validateManifest_ok h
  obtain ⟨compiled, hcompiled⟩ : ∃ compiled, compileManifest engine manifest = .ok compiled := by
    refine exists_mapM_eq_ok fun rule hmem => ?_
    obtain ⟨gate, hgate⟩ := exists_compileGate (hrules rule hmem).1
    exact ⟨⟨gate⟩, mapError_eq_ok.mpr (by rw [hgate]; rfl)⟩
  have hloaded : ∀ source warning cachedRemoteVersion shadowing,
      loadedManifest engine manifest source warning cachedRemoteVersion shadowing
        = .ok ⟨manifest, compiled, source, warning, cachedRemoteVersion, shadowing⟩ := by
    intro source warning cachedRemoteVersion shadowing
    unfold loadedManifest
    rw [hcompiled]
    rfl
  have hpairs := mapM_eq_ok.mp hcompiled
  refine ⟨⟨compiled, hcompiled, hpairs, hpairs.length_eq.symm⟩, ?_, ?_⟩
  · intro warning cachedRemoteVersion shadowing
    unfold bundledLoadedManifest
    rw [hloaded]
    rfl
  · intro source warning cachedRemoteVersion shadowing
    refine ⟨_, hloaded source warning cachedRemoteVersion shadowing, rfl, ?_⟩
    intro updateStatus agent input includeUpdateStatus
    exact evaluateLoadedManifest_spec updateStatus agent input includeUpdateStatus
      (fun rule hmem => (hrules rule hmem).2) hcompiled

/-- Patterns that are found as they are written. -/
def literalEngine : Engine where
  Regex := Text
  new := .ok
  isMatch pattern text := pattern <:+: text
  toLowercase := List.map Char.toLower
  debug := id

/-- A prompt is idle, but not while it works. -/
def promptManifest : AgentManifest where
  id := "pi".toList
  version := none
  minEngineVersion := none
  aliases := []
  rules := [{
    id := "prompt".toList
    state := some .idle
    priority := 10
    region := "bottom_lines(2)".toList
    visibleIdle := true
    visibleBlocker := false
    visibleWorking := false
    skipStateUpdate := false
    all := []
    any := [⟨[], [], [], [], [], ["> ".toList]⟩]
    notGate := [⟨[], [], [], ["Working".toList], [], []⟩]
    contains := []
    regex := []
    lineRegex := [] }]

theorem evaluation_sound_prompt :
    (∃ compiled, compileManifest literalEngine promptManifest = .ok compiled
        ∧ compiled.length = 1)
      ∧ (bundledLoadedManifest literalEngine promptManifest none none false).isSome = true := by
  obtain ⟨⟨compiled, hcompiled, -, hlength⟩, hbundled, -⟩ :=
    evaluation_sound literalEngine (show validateManifest literalEngine promptManifest = .ok () from
      rfl)
  exact ⟨⟨compiled, hcompiled, hlength⟩, hbundled none none false⟩

end Herden.Proofs.Manifest.Rules
