import Herden.Proofs.Manifest.Version
import Herden.Runtime.Manifest.Update

/-!
# `Herden.Proofs.Manifest.Update`: cached manifests only get newer

A call of `process_agent_manifest` either replaces the cached file of its agent by a content whose
version is above the cached one, or leaves every cached file as it is
(`processAgentManifest_ends`). Runs of calls follow by induction: the cached versions of an agent
only go up (`states_neverOlder`), and so do the versions that are committed
(`commits_increase`).

`load_manifest_uncached` takes the cached manifest, the bundled one or an override, and the cached
one only where it is not below the bundled one (`loadManifestUncached_notOlder`).
-/

namespace Herden.Proofs.Manifest.Update

open Herden.Lib
open Herden.Lib.Fallible
open Herden.Lib.Text (utf8 fromUtf8 fromUtf8_utf8)
open Herden.Runtime.Detect (Agent agentLabel parseAgentLabel parseAgentLabel_agentLabel)
open Herden.Runtime.Manifest.Version
open Herden.Runtime.Manifest.Rules
open Herden.Runtime.Manifest.Update
open Herden.Proofs.Manifest.Version (rank cmp_compares_rank)

/-! ### Places of files -/

theorem manifestFile_injective {a b : Agent} (h : manifestFile a = manifestFile b) : a = b := by
  have hlabel : agentLabel a = agentLabel b :=
    String.toList_injective (List.append_cancel_right h)
  have hparsed := parseAgentLabel_agentLabel a
  rw [hlabel, parseAgentLabel_agentLabel] at hparsed
  exact (Option.some_inj.mp hparsed).symm

theorem head?_manifestFile (agent : Agent) : (manifestFile agent).head? ≠ some '.' := by
  cases agent <;> decide

variable {setting : Setting} {disk after before : Disk} {agent : Agent} {cached : Option Text}
  {shadowing : Bool} {bundled : AgentManifest}

theorem remoteManifestPath_injective {a b : Agent}
    (h : remoteManifestPath setting a = remoteManifestPath setting b) : a = b := by
  have hfile := List.append_cancel_left h
  simp only [List.cons.injEq, and_true, true_and] at hfile
  exact manifestFile_injective hfile

/-- A temporary file is beside the cached files, and none of them. -/
theorem temporaryPath_ne (setting : Setting) (outcomes : Outcomes) (a b : Agent) :
    remoteManifestPath setting b ≠ temporaryPath outcomes (remoteManifestPath setting a) := by
  intro h
  unfold temporaryPath at h
  have hlast := congrArg List.getLast? h
  unfold remoteManifestPath at hlast
  rw [List.getLast?_append, List.getLast?_concat] at hlast
  have hhead := head?_manifestFile b
  simp only [List.getLast?_cons_cons, List.getLast?_singleton, Option.some_or,
    Option.some_inj] at hlast
  rw [hlast] at hhead
  exact hhead rfl

/-! ### Writes -/

theorem ends_attempt {outcome : Except Text Unit} {Q : Unit → Disk → Prop} {E : Text → Disk → Prop}
    (hok : Q () disk) (herror : ∀ err, E err disk) : (attempt outcome).Ends disk Q E := by
  cases outcome with
  | ok => exact hok
  | error err => exact herror err

theorem ends_removeTemporary {outcomes : Outcomes} {path : Path} {Q : Unit → Disk → Prop}
    {E : Text → Disk → Prop} (hkept : Q () disk) (hremoved : Q () (setFile path none disk)) :
    (removeTemporary outcomes path).Ends disk Q E := by
  unfold removeTemporary
  split
  next => exact hremoved
  next => exact hkept

/-- The disks agree but for the temporary file. -/
def SameButTemporary (tmpPath : Path) (before after : Disk) : Prop :=
  ∀ path, path ≠ tmpPath → after path = before path

theorem SameButTemporary.setFile {tmpPath : Path} (h : SameButTemporary tmpPath before after)
    (bytes : Option (List UInt8)) :
    SameButTemporary tmpPath before (setFile tmpPath bytes after) := by
  intro path hpath
  unfold Runtime.Manifest.Update.setFile
  rw [if_neg hpath]
  exact h path hpath

/-- A write replaces the file, or leaves all files but the temporary one as they are. -/
theorem atomicWrite_ends {outcomes : Outcomes} {path : Path} {bytes : List UInt8}
    (hpath : path ≠ []) (htmp : path ≠ temporaryPath outcomes path) :
    (atomicWrite outcomes path bytes).Ends disk
      (fun _ after => after path = some bytes
        ∧ ∀ other, other ≠ path → other ≠ temporaryPath outcomes path →
          after other = disk other)
      (fun _ after => SameButTemporary (temporaryPath outcomes path) disk after) := by
  have hsame : SameButTemporary (temporaryPath outcomes path) disk disk := fun _ _ => rfl
  unfold atomicWrite
  rw [if_neg hpath]
  refine ends_bind.mpr (ends_attempt ?_ fun _ => hsame)
  refine ends_bind.mpr (ends_attempt ?_ fun _ => hsame)
  rw [ends_bind, ends_modify]
  have hcreated := hsame.setFile (some [])
  cases outcomes.writeAll with
  | error failure =>
    obtain ⟨err, written⟩ := failure
    rw [ends_bind, ends_modify, ends_bind]
    have hwritten := hcreated.setFile (some written)
    exact ends_removeTemporary hwritten (hwritten.setFile none)
  | ok =>
    rw [ends_bind, ends_modify]
    have hwritten := hcreated.setFile (some bytes)
    cases outcomes.rename with
    | error err =>
      rw [ends_bind]
      exact ends_removeTemporary hwritten (hwritten.setFile none)
    | ok =>
      rw [ends_modify]
      constructor
      · unfold setFile
        rw [if_neg htmp, if_pos rfl, if_pos rfl]
      · intro other hother hnotTmp
        unfold setFile
        rw [if_neg hnotTmp, if_neg hother, if_neg hnotTmp, if_neg hnotTmp]

/-- Every cached file is as it was. -/
def KeepsCache (setting : Setting) (before after : Disk) : Prop :=
  ∀ agent, after (remoteManifestPath setting agent) = before (remoteManifestPath setting agent)

/-- The cached file of an agent is replaced, and no other one. -/
def Commits (setting : Setting) (agent : Agent) (content : Text) (before after : Disk) : Prop :=
  after (remoteManifestPath setting agent) = some (utf8 content)
    ∧ ∀ other, other ≠ agent →
      after (remoteManifestPath setting other) = before (remoteManifestPath setting other)

theorem commitRemoteManifest_ends (setting : Setting) (outcomes : Outcomes) (agent : Agent)
    (content : Text) (disk : Disk) :
    (commitRemoteManifest setting outcomes agent content).Ends disk
      (fun _ => Commits setting agent content disk) (fun _ => KeepsCache setting disk) := by
  have hpath : remoteManifestPath setting agent ≠ [] := by
    unfold remoteManifestPath
    simp
  unfold commitRemoteManifest
  dsimp only
  rw [if_neg hpath]
  refine ends_bind.mpr (ends_attempt ?_ fun _ _ => rfl)
  refine (atomicWrite_ends hpath (temporaryPath_ne setting outcomes agent agent)).mono ?_ ?_
  · rintro _ after ⟨hfile, hothers⟩
    refine ⟨hfile, fun other hother => hothers _ ?_ (temporaryPath_ne setting outcomes agent other)⟩
    exact fun hsame => hother (remoteManifestPath_injective hsame)
  · intro _ after hsame other
    exact hsame _ (temporaryPath_ne setting outcomes agent other)

/-! ### Calls -/

/-- The version of a content for an agent. -/
def contentVersion (setting : Setting) (agent : Agent) (content : Text) : Option ManifestVersion :=
  (parseRemoteManifestForAgent setting agent content).toOption.map (·.version)

theorem cachedRemoteVersion_congr
    (h : after (remoteManifestPath setting agent) = before (remoteManifestPath setting agent)) :
    cachedRemoteVersion setting agent after = cachedRemoteVersion setting agent before := by
  unfold cachedRemoteVersion readToString
  rw [h]

/-- What is committed is what is read back. -/
theorem Commits.cachedRemoteVersion {content : Text}
    (h : Commits setting agent content before after) :
    cachedRemoteVersion setting agent after = contentVersion setting agent content := by
  unfold Runtime.Manifest.Update.cachedRemoteVersion readToString contentVersion
  rw [h.1]
  dsimp only
  rw [fromUtf8_utf8]
  dsimp only [Except.toOption, Option.bind_eq_bind, Option.bind_some]
  cases parseRemoteManifestForAgent setting agent content <;> rfl

/-- A call commits a content with a version above the cached one, or keeps every cached file. -/
theorem processAgentManifest_ends (setting : Setting) (outcomes : Outcomes) (agent : Agent)
    (content : Text) (disk : Disk) :
    (processAgentManifest setting outcomes agent content).Ends disk
      (fun result after => match result with
        | none => KeepsCache setting disk after
        | some commit => commit.agent = agent
            ∧ contentVersion setting agent content = some commit.version
            ∧ (∀ current ∈ cachedRemoteVersion setting agent disk,
              commit.version.cmp current = .gt)
            ∧ Commits setting agent content disk after)
      (fun _ => KeepsCache setting disk) := by
  have hkeep : KeepsCache setting disk disk := fun _ => rfl
  unfold processAgentManifest
  cases hparse : parseRemoteManifestForAgent setting agent content with
  | error err => exact hkeep
  | ok parsed =>
    have hversion : contentVersion setting agent content = some parsed.version := by
      unfold contentVersion
      rw [hparse]
      rfl
    have hcommit (hnewer : ∀ current ∈ cachedRemoteVersion setting agent disk,
        parsed.version.cmp current = .gt) :
        (commitAndReport setting outcomes agent content parsed.version).Ends disk
          (fun result after => match result with
            | none => KeepsCache setting disk after
            | some commit => commit.agent = agent
                ∧ contentVersion setting agent content = some commit.version
                ∧ (∀ current ∈ cachedRemoteVersion setting agent disk,
                  commit.version.cmp current = .gt)
                ∧ Commits setting agent content disk after)
          (fun _ => KeepsCache setting disk) := by
      unfold commitAndReport
      rw [ends_bind]
      refine (commitRemoteManifest_ends setting outcomes agent content disk).mono ?_ ?_
      · exact fun _ after hafter => ⟨rfl, hversion, hnewer, hafter⟩
      · exact fun _ _ hafter => hafter
    dsimp only
    rw [ends_bind, ends_get]
    cases hcached : cachedRemoteVersion setting agent disk with
    | none =>
      rw [hcached] at hcommit
      exact hcommit fun _ hmem => nomatch hmem
    | some current =>
      rw [hcached] at hcommit
      dsimp only
      cases hcmp : parsed.version.cmp current with
      | lt => exact hkeep
      | eq =>
        dsimp only
        split
        next => exact hkeep
        next => exact hkeep
      | gt =>
        refine hcommit fun other hother => ?_
        rw [← Option.mem_some_iff.mp hother]
        exact hcmp

/-! ### Runs -/

structure Call where
  agent : Agent
  content : Text
  outcomes : Outcomes

/-- A call, how it ended, and the disks before and after it. -/
structure Event where
  call : Call
  before : Disk
  result : Except Text (Option ManifestUpdateCommit)
  after : Disk

def callEvent (setting : Setting) (disk : Disk) (call : Call) : Event :=
  let (result, after) := processAgentManifest setting call.outcomes call.agent call.content disk
  ⟨call, disk, result, after⟩

/-- The events of a sequence of calls. -/
def run (setting : Setting) : Disk → List Call → List Event
  | _, [] => []
  | disk, call :: calls =>
      let event := callEvent setting disk call
      event :: run setting event.after calls

/-- The disks of a run, from the first one on. -/
def states (setting : Setting) (disk : Disk) (calls : List Call) : List Disk :=
  disk :: (run setting disk calls).map (·.after)

/-- No cached version is older than it was, and none is gone. -/
def NeverOlder (setting : Setting) (before after : Disk) : Prop :=
  ∀ agent, ∀ version ∈ cachedRemoteVersion setting agent before,
    ∃ later ∈ cachedRemoteVersion setting agent after, later.cmp version ≠ .lt

theorem NeverOlder.refl (setting : Setting) (disk : Disk) : NeverOlder setting disk disk :=
  fun _ version hversion => ⟨version, hversion,
    (cmp_compares_rank version version).ne_lt.mpr (le_refl _)⟩

theorem NeverOlder.trans {first second third : Disk} (h : NeverOlder setting first second)
    (h' : NeverOlder setting second third) : NeverOlder setting first third := by
  intro agent version hversion
  obtain ⟨later, hlater, hle⟩ := h agent version hversion
  obtain ⟨latest, hlatest, hle'⟩ := h' agent later hlater
  rw [(cmp_compares_rank _ _).ne_lt] at hle hle'
  exact ⟨latest, hlatest, (cmp_compares_rank _ _).ne_lt.mpr (le_trans hle hle')⟩

variable {event : Event}

/-- What an event did, by its result. -/
theorem event_spec
    (h : processAgentManifest setting event.call.outcomes event.call.agent event.call.content
      event.before = (event.result, event.after)) : match event.result with
    | .ok (some commit) => commit.agent = event.call.agent
        ∧ contentVersion setting event.call.agent event.call.content = some commit.version
        ∧ (∀ current ∈ cachedRemoteVersion setting event.call.agent event.before,
          commit.version.cmp current = .gt)
        ∧ Commits setting event.call.agent event.call.content event.before event.after
    | _ => KeepsCache setting event.before event.after := by
  have hends := processAgentManifest_ends setting event.call.outcomes event.call.agent
    event.call.content event.before
  unfold Ends at hends
  rw [h] at hends
  generalize event.result = result at hends ⊢
  cases result with
  | error err => exact hends
  | ok commit =>
    cases commit with
    | none => exact hends
    | some commit => exact hends

theorem event_neverOlder
    (h : processAgentManifest setting event.call.outcomes event.call.agent event.call.content
      event.before = (event.result, event.after)) :
    NeverOlder setting event.before event.after := by
  have hspec := event_spec h
  have hkept : KeepsCache setting event.before event.after →
      NeverOlder setting event.before event.after := by
    intro hkeep agent version hversion
    rw [← cachedRemoteVersion_congr (hkeep agent)] at hversion
    exact ⟨version, hversion, (cmp_compares_rank version version).ne_lt.mpr (le_refl _)⟩
  split at hspec
  next commit _ =>
    obtain ⟨-, hversion, hnewer, hcommits⟩ := hspec
    intro agent version hcached
    by_cases hagent : agent = event.call.agent
    · subst hagent
      refine ⟨commit.version, ?_, ?_⟩
      · rw [hcommits.cachedRemoteVersion, hversion]
        rfl
      · rw [hnewer version hcached]
        decide
    · rw [← cachedRemoteVersion_congr (hcommits.2 agent hagent)] at hcached
      exact ⟨version, hcached, (cmp_compares_rank version version).ne_lt.mpr (le_refl _)⟩
  next => exact hkept hspec

theorem callEvent_spec (setting : Setting) (disk : Disk) (call : Call) :
    processAgentManifest setting (callEvent setting disk call).call.outcomes
        (callEvent setting disk call).call.agent (callEvent setting disk call).call.content
        (callEvent setting disk call).before
      = ((callEvent setting disk call).result, (callEvent setting disk call).after) := rfl

/-- Every event of a run is a call from its disk, and comes after the first disk. -/
theorem run_spec {calls : List Call} (h : event ∈ run setting disk calls) :
    processAgentManifest setting event.call.outcomes event.call.agent event.call.content
        event.before = (event.result, event.after)
      ∧ NeverOlder setting disk event.before := by
  induction calls generalizing disk with
  | nil => cases h
  | cons call calls ih =>
    rcases List.mem_cons.mp h with rfl | hrest
    · exact ⟨rfl, NeverOlder.refl setting disk⟩
    · obtain ⟨hcall, holder⟩ := ih hrest
      refine ⟨hcall, NeverOlder.trans ?_ holder⟩
      exact event_neverOlder (callEvent_spec setting disk call)

theorem states_neverOlder (setting : Setting) (disk : Disk) (calls : List Call) :
    (states setting disk calls).Pairwise (NeverOlder setting) := by
  induction calls generalizing disk with
  | nil => exact List.pairwise_singleton _ _
  | cons call calls ih =>
    refine List.Pairwise.cons ?_ (ih _)
    intro later hlater
    obtain ⟨event, hevent, rfl⟩ := List.mem_map.mp hlater
    have hrun : event ∈ run setting disk (call :: calls) := hevent
    obtain ⟨hcall, holder⟩ := run_spec hrun
    exact holder.trans (event_neverOlder hcall)

theorem commits_increase (setting : Setting) (disk : Disk) (calls : List Call) :
    (run setting disk calls).Pairwise fun earlier later =>
      ∀ first second, earlier.result = .ok (some first) → later.result = .ok (some second) →
        earlier.call.agent = later.call.agent → first.version.cmp second.version = .lt := by
  induction calls generalizing disk with
  | nil => exact List.Pairwise.nil
  | cons call calls ih =>
    refine List.Pairwise.cons ?_ (ih _)
    intro later hlater first second hfirst hsecond hagent
    obtain ⟨hcall, holder⟩ := run_spec hlater
    have hbefore := event_spec (callEvent_spec setting disk call)
    have hafter := event_spec hcall
    rw [hfirst] at hbefore
    rw [hsecond] at hafter
    obtain ⟨-, hversion, -, hcommits⟩ := hbefore
    obtain ⟨-, -, hnewer, -⟩ := hafter
    -- The first commit is cached, what is cached when the second call begins is not older.
    have hcached : first.version ∈ cachedRemoteVersion setting
        (callEvent setting disk call).call.agent (callEvent setting disk call).after := by
      rw [hcommits.cachedRemoteVersion, hversion]
      rfl
    obtain ⟨current, hcurrent, hnotOlder⟩ := holder _ first.version hcached
    have hgreater := hnewer current (by rw [← hagent]; exact hcurrent)
    rw [(cmp_compares_rank _ _).ne_lt] at hnotOlder
    rw [(cmp_compares_rank _ _).eq_gt] at hgreater
    exact (cmp_compares_rank _ _).eq_lt.mpr (lt_of_le_of_lt hnotOlder hgreater)

/-! ### Loading -/

/-- A loaded manifest is not a cached one below the bundled one. -/
def NotOlder {Regex : Type} (bundled : AgentManifest) (loaded : LoadedManifest Regex) : Prop :=
  ∀ path version, loaded.source = .remote path version →
    ∀ remoteVersion ∈ loaded.manifest.version, ∀ bundledVersion ∈ bundled.version,
      remoteVersion.cmp bundledVersion ≠ .lt

theorem loadedManifest_spec {engine : Engine} {manifest : AgentManifest} {source : ManifestSource}
    {warning : Option Text} {loaded : LoadedManifest engine.Regex}
    (h : loadedManifest engine manifest source warning cached shadowing = .ok loaded) :
    loaded.manifest = manifest ∧ loaded.source = source := by
  unfold loadedManifest at h
  obtain ⟨compiled, -, hloaded⟩ := bind_eq_ok.mp h
  cases hloaded
  exact ⟨rfl, rfl⟩

theorem bundledLoadedManifest_notOlder {engine : Engine} {manifest : AgentManifest}
    {warning : Option Text} {loaded : LoadedManifest engine.Regex}
    (h : bundledLoadedManifest engine manifest warning cached shadowing = some loaded) :
    NotOlder bundled loaded := by
  unfold bundledLoadedManifest at h
  cases hloaded : loadedManifest engine manifest .bundled warning cached shadowing with
  | error err =>
    rw [hloaded] at h
    cases h
  | ok other =>
    rw [hloaded] at h
    cases h
    intro path version hsource
    rw [(loadedManifest_spec hloaded).2] at hsource
    cases hsource

/-- The cached manifest is read where it is not below the bundled one. -/
theorem readRemoteManifest_notOlder {remote : Option (LoadedManifest setting.engine.Regex)}
    (h : readRemoteManifest setting agent bundled disk = some remote) :
    ∀ loaded ∈ remote, NotOlder bundled loaded := by
  unfold readRemoteManifest at h
  dsimp only at h
  split at h
  next =>
    cases h
    exact fun _ hmem => nomatch hmem
  next =>
    split at h
    next err _ =>
      obtain ⟨loaded, hloaded, hremote⟩ := Option.bind_eq_some_iff.mp h
      cases hremote
      rintro _ ⟨⟩
      exact bundledLoadedManifest_notOlder hloaded
    next manifest _ =>
      split at h
      next =>
        obtain ⟨loaded, hloaded, hremote⟩ := Option.bind_eq_some_iff.mp h
        cases hremote
        rintro _ ⟨⟩
        exact bundledLoadedManifest_notOlder hloaded
      next hnewer =>
        split at h
        next loaded hloaded =>
          cases h
          rintro _ ⟨⟩
          intro path version _ remoteVersion hremote bundledVersion hbundled hlt
          rw [(loadedManifest_spec hloaded).1] at hremote
          rw [Option.mem_def.mp hremote, Option.mem_def.mp hbundled] at hnewer
          simp [hlt] at hnewer
        next =>
          obtain ⟨loaded, hloaded, hremote⟩ := Option.bind_eq_some_iff.mp h
          cases hremote
          rintro _ ⟨⟩
          exact bundledLoadedManifest_notOlder hloaded

theorem remoteOrBundled_notOlder {remote : Option (LoadedManifest setting.engine.Regex)}
    {loaded : LoadedManifest setting.engine.Regex}
    (hremote : ∀ loaded ∈ remote, NotOlder bundled loaded)
    (h : remoteOrBundled setting remote bundled cached shadowing = some loaded) :
    NotOlder bundled loaded := by
  cases remote with
  | none => exact bundledLoadedManifest_notOlder h
  | some other =>
    cases h
    exact hremote _ rfl

/-- What is loaded is no cached manifest below the bundled one. -/
theorem loadManifestUncached_notOlder {loaded : LoadedManifest setting.engine.Regex}
    (hbundled : bundledManifest setting agent = some (some bundled))
    (h : loadManifestUncached setting agent disk = some (some loaded)) :
    NotOlder bundled loaded := by
  unfold loadManifestUncached at h
  rw [hbundled, Option.bind_eq_bind, Option.bind_some] at h
  obtain ⟨remote, hread, h⟩ := Option.bind_eq_some_iff.mp h
  have hremote := readRemoteManifest_notOlder hread
  dsimp only at h
  generalize hcached : Option.bind remote _ = cached at h
  have hkept : ∀ other ∈ remote.map fun loaded =>
      { loaded with
        cachedRemoteVersion := cached
        localOverrideShadowingRemote :=
          (disk (overridePath setting agent)).isSome && cached.isSome },
      NotOlder bundled other := by
    intro other hother
    obtain ⟨original, horiginal, rfl⟩ := Option.mem_map.mp hother
    exact hremote original horiginal
  split at h
  next =>
    obtain ⟨other, hother, hloaded⟩ := Option.bind_eq_some_iff.mp h
    cases hloaded
    exact remoteOrBundled_notOlder hkept hother
  next =>
    split at h
    next manifest _ =>
      split at h
      next =>
        split at h
        next other hother =>
          cases h
          intro path version hsource
          rw [(loadedManifest_spec hother).2] at hsource
          cases hsource
        next =>
          obtain ⟨other, hother, hloaded⟩ := Option.bind_eq_some_iff.mp h
          cases hloaded
          exact (remoteOrBundled_notOlder hkept hother : NotOlder bundled other)
      next =>
        obtain ⟨other, hother, hloaded⟩ := Option.bind_eq_some_iff.mp h
        cases hloaded
        exact (remoteOrBundled_notOlder hkept hother : NotOlder bundled other)
    next =>
      obtain ⟨other, hother, hloaded⟩ := Option.bind_eq_some_iff.mp h
      cases hloaded
      exact (remoteOrBundled_notOlder hkept hother : NotOlder bundled other)

/-! ### Updates are monotone -/

/-- `cmp` is the order of the numbers of accepted versions, so a total preorder whose equality is
`eq`. -/
def VersionsOrdered (debug : Text → Text) : Prop :=
  ∀ a b c left middle right, ManifestVersion.parse debug a = .ok left →
    ManifestVersion.parse debug b = .ok middle → ManifestVersion.parse debug c = .ok right →
    (left.cmp right).Compares (padded (Version.numbers left)) (padded (Version.numbers right))
      ∧ left.cmp left = .eq
      ∧ (left.cmp right ≠ .gt ∨ right.cmp left ≠ .gt)
      ∧ (left.cmp middle ≠ .gt → middle.cmp right ≠ .gt → left.cmp right ≠ .gt)
      ∧ (left.cmp right = .eq ↔ left.cmp right ≠ .gt ∧ right.cmp left ≠ .gt)

/-- In a run from a disk, cached versions never go down, commits of an agent go up, and what is not
a commit keeps the cached files. -/
structure Monotone (setting : Setting) (disk : Disk) (calls : List Call) : Prop where
  cached : (states setting disk calls).Pairwise (NeverOlder setting)
  committed : ∀ event ∈ run setting disk calls, ∀ commit, event.result = .ok (some commit) →
    commit.agent = event.call.agent
      ∧ contentVersion setting event.call.agent event.call.content = some commit.version
  increasing : (run setting disk calls).Pairwise fun earlier later =>
    ∀ first second, earlier.result = .ok (some first) → later.result = .ok (some second) →
      earlier.call.agent = later.call.agent → first.version.cmp second.version = .lt
  unchanged : ∀ event ∈ run setting disk calls,
    (∀ commit, event.result ≠ .ok (some commit)) → KeepsCache setting event.before event.after

theorem versionsOrdered (debug : Text → Text) : VersionsOrdered debug := by
  intro a b c left middle right hleft _ hright
  have hcmp := fun v w => cmp_compares_rank v w
  refine ⟨Version.cmp_compares hleft hright, (hcmp _ _).eq_eq.mpr rfl, ?_, ?_, ?_⟩
  · rw [(hcmp _ _).ne_gt, (hcmp _ _).ne_gt]
    exact le_total _ _
  · rw [(hcmp _ _).ne_gt, (hcmp _ _).ne_gt, (hcmp _ _).ne_gt]
    exact le_trans
  · rw [(hcmp _ _).ne_gt, (hcmp _ _).ne_gt, (hcmp _ _).eq_eq]
    exact le_antisymm_iff

/-- Updates are monotone: versions are ordered by their numbers, in every run the cached versions
only go up, and no cached manifest below the bundled one is loaded. -/
theorem updates_monotone (setting : Setting) :
    VersionsOrdered setting.engine.debug
      ∧ (∀ disk calls, Monotone setting disk calls)
      ∧ ∀ agent bundled disk loaded, bundledManifest setting agent = some (some bundled) →
        loadManifestUncached setting agent disk = some (some loaded) →
        NotOlder bundled loaded := by
  refine ⟨versionsOrdered _, fun disk calls => ?_, fun _ _ _ _ hbundled hloaded =>
    loadManifestUncached_notOlder hbundled hloaded⟩
  refine ⟨states_neverOlder setting disk calls, ?_, commits_increase setting disk calls, ?_⟩
  · intro event hevent commit hresult
    have hspec := event_spec (run_spec hevent).1
    rw [hresult] at hspec
    exact ⟨hspec.1, hspec.2.1⟩
  · intro event hevent hother
    have hspec := event_spec (run_spec hevent).1
    split at hspec
    next commit hresult => exact absurd hresult (hother commit)
    next => exact hspec

end Herden.Proofs.Manifest.Update
