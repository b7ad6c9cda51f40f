import Herden.Lib.Fallible
import Herden.Lib.Run
import Herden.Runtime.Pairing.AuthorizedKeys

/-!
# `Herden.Proofs.Pairing.AuthorizedKeys`: which lines an edit removes

Every edit reads the lines of the file, keeps some and writes them back. `readLines_unlines` says
that the lines come back as they were, as long as none ends in a carriage return: the reader takes
one away in front of a line feed.

An edit recognises its own lines by a marker in their last word, and nothing keeps this word out
of other lines: the lines that were there before, and the comment of a device key. `Spared` says
that a step does not take such a line for its own. In a run of such steps every line of the first
file and every line that `enroll` added stays, in the same order (`lines_kept`). The marker of a
user's line is enough to lose it (`marked_line_removed`).
-/

namespace Herden.Proofs.Pairing.AuthorizedKeys

open Herden.Lib
open Herden.Lib.Text (lines unlines stripReturn splitWhitespace utf8)
open Herden.Runtime.Pairing.Identity
open Herden.Runtime.Pairing.AuthorizedKeys

/-! ### Lines that come back as they were -/

/-- A line without a line feed that does not end in a carriage return. -/
def Clean (line : Text) : Prop := '\n' ∉ line ∧ line.getLast? ≠ some '\r'

variable {line : Text} {file : Option Text}

theorem Clean.stripReturn (h : Clean line) : stripReturn line = line := by
  rw [Text.stripReturn, if_neg h.2]

/-- A text without line breaks. -/
def Unbroken (text : Text) : Prop := ∀ c ∈ text, c ≠ '\n' ∧ c ≠ '\r'

variable {text pairingId input : Text} {texts : List Text} {key : DeviceKey}
  {sha256 : List UInt8 → List UInt8} {test : Text → Bool}

theorem Unbroken.of_all (h : text.all (fun c => c ≠ '\n' ∧ c ≠ '\r') = true) : Unbroken text :=
  fun c hc => of_decide_eq_true (List.all_eq_true.mp h c hc)

theorem Unbroken.append {a b : Text} (ha : Unbroken a) (hb : Unbroken b) : Unbroken (a ++ b) := by
  intro c hc
  cases List.mem_append.mp hc with
  | inl h => exact ha c h
  | inr h => exact hb c h

theorem Unbroken.cons {c : Char} {text : Text} (hc : c ≠ '\n' ∧ c ≠ '\r') (h : Unbroken text) :
    Unbroken (c :: text) := by
  intro other hother
  cases List.mem_cons.mp hother with
  | inl heq => rw [heq]; exact hc
  | inr hmem => exact h other hmem

theorem Unbroken.clean (h : Unbroken text) : Clean text := by
  refine ⟨fun hmem => (h _ hmem).1 rfl, fun hlast => ?_⟩
  exact (h _ (List.mem_of_getLast? hlast)).2 rfl

theorem readLines_unlines_map (h : ∀ line ∈ texts, '\n' ∉ line) :
    readLines (some (unlines texts)) = texts.map stripReturn :=
  Text.lines_unlines h

theorem readLines_unlines (h : ∀ line ∈ texts, Clean line) :
    readLines (some (unlines texts)) = texts := by
  calc readLines (some (unlines texts))
      = texts.map stripReturn := readLines_unlines_map fun line hline => (h line hline).1
    _ = texts.map id := List.map_congr_left fun line hline => (h line hline).stripReturn
    _ = texts := List.map_id texts

theorem not_mem_readLines (h : line ∈ readLines file) : '\n' ∉ line := by
  cases file with
  | none => cases h
  | some text => exact Text.not_mem_lines h

/-! ### Lines that an edit writes -/

theorem unbroken_toDigits (n : Nat) : Unbroken (Nat.toDigits 10 n) := by
  intro c hc
  have hdigit := Nat.isDigit_of_mem_toDigits (by omega) (by omega) hc
  constructor
  · rintro rfl
    revert hdigit
    decide
  · rintro rfl
    revert hdigit
    decide

theorem unbroken_pairingId {id : Text} (h : isPairingId id = true) : Unbroken id := by
  rw [isPairingId, Bool.and_eq_true] at h
  intro c hc
  have hchar := List.all_eq_true.mp h.2 c hc
  constructor
  · rintro rfl
    revert hchar
    decide
  · rintro rfl
    revert hchar
    decide

theorem unbroken_bootstrapLine {publicLine command : Text} {expiresAt : Nat}
    (hpublic : Unbroken publicLine)
    (h : bootstrapLine publicLine pairingId expiresAt command = .ok line) : Unbroken line := by
  unfold bootstrapLine at h
  split at h
  · cases h
  next hid =>
    split at h
    · cases h
    next hcommand =>
      cases h
      have hid : Unbroken pairingId := unbroken_pairingId (by simpa using hid)
      have hcommand : Unbroken command := by
        intro c hc
        have hchar : ¬ (c = '"' || c = '\n' || c = '\r') = true := fun hbad =>
          hcommand (List.any_eq_true.mpr ⟨c, hc, hbad⟩)
        simp only [Bool.or_eq_true, decide_eq_true_eq, not_or] at hchar
        exact ⟨hchar.1.2, hchar.2⟩
      have hstart : Unbroken "restrict,command=\"".toList := .of_all (by decide)
      have hmarker : Unbroken markerStart := .of_all (by decide)
      have hexp : Unbroken ":exp:".toList := .of_all (by decide)
      exact hstart.append (hcommand.append (.cons (by decide) (.cons (by decide)
        (hpublic.append (.cons (by decide) (hmarker.append (hid.append
          (hexp.append (unbroken_toDigits expiresAt)))))))))

theorem unbroken_encodePadded (bytes : List UInt8) : Unbroken (Base64.encodePadded bytes) := by
  have halphabet : Unbroken Base64.alphabet := .of_all (by decide)
  have hchars : Unbroken (Base64.encodeChars bytes) :=
    fun c hc => halphabet c (Base64.mem_alphabet_of_mem_encodeChars bytes c hc)
  refine hchars.append ?_
  intro c hc
  rw [List.eq_of_mem_replicate hc]
  decide

theorem unbroken_keyType : Unbroken keyType := .of_all (by decide)

/-- What the line of a device key is made of. -/
theorem parseDeviceKey_line (h : parseDeviceKey sha256 input = .ok key) :
    ∃ blob comment, key.line = canonicalLine blob comment ∧ blob ≠ []
      ∧ comment.all isPrintable = true := by
  unfold parseDeviceKey at h
  simp only [bind_eq_ok] at h
  obtain ⟨_, _, _, _, _, _, _, _, _, _, blob, _, _, hwire, _, _, _, _, _, _, _, _, _, hcomment, _,
    _, h⟩ := h
  cases h
  refine ⟨blob, _, rfl, ?_, ?_⟩
  · rintro rfl
    cases hwire
  · generalize [' '].intercalate _ = comment at hcomment ⊢
    cases hall : comment.all isPrintable with
    | false =>
      rw [hall] at hcomment
      cases hcomment
    | true => rfl

theorem unbroken_parseDeviceKey (h : parseDeviceKey sha256 input = .ok key) :
    Unbroken key.line := by
  obtain ⟨blob, comment, hline, -, hcomment⟩ := parseDeviceKey_line h
  have hprintable : Unbroken comment := by
    intro c hc
    have hchar := List.all_eq_true.mp hcomment c hc
    constructor
    · rintro rfl
      revert hchar
      decide
    · rintro rfl
      revert hchar
      decide
  rw [hline]
  unfold canonicalLine
  split
  · exact unbroken_keyType.append (.cons (by decide) (unbroken_encodePadded blob))
  · exact unbroken_keyType.append (.cons (by decide) ((unbroken_encodePadded blob).append
      (.cons (by decide) hprintable)))

/-! ### Edits of a file -/

/-- What `retain` writes, if it writes at all. -/
theorem retain_cases (test : Text → Bool) (file : Option Text) :
    (retain test file = file ∧ ∀ line ∈ readLines file, test line = true) ∨
      retain test file = some (unlines ((readLines file).filter test)) := by
  unfold retain edit
  dsimp only
  by_cases hlength : ((readLines file).filter test).length = (readLines file).length
  · rw [if_neg (not_not_intro hlength)]
    exact Or.inl ⟨rfl, List.length_filter_eq_length_iff.mp hlength⟩
  · rw [if_pos hlength]
    exact Or.inr rfl

theorem readLines_retain (h : ∀ line ∈ readLines file, Clean line) :
    readLines (retain test file) = (readLines file).filter test := by
  cases retain_cases test file with
  | inl hsame => rw [hsame.1, List.filter_eq_self.mpr hsame.2]
  | inr hwritten =>
    rw [hwritten]
    exact readLines_unlines fun line hline => h line (List.mem_filter.mp hline).1

theorem readLines_appendBootstrap (h : ∀ line ∈ readLines file, Clean line) (hline : Clean line) :
    readLines (appendBootstrap line file) = readLines file ++ [line] := by
  apply readLines_unlines
  intro other hother
  cases List.mem_append.mp hother with
  | inl hmem => exact h other hmem
  | inr hmem => rw [List.mem_singleton.mp hmem]; exact hline

/-- The line of the device was not there and has been written. -/
def pushes (pairingId deviceLine : Text) (calls : EnrollCalls) (file : Option Text) : Bool :=
  calls.pendingExists && !calls.expired && calls.recorded &&
    !((readLines file).filter (keeps pairingId)).any fun line =>
      keyIdentity line = keyIdentity deviceLine

/-- `enroll` removes the lines of the pairing, if it is pending, and may add one. -/
theorem readLines_enroll {deviceLine : Text} {calls : EnrollCalls}
    (h : ∀ line ∈ readLines file, Clean line) (hdevice : Clean deviceLine) :
    (readLines (enroll pairingId deviceLine calls file).2 = readLines file ∧
        pushes pairingId deviceLine calls file = false) ∨
      calls.pendingExists = true ∧
      readLines (enroll pairingId deviceLine calls file).2
        = (readLines file).filter (keeps pairingId)
          ++ if pushes pairingId deviceLine calls file then [deviceLine] else [] := by
  have hkept : ∀ line ∈ (readLines file).filter (keeps pairingId), Clean line :=
    fun line hline => h line (List.mem_filter.mp hline).1
  unfold enroll pushes
  cases hpending : calls.pendingExists with
  | false => exact Or.inl ⟨rfl, rfl⟩
  | true =>
    cases hexpired : calls.expired with
    | true =>
      refine Or.inr ⟨rfl, ?_⟩
      simp only [Bool.not_true, Bool.and_false, Bool.false_and, Bool.false_eq_true, if_false,
        if_true, List.append_nil]
      exact readLines_unlines hkept
    | false =>
      cases hrecorded : calls.recorded with
      | false => exact Or.inl ⟨rfl, rfl⟩
      | true =>
        refine Or.inr ⟨rfl, ?_⟩
        simp only [Bool.not_true, Bool.not_false, Bool.and_true, Bool.true_and,
          Bool.false_eq_true, if_false, if_true, pushDevice]
        split
        next hthere => simpa [hthere] using readLines_unlines hkept
        next hnew =>
          rw [Bool.not_eq_true] at hnew
          rw [hnew, Bool.not_false, if_pos rfl]
          apply readLines_unlines
          intro line hline
          cases List.mem_append.mp hline with
          | inl hmem => exact hkept line hmem
          | inr hmem => rw [List.mem_singleton.mp hmem]; exact hdevice

/-! ### Runs of edits -/

/-- The file, the lines that must stay, and those that `append_bootstrap` wrote. -/
structure State where
  file : Option Text
  lasting : List Text
  appended : List Text

inductive Op where
  | append (line : Text)
  | remove (pairingId : Text)
  | sweep (now : Nat)
  | enroll (pairingId deviceLine : Text) (calls : EnrollCalls)

def step (state : State) : Op → Option (State × Unit)
  | .append line =>
      some ({ state with
        file := appendBootstrap line state.file
        appended := state.appended ++ [line] }, ())
  | .remove pairingId => some ({ state with file := removeBootstrap pairingId state.file }, ())
  | .sweep now => some ({ state with file := sweepExpired now state.file }, ())
  | .enroll pairingId deviceLine calls =>
      some ({ state with
        file := (enroll pairingId deviceLine calls state.file).2
        lasting := state.lasting ++
          if pushes pairingId deviceLine calls state.file then [deviceLine] else [] }, ())

/-- A new line is a bootstrap line, with a public key of one line, or the line of a parsed device
key. -/
def Allowed (sha256 : List UInt8 → List UInt8) (_ : State) : Op → Prop
  | .append line => ∃ publicLine pairingId expiresAt command, Unbroken publicLine ∧
      bootstrapLine publicLine pairingId expiresAt command = .ok line
  | .enroll _ deviceLine _ => ∃ input key, parseDeviceKey sha256 input = .ok key ∧
      key.line = deviceLine
  | _ => True

/-- The step does not take a line that must stay for one of its own. -/
def Spared (state : State) : Op → Prop
  | .append _ => True
  | .remove pairingId => ∀ line ∈ state.lasting, keeps pairingId line = true
  | .sweep now => ∀ line ∈ state.lasting, outlives now line = true
  | .enroll pairingId _ calls =>
      calls.pendingExists = true → ∀ line ∈ state.lasting, keeps pairingId line = true

/-- At first, all lines of the file must stay. -/
def Init (state : State) : Prop :=
  state.lasting = readLines state.file ∧ state.appended = []

/-- The lines that must stay are there in their order, and the others were appended. -/
def Intact (state : State) : Prop :=
  state.lasting.Sublist (readLines state.file) ∧
    ∀ line ∈ readLines state.file, line ∈ state.lasting ∨ line ∈ state.appended

/-- The invariant: nothing is lost, and every line comes back as it was. -/
structure Inv (state : State) : Prop where
  intact : Intact state
  clean : ∀ line ∈ readLines state.file, Clean line

variable {state : State}

/-- A filter that spares the lasting lines keeps the invariant. -/
theorem Inv.filter (h : Inv state) (hspared : ∀ line ∈ state.lasting, test line = true)
    (hfile : readLines file = (readLines state.file).filter test) :
    Inv { state with file := file } := by
  refine ⟨⟨?_, ?_⟩, ?_⟩
  · show state.lasting.Sublist (readLines file)
    have hsub := h.intact.1.filter test
    rw [List.filter_eq_self.mpr hspared] at hsub
    rw [hfile]
    exact hsub
  · intro line hline
    rw [show readLines file = (readLines state.file).filter test from hfile] at hline
    exact h.intact.2 line (List.mem_filter.mp hline).1
  · intro line hline
    rw [show readLines file = (readLines state.file).filter test from hfile] at hline
    exact h.clean line (List.mem_filter.mp hline).1

/-- New lines at the end keep the invariant, if each of them must stay or was appended. -/
theorem Inv.append {added : List Text} (lasting appended : List Text) (h : Inv state)
    (hclean : ∀ line ∈ added, Clean line) (hlasting : lasting.Sublist added)
    (hadded : ∀ line ∈ added, line ∈ lasting ∨ line ∈ appended)
    (hfile : readLines file = readLines state.file ++ added) :
    Inv ⟨file, state.lasting ++ lasting, state.appended ++ appended⟩ := by
  refine ⟨⟨?_, ?_⟩, ?_⟩
  · show (state.lasting ++ lasting).Sublist (readLines file)
    rw [hfile]
    exact h.intact.1.append hlasting
  · intro line hline
    show line ∈ state.lasting ++ lasting ∨ line ∈ state.appended ++ appended
    rw [show readLines file = _ from hfile] at hline
    have hold : line ∈ readLines state.file → line ∈ state.lasting ∨ line ∈ state.appended :=
      h.intact.2 line
    have hnew := hadded line
    simp only [List.mem_append] at hline ⊢
    tauto
  · intro line hline
    rw [show readLines file = _ from hfile] at hline
    cases List.mem_append.mp hline with
    | inl hmem => exact h.clean line hmem
    | inr hmem => exact hclean line hmem

theorem Inv.step {sha256 : List UInt8 → List UInt8} {state next : State} {op : Op} {answer : Unit}
    (h : Inv state) (hallowed : Allowed sha256 state op) (hspared : Spared state op)
    (hstep : step state op = some (next, answer)) : Inv next := by
  cases op with
  | append line =>
    cases hstep
    obtain ⟨publicLine, pairingId, expiresAt, command, hpublic, hline⟩ := hallowed
    have hclean : ∀ other ∈ [line], Clean other := by
      intro other hother
      rw [List.mem_singleton.mp hother]
      exact (unbroken_bootstrapLine hpublic hline).clean
    have hfile := readLines_appendBootstrap h.clean (hclean line (List.mem_singleton_self line))
    have hnext := h.append [] [line] hclean (List.nil_sublist _)
      (fun _ hother => Or.inr hother) hfile
    rw [List.append_nil] at hnext
    exact hnext
  | remove pairingId =>
    cases hstep
    exact h.filter hspared (readLines_retain h.clean)
  | sweep now =>
    cases hstep
    exact h.filter hspared (readLines_retain h.clean)
  | enroll pairingId deviceLine calls =>
    cases hstep
    obtain ⟨input, key, hkey, rfl⟩ := hallowed
    have hclean := (unbroken_parseDeviceKey hkey).clean
    have hadded : ∀ line ∈ (if pushes pairingId key.line calls state.file then [key.line] else []),
        Clean line := by
      intro line hline
      split at hline
      · rw [List.mem_singleton.mp hline]
        exact hclean
      · cases hline
    -- the lines of the pairing go first, if they go at all
    have hfiltered : ∃ file, Inv { state with file := file } ∧
        readLines (enroll pairingId key.line calls state.file).2 = readLines file
          ++ if pushes pairingId key.line calls state.file then [key.line] else [] := by
      cases readLines_enroll h.clean hclean with
      | inl hsame =>
        refine ⟨state.file, h, ?_⟩
        rw [hsame.1, hsame.2]
        exact (List.append_nil _).symm
      | inr hedited =>
        refine ⟨retain (keeps pairingId) state.file,
          h.filter (hspared hedited.1) (readLines_retain h.clean), ?_⟩
        rw [hedited.2, readLines_retain h.clean]
    obtain ⟨file, hinv, hfile⟩ := hfiltered
    have hnext := hinv.append _ [] hadded (List.Sublist.refl _)
      (fun _ hother => Or.inl hother) hfile
    rw [List.append_nil] at hnext
    exact hnext

/-- In a run whose steps all spare the lasting lines, none of them is lost or moved, and only
appended lines are removed. -/
theorem lines_kept (sha256 : List UInt8 → List UInt8) {state : State}
    (h : Reachable (fun state => Init state ∧ ∀ line ∈ readLines state.file, Clean line)
      (fun state op => Allowed sha256 state op ∧ Spared state op) step state) :
    Intact state := by
  have hinv := h.invariant Inv
    (by
      intro state hinit
      refine ⟨⟨?_, ?_⟩, hinit.2⟩
      · rw [hinit.1.1]
      · intro line hline
        rw [hinit.1.1]
        exact Or.inl hline)
    (by
      intro state op next answer hallowed hstep hinv
      exact hinv.step hallowed.1 hallowed.2 hstep)
  exact hinv.intact

/-- A file with one line of a user, and the removal of a pairing. -/
theorem lines_kept_one_removal :
    Intact ⟨removeBootstrap "abc".toList (some "ssh-ed25519 AAAA me\n".toList),
      ["ssh-ed25519 AAAA me".toList], []⟩ := by
  apply lines_kept id
  refine Reachable.next (.remove "abc".toList)
    (.start (s := ⟨some "ssh-ed25519 AAAA me\n".toList, ["ssh-ed25519 AAAA me".toList], []⟩) ?_)
    ?_ rfl
  · refine ⟨⟨by decide +kernel, rfl⟩, ?_⟩
    unfold Clean
    decide +kernel
  · refine ⟨trivial, ?_⟩
    show ∀ line ∈ ["ssh-ed25519 AAAA me".toList], keeps "abc".toList line = true
    decide +kernel

/-- The last word of a user's line is read as a marker, and the line is removed. -/
theorem marked_line_removed :
    ¬ ∃ sha256 : List UInt8 → List UInt8,
      ∀ state, Reachable Init (Allowed sha256) step state → Intact state := by
  rintro ⟨sha256, hall⟩
  have hreachable : Reachable Init (Allowed sha256) step
      ⟨removeBootstrap "abc".toList (some "ssh-ed25519 AAAA me herden-pairing:abc:exp:5\n".toList),
        ["ssh-ed25519 AAAA me herden-pairing:abc:exp:5".toList], []⟩ := by
    refine Reachable.next (.remove "abc".toList)
      (.start (s := ⟨some "ssh-ed25519 AAAA me herden-pairing:abc:exp:5\n".toList,
        ["ssh-ed25519 AAAA me herden-pairing:abc:exp:5".toList], []⟩) ⟨?_, rfl⟩) trivial rfl
    decide +kernel
  have hlost : readLines (removeBootstrap "abc".toList
      (some "ssh-ed25519 AAAA me herden-pairing:abc:exp:5\n".toList)) = [] := by
    decide +kernel
  have hsublist := (hall _ hreachable).1
  rw [hlost] at hsublist
  cases hsublist

end Herden.Proofs.Pairing.AuthorizedKeys
