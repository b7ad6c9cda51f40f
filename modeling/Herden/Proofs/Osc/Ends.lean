import Herden.Proofs.Osc

/-!
# `Herden.Proofs.Osc.Ends`: where the trackers see an OSC string end

A string ends with BEL or with ESC `\`. The collector ends it at the first of either. The trackers
of default colors take an ESC in a body together with the byte behind it, so of a run of ESCs only
every other one can begin the end: behind an odd run they miss BEL, behind an even one `\`
(`missesEnd`). As long as that does not happen, both are in the same string with the same content
(`Agree`); the first time it does, the collector delivers a body that the tracker goes on with
(`missed_end`), so the sequences differ from there on.
-/

namespace Herden.Proofs.Osc.Ends

open Herden.Lib
open Herden.Runtime.Osc

/-! ### The two sequences -/

/-- The bodies that `DefaultColorEventTracker` finalizes. -/
def finalized (stream : Bytes) : List Bytes :=
  (DefaultColorOscTracker.scanner.scan .initial stream).2.map Prod.snd

/-- The bodies that `OscStreamCollector` delivers. -/
def delivered (stream : Bytes) : List Bytes := (OscStreamCollector.initial.observe stream).2

/-- Neither tracker discards a body, and what they have of one is within the smaller cap. -/
def withinCap (tracker : DefaultColorOscTracker) (collector : OscStreamCollector) : Bool :=
  tracker.state ≠ .oversizedOsc && tracker.state ≠ .oversizedOscEscape
    && collector.state ≠ .discarding && collector.state ≠ .discardingEscape
    && decide (collector.body.length ≤ DefaultColorOscTracker.maxBodyBytes)

/-- No body exceeds the smaller cap. -/
def bodiesWithinCap (tracker : DefaultColorOscTracker) (collector : OscStreamCollector) :
    Bytes → Bool
  | [] => withinCap tracker collector
  | byte :: rest =>
      withinCap tracker collector
        && bodiesWithinCap (DefaultColorOscTracker.scanner.advance tracker byte).1
          (OscStreamCollector.scanner.advance collector byte).1 rest

/-! ### Strings in a stream -/

/-- Where a stream stands: outside of strings, in an OSC string behind a run of ESCs (maybe none),
or in a string of another kind. -/
inductive Place where
  | ground
  | escape
  | body (escapes : Nat)
  | string
  | stringEscape

def Place.next : Place → UInt8 → Place
  | .ground, byte => if byte = esc then .escape else .ground
  | .escape, byte =>
      if byte = 0x5d then .body 0
      else if isIgnoredStringIntro byte then .string
      else if byte = esc then .escape
      else .ground
  | .body escapes, byte =>
      if byte = bel then .ground
      else if byte = backslash ∧ escapes ≠ 0 then .ground
      else if byte = esc then .body (escapes + 1)
      else .body 0
  | .string, byte => if byte = esc then .stringEscape else .string
  | .stringEscape, byte =>
      if byte = backslash then .ground else if byte = esc then .stringEscape else .string

/-- An OSC string ends with BEL behind an odd run of ESCs, or with `\` behind an even one. -/
def missesEnd : Place → UInt8 → Bool
  | .body escapes, byte =>
      byte = bel && escapes % 2 = 1 || byte = backslash && escapes ≠ 0 && escapes % 2 = 0
  | _, _ => false

/-- No OSC string of the stream ends that way. -/
def plainEnds : Place → Bytes → Bool
  | _, [] => true
  | place, byte :: rest => !missesEnd place byte && plainEnds (place.next byte) rest

/-- What the trackers hold at a place. Behind an even run the collector still holds back the last
ESC. -/
inductive Agree : Place → DefaultColorOscTracker → OscStreamCollector → Prop
  | ground : Agree .ground ⟨.ground, []⟩ ⟨.ground, []⟩
  | escape : Agree .escape ⟨.escape, []⟩ ⟨.escape, []⟩
  | body (content : Bytes) : Agree (.body 0) ⟨.oscBody, content⟩ ⟨.body, content⟩
  | odd {escapes : Nat} (content : Bytes) (h : escapes % 2 = 1) :
      Agree (.body escapes) ⟨.oscEscape, content⟩ ⟨.bodyEscape, content⟩
  | even {escapes : Nat} (content : Bytes) (hne : escapes ≠ 0) (h : escapes % 2 = 0) :
      Agree (.body escapes) ⟨.oscBody, content ++ [esc]⟩ ⟨.bodyEscape, content⟩
  | string : Agree .string ⟨.ignoreString, []⟩ ⟨.ignoringString, []⟩
  | stringEscape : Agree .stringEscape ⟨.ignoreStringEscape, []⟩ ⟨.ignoringStringEscape, []⟩

/-! ### Steps -/

variable {byte : UInt8} {tracker : DefaultColorOscTracker} {content stream : Bytes}
  {collector : OscStreamCollector} {place : Place}

/-- A tracker that does not discard has only matched on its state. -/
theorem step_eq_handle (h : (tracker.step byte).1.state ≠ .oversizedOsc) :
    tracker.step byte = tracker.handle byte := by
  unfold DefaultColorOscTracker.step at h ⊢
  dsimp only at h ⊢
  split at h
  · exact absurd rfl h
  next hlength => rw [if_neg hlength]

theorem advance_tracker
    (h : (DefaultColorOscTracker.scanner.advance tracker byte).1.state ≠ .oversizedOsc) :
    DefaultColorOscTracker.scanner.advance tracker byte = tracker.handle byte := by
  unfold Scanner.advance at h ⊢
  split
  next hskips =>
    -- A state that skips does nothing with the byte.
    simp only [DefaultColorOscTracker.scanner, Bool.and_eq_true, Bool.or_eq_true,
      decide_eq_true_eq, Bool.not_eq_true', decide_eq_false_iff_not] at hskips
    unfold DefaultColorOscTracker.handle
    rcases hskips with ⟨hstate | hstate, hesc⟩
    · rw [hstate]
      exact (if_neg hesc).symm
    · rw [hstate]
      exact (if_neg hesc).symm
  next hskips =>
    rw [if_neg hskips] at h
    exact step_eq_handle h

theorem advance_collector (collector : OscStreamCollector) (byte : UInt8) :
    OscStreamCollector.scanner.advance collector byte = collector.step byte := by
  unfold Scanner.advance
  split
  next hskips =>
    simp only [OscStreamCollector.scanner, Bool.and_eq_true, Bool.or_eq_true,
      decide_eq_true_eq, Bool.not_eq_true', decide_eq_false_iff_not] at hskips
    unfold OscStreamCollector.step
    rcases hskips with ⟨hstate | hstate, hesc⟩
    · rw [hstate]
      exact (if_neg hesc).symm
    · rw [hstate]
      exact (if_neg hesc).symm
  next => rfl

/-- Far from its cap the collector takes any byte. -/
theorem push_eq (state : OscStreamState) (h : content.length < 4096) (byte : UInt8) :
    OscStreamCollector.push ⟨state, content⟩ byte = ⟨.body, content ++ [byte]⟩ := by
  unfold OscStreamCollector.push
  dsimp only
  rw [if_neg]
  rw [List.length_append, List.length_singleton]
  exact Nat.not_lt.mpr h

/-- Behind an ESC, the collector keeps an ESC that is followed by another. -/
theorem bodyEscape_esc (h : content.length < 4096) :
    OscStreamCollector.step ⟨.bodyEscape, content⟩ esc
      = (⟨.bodyEscape, content ++ [esc]⟩, none) := by
  unfold OscStreamCollector.step
  dsimp only
  rw [if_neg (by decide), if_neg (by decide), if_pos rfl, push_eq .bodyEscape h]

theorem bodyEscape_bel (h : content.length < 4096) :
    OscStreamCollector.step ⟨.bodyEscape, content⟩ bel
      = (⟨.ground, []⟩, some (content ++ [esc])) := by
  unfold OscStreamCollector.step
  dsimp only
  rw [if_neg (by decide), if_pos rfl, push_eq .bodyEscape h]
  rfl

theorem bodyEscape_other (h : content.length + 1 < 4096) (hend : byte ≠ backslash)
    (hbel : byte ≠ bel) (hesc : byte ≠ esc) : OscStreamCollector.step ⟨.bodyEscape, content⟩ byte
      = (⟨.body, content ++ [esc] ++ [byte]⟩, none) := by
  unfold OscStreamCollector.step
  dsimp only
  rw [if_neg hend, if_neg hbel, if_neg hesc, push_eq .bodyEscape (Nat.lt_of_succ_lt h), if_pos rfl,
    push_eq .body (by rw [List.length_append]; exact h)]

theorem next_other {escapes : Nat} (hend : byte ≠ backslash) (hbel : byte ≠ bel)
    (hesc : byte ≠ esc) : (Place.body escapes).next byte = .body 0 := by
  change (if byte = bel then _ else if byte = backslash ∧ escapes ≠ 0 then _ else _) = _
  rw [if_neg hbel, if_neg fun h => hend h.1, if_neg hesc]

/-- A byte at which no end is missed keeps the trackers together, and both or neither end a body,
the same one. -/
theorem agree_step (h : Agree place tracker collector) (hlength : collector.body.length ≤ 1024)
    (hplain : missesEnd place byte = false) :
    Agree (place.next byte) (tracker.handle byte).1 (collector.step byte).1
      ∧ (tracker.handle byte).2 = (collector.step byte).2 := by
  cases h with
  | ground =>
    by_cases hesc : byte = esc
    · rw [hesc]; exact ⟨.escape, rfl⟩
    · simp [Place.next, DefaultColorOscTracker.handle, OscStreamCollector.step, hesc, Agree.ground]
  | escape =>
    by_cases hopen : byte = 0x5d
    · rw [hopen]; exact ⟨.body [], rfl⟩
    by_cases hesc : byte = esc
    · rw [hesc]; exact ⟨.escape, rfl⟩
    by_cases hintro : isIgnoredStringIntro byte = true
    · simp [Place.next, DefaultColorOscTracker.handle, OscStreamCollector.step, hopen, hesc, hintro,
        Agree.string]
    · simp [Place.next, DefaultColorOscTracker.handle, OscStreamCollector.step, hopen, hesc, hintro,
        Agree.ground]
  | body content =>
    have hpush := push_eq .body (Nat.lt_of_le_of_lt hlength (by decide : 1024 < 4096))
    by_cases hbel : byte = bel
    · rw [hbel]; exact ⟨.ground, rfl⟩
    by_cases hesc : byte = esc
    · rw [hesc]; exact ⟨.odd content rfl, rfl⟩
    · simp [Place.next, DefaultColorOscTracker.handle, OscStreamCollector.step, hbel, hesc, hpush,
        Agree.body]
  | @odd escapes content hodd =>
    have hne : escapes ≠ 0 := by rintro rfl; cases hodd
    have hroom : content.length + 1 < 4096 :=
      Nat.lt_of_le_of_lt (Nat.add_le_add_right hlength 1) (by decide)
    by_cases hend : byte = backslash
    · rw [hend]
      have hnext : (Place.body escapes).next backslash = .ground := if_pos ⟨rfl, hne⟩
      rw [hnext]
      exact ⟨.ground, rfl⟩
    by_cases hbel : byte = bel
    · simp [missesEnd, hbel, hodd] at hplain
    by_cases hesc : byte = esc
    · have htracker : DefaultColorOscTracker.handle ⟨.oscEscape, content⟩ esc
          = (⟨.oscBody, content ++ [esc] ++ [esc]⟩, none) := by
        rw [List.append_assoc]
        rfl
      rw [hesc, bodyEscape_esc (Nat.lt_of_succ_lt hroom), htracker]
      exact ⟨.even (content ++ [esc]) (Nat.succ_ne_zero escapes) (by omega), rfl⟩
    · have htracker : DefaultColorOscTracker.handle ⟨.oscEscape, content⟩ byte
          = (⟨.oscBody, content ++ [esc] ++ [byte]⟩, none) := by
        simp [DefaultColorOscTracker.handle, hend]
      rw [bodyEscape_other hroom hend hbel hesc, htracker, next_other hend hbel hesc]
      exact ⟨.body _, rfl⟩
  | @even escapes content hne heven =>
    have hroom : content.length + 1 < 4096 :=
      Nat.lt_of_le_of_lt (Nat.add_le_add_right hlength 1) (by decide)
    by_cases hend : byte = backslash
    · simp [missesEnd, hend, heven, hne] at hplain
    by_cases hbel : byte = bel
    · rw [hbel, bodyEscape_bel (Nat.lt_of_succ_lt hroom)]
      exact ⟨.ground, rfl⟩
    by_cases hesc : byte = esc
    · rw [hesc, bodyEscape_esc (Nat.lt_of_succ_lt hroom)]
      exact ⟨.odd (content ++ [esc]) (by omega), rfl⟩
    · have htracker : DefaultColorOscTracker.handle ⟨.oscBody, content ++ [esc]⟩ byte
          = (⟨.oscBody, content ++ [esc] ++ [byte]⟩, none) := by
        simp [DefaultColorOscTracker.handle, hbel, hesc]
      rw [bodyEscape_other hroom hend hbel hesc, htracker, next_other hend hbel hesc]
      exact ⟨.body _, rfl⟩
  | string =>
    by_cases hesc : byte = esc
    · rw [hesc]; exact ⟨.stringEscape, rfl⟩
    · simp [Place.next, DefaultColorOscTracker.handle, OscStreamCollector.step, hesc, Agree.string]
  | stringEscape =>
    by_cases hend : byte = backslash
    · rw [hend]; exact ⟨.ground, rfl⟩
    by_cases hesc : byte = esc
    · rw [hesc]; exact ⟨.stringEscape, rfl⟩
    · simp [Place.next, DefaultColorOscTracker.handle, OscStreamCollector.step, hend, hesc,
        Agree.string]

/-- Where an end is missed, the collector delivers a body and the tracker has a longer one. -/
theorem missed_end (h : Agree place tracker collector) (hlength : collector.body.length ≤ 1024)
    (hmissed : missesEnd place byte = true) :
    ∃ body, (collector.step byte).2 = some body ∧ (tracker.handle byte).2 = none
      ∧ (tracker.handle byte).1.state = .oscBody
      ∧ body.length < (tracker.handle byte).1.body.length := by
  have hroom : collector.body.length < 4096 := Nat.lt_of_le_of_lt hlength (by decide)
  cases h with
  | ground | escape | string | stringEscape => cases hmissed
  | body content =>
    simp [missesEnd] at hmissed
  | odd content hodd =>
    have hbel : byte = bel := by
      simp only [missesEnd, Bool.or_eq_true, Bool.and_eq_true, decide_eq_true_eq] at hmissed
      rcases hmissed with ⟨hbel, -⟩ | ⟨-, heven⟩
      · exact hbel
      · omega
    rw [hbel, bodyEscape_bel hroom]
    refine ⟨_, rfl, rfl, rfl, ?_⟩
    change (content ++ [esc]).length < (content ++ [esc, bel]).length
    rw [List.length_append, List.length_append]
    exact Nat.lt_succ_self _
  | even content hne heven =>
    have hend : byte = backslash := by
      simp only [missesEnd, Bool.or_eq_true, Bool.and_eq_true, decide_eq_true_eq] at hmissed
      rcases hmissed with ⟨-, hodd⟩ | ⟨⟨hend, -⟩, -⟩
      · omega
      · exact hend
    rw [hend]
    refine ⟨content, rfl, rfl, rfl, ?_⟩
    change content.length < (content ++ [esc] ++ [backslash]).length
    rw [List.length_append, List.length_append, Nat.add_assoc]
    exact Nat.lt_add_of_pos_right (Nat.succ_pos _)

/-! ### Runs -/

theorem withinCap_spec (h : withinCap tracker collector = true) :
    tracker.state ≠ .oversizedOsc ∧ tracker.state ≠ .oversizedOscEscape
      ∧ collector.body.length ≤ 1024 := by
  simp only [withinCap, Bool.and_eq_true, decide_eq_true_eq] at h
  exact ⟨h.1.1.1.1, h.1.1.1.2, h.2⟩

theorem bodiesWithinCap_head (h : bodiesWithinCap tracker collector stream = true) :
    withinCap tracker collector = true := by
  cases stream with
  | nil => exact h
  | cons byte rest =>
    rw [bodiesWithinCap, Bool.and_eq_true] at h
    exact h.1

/-- In a string, the next body that the tracker finalizes is at least as long as what it has. -/
theorem results_of_long {n : Nat} (hstate : tracker.state = .oscBody ∨ tracker.state = .oscEscape)
    (hlong : n < tracker.body.length) (hcap : bodiesWithinCap tracker collector stream = true)
    {body : Bytes} {later : List Bytes}
    (hresults : DefaultColorOscTracker.scanner.results tracker stream = body :: later) :
    n < body.length := by
  induction stream generalizing tracker collector with
  | nil => cases hresults
  | cons byte rest ih =>
    rw [bodiesWithinCap, Bool.and_eq_true] at hcap
    have hnext := (withinCap_spec (bodiesWithinCap_head hcap.2)).1
    have hhandle := advance_tracker hnext
    rw [Scanner.results, hhandle] at hresults
    rw [hhandle] at hcap
    -- The byte ends the body, or the tracker stays in it.
    have hcases : (tracker.handle byte).2 = some tracker.body
        ∨ (tracker.handle byte).2 = none
          ∧ ((tracker.handle byte).1.state = .oscBody ∨ (tracker.handle byte).1.state = .oscEscape)
          ∧ n < (tracker.handle byte).1.body.length := by
      obtain ⟨state, content⟩ := tracker
      unfold DefaultColorOscTracker.handle
      rcases hstate with hstate | hstate
      · rw [hstate]
        dsimp only
        split
        · exact .inl rfl
        · split
          · exact .inr ⟨rfl, .inr rfl, hlong⟩
          · exact .inr ⟨rfl, .inl rfl, by rw [List.length_append]; exact Nat.lt_add_right _ hlong⟩
      · rw [hstate]
        dsimp only
        split
        · exact .inl rfl
        · exact .inr ⟨rfl, .inl rfl, by rw [List.length_append]; exact Nat.lt_add_right _ hlong⟩
    rcases hcases with hbody | ⟨hnone, hstate, hlong⟩
    · rw [hbody] at hresults
      obtain ⟨rfl, -⟩ := List.cons.inj hresults
      exact hlong
    · rw [hnone] at hresults
      exact ih hstate hlong hcap.2 hresults

/-- From trackers that agree, the bodies are the same exactly when no end is missed. -/
theorem results_eq_iff (h : Agree place tracker collector)
    (hcap : bodiesWithinCap tracker collector stream = true) :
    DefaultColorOscTracker.scanner.results tracker stream
        = OscStreamCollector.scanner.results collector stream
      ↔ plainEnds place stream = true := by
  induction stream generalizing place tracker collector with
  | nil => exact iff_of_true rfl rfl
  | cons byte rest ih =>
    have hlength := (withinCap_spec (bodiesWithinCap_head hcap)).2.2
    rw [bodiesWithinCap, Bool.and_eq_true] at hcap
    have hhandle := advance_tracker (withinCap_spec (bodiesWithinCap_head hcap.2)).1
    rw [hhandle, advance_collector] at hcap
    rw [Scanner.results, Scanner.results, hhandle, advance_collector, plainEnds, Bool.and_eq_true,
      Bool.not_eq_true']
    cases hmissed : missesEnd place byte with
    | false =>
      obtain ⟨hagree, hbodies⟩ := agree_step h hlength hmissed
      rw [hbodies, List.append_cancel_left_eq, ih hagree hcap.2]
      exact (and_iff_right rfl).symm
    | true =>
      obtain ⟨body, hbody, hnone, hstate, hlong⟩ := missed_end h hlength hmissed
      rw [hbody, hnone]
      refine iff_of_false (fun hsame => ?_) fun hplain => Bool.noConfusion hplain.1
      exact absurd (results_of_long (.inl hstate) hlong hcap.2 hsame) (Nat.lt_irrefl _)

/-- `ESC ] 2 ; b ESC BEL` and `ESC ] 1 0 ; ? BEL`. -/
def escapedBell : Bytes :=
  [esc, 0x5d] ++ ascii "2;b" ++ [esc, bel, esc, 0x5d] ++ ascii "10;?" ++ [bel]

end Herden.Proofs.Osc.Ends
