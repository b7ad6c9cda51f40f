import Herden.Proofs.KittyKeyboard
import Mathlib.Data.Nat.Bitwise

/-!
# `Herden.Proofs.KittyKeyboard.Commands`: which keyboard commands the tracker follows

`Modes.step` is the machine of the keyboard protocol: a stack of flags with push, pop and set, where
a set replaces, adds or removes flags. The tracker reads no mode of a set, and it takes every
sequence that begins like a command for one. It follows the machine as long as neither makes a
difference (`Follows`, `tracker_follows`); `set_adds` is a set that does.
-/

namespace Herden.Proofs.KittyKeyboard.Commands

open Herden.Lib
open Herden.Runtime.KittyKeyboard
open Herden.Runtime.KittyKeyboard.KittyKeyboardTracker

/-! ### The protocol -/

inductive SetMode where
  | replace
  | add
  | remove
deriving DecidableEq

inductive Command where
  | push (flags : Nat)
  | pop (count : Nat)
  | set (flags : Nat) (mode : SetMode)
deriving DecidableEq

/-- The current flags, and those below them with the top at the end. -/
structure Modes where
  flags : Nat
  stack : List Nat

namespace Modes

def popOnce (modes : Modes) : Modes := ⟨modes.stack.getLast?.getD 0, modes.stack.dropLast⟩

def popTimes : Nat → Modes → Modes
  | 0, modes => modes
  | count + 1, modes => popTimes count modes.popOnce

def run (modes : Modes) : Command → Modes
  | .push flags => ⟨flags, modes.stack ++ [modes.flags]⟩
  | .pop count => popTimes count modes
  | .set flags .replace => { modes with flags := flags }
  | .set flags .add => { modes with flags := modes.flags ||| flags }
  | .set flags .remove => { modes with flags := Nat.ldiff modes.flags flags }

end Modes

/-- What an application sends: ESC c, or a CSI sequence. -/
inductive Item where
  | reset
  | csi (body : Bytes) (final : UInt8)

def Item.bytes : Item → Bytes
  | .reset => [esc, 0x63]
  | .csi body final => esc :: bracket :: (body ++ [final])

/-- A CSI sequence has parameter bytes, intermediate bytes and a final byte. -/
def Item.Complete : Item → Prop
  | .reset => True
  | .csi body final => ∃ params intermediates, body = params ++ intermediates
      ∧ (∀ byte ∈ params, 0x30 ≤ byte.toNat ∧ byte.toNat ≤ 0x3f)
      ∧ (∀ byte ∈ intermediates, 0x20 ≤ byte.toNat ∧ byte.toNat ≤ 0x2f)
      ∧ isFinal final = true

def isDigit (byte : UInt8) : Bool := 0x30 ≤ byte.toNat && byte.toNat ≤ 0x39

/-- The number of decimal digits, zero where there are none. -/
def value (digits : Bytes) : Nat :=
  Nat.ofDigitChars 10 (digits.map fun byte => Char.ofNat byte.toNat) 0

/-- A parameter, if it is made of digits. -/
def param? (bytes : Bytes) : Option Nat := if bytes.all isDigit then some (value bytes) else none

def setMode? (bytes : Bytes) : Option SetMode :=
  if bytes = [] then some .replace
  else
    match param? bytes with
    | some 1 => some .replace
    | some 2 => some .add
    | some 3 => some .remove
    | _ => none

/-- The command of a sequence that ends in `u`. -/
def command? : Bytes → Option Command
  | [] => none
  | kind :: rest =>
      if kind = 0x3e then (param? rest).map .push
      else if kind = 0x3c then
        if rest = [] then some (.pop 1) else (param? rest).map .pop
      else if kind = 0x3d then
        match rest.splitOn semicolon with
        | [flags] => (param? flags).map (.set · .replace)
        | [flags, mode] => do return .set (← param? flags) (← setMode? mode)
        | _ => none
      else none

/-- Sequences that are no command are skipped. -/
def Modes.step (modes : Modes) : Item → Modes
  | .reset => ⟨0, []⟩
  | .csi body final =>
      if final = 0x75 then
        match command? body with
        | some command => modes.run command
        | none => modes
      else modes

/-! ### What the tracker follows -/

/-- A command that has the effect the tracker gives it. -/
def Command.Follows (modes : Modes) : Command → Prop
  | .push flags => flags < 2 ^ 16
  | .pop count => 0 < count ∧ count < 2 ^ 16
  | .set flags .replace => flags < 2 ^ 16
  | .set flags .add => flags < 2 ^ 16 ∧ modes.flags ||| flags = flags
  | .set flags .remove => flags < 2 ^ 16 ∧ Nat.ldiff modes.flags flags = flags

/-- The tracker takes a sequence with this body for a command. -/
def startsCommand (body : Bytes) : Bool :=
  match body with
  | [] => false
  | kind :: _ => kind = 0x3e || kind = 0x3c || kind = 0x3d

/-- What the tracker takes for a command is one, and has the effect the tracker gives it. -/
def Item.Follows (modes : Modes) : Item → Prop
  | .reset => True
  | .csi body final => final = 0x75 → startsCommand body = true →
      ∃ command, command? body = some command ∧ command.Follows modes

def FollowsAll : Modes → List Item → Prop
  | _, [] => True
  | modes, item :: rest => item.Follows modes ∧ FollowsAll (modes.step item) rest

def Agrees (tracker : KittyKeyboardTracker) (modes : Modes) : Prop :=
  tracker.flags = modes.flags ∧ tracker.stack = modes.stack

/-! ### Parameters -/

variable {bytes : Bytes} {modes : Modes} {tracker : KittyKeyboardTracker}

theorem chars_all_digits (h : bytes.all isDigit = true) :
    (bytes.map fun byte => Char.ofNat byte.toNat).all Char.isDigit = true := by
  rw [List.all_map, List.all_eq_true]
  intro byte hbyte
  have hdigit := List.all_eq_true.mp h byte hbyte
  unfold isDigit at hdigit
  rw [Bool.and_eq_true, decide_eq_true_eq, decide_eq_true_eq] at hdigit
  have hcases : byte = 48 ∨ byte = 49 ∨ byte = 50 ∨ byte = 51 ∨ byte = 52 ∨ byte = 53 ∨ byte = 54
      ∨ byte = 55 ∨ byte = 56 ∨ byte = 57 := by
    obtain ⟨hlow, hhigh⟩ := hdigit
    have hnat : byte.toNat = 48 ∨ byte.toNat = 49 ∨ byte.toNat = 50 ∨ byte.toNat = 51
        ∨ byte.toNat = 52 ∨ byte.toNat = 53 ∨ byte.toNat = 54 ∨ byte.toNat = 55 ∨ byte.toNat = 56
        ∨ byte.toNat = 57 := by omega
    simpa [← UInt8.toNat_inj] using hnat
  rcases hcases with rfl | rfl | rfl | rfl | rfl | rfl | rfl | rfl | rfl | rfl <;> rfl

theorem semicolon_notMem (h : bytes.all isDigit = true) : semicolon ∉ bytes := by
  intro hmem
  exact absurd (List.all_eq_true.mp h semicolon hmem) (by decide)

/-- The tracker reads a parameter of digits as its number, or as 0 when it is too large. -/
theorem parse_param (h : bytes.all isDigit = true) (behind : Bytes)
    (hfirst : (behind.splitOn semicolon).headD [] = bytes) (hlt : value bytes < 2 ^ 16) :
    parseKittyKeyboardFlags behind = value bytes := by
  unfold parseKittyKeyboardFlags
  rw [hfirst]
  dsimp only
  cases hempty : bytes with
  | nil => rfl
  | cons byte rest =>
    rw [← hempty, Text.parseBelow_digits _ (chars_all_digits h)]
    · unfold value at hlt ⊢
      rw [if_pos hlt, Option.getD_some]
    · rw [hempty]
      exact List.cons_ne_nil _ _

theorem splitOn_digits (h : bytes.all isDigit = true) :
    (bytes.splitOn semicolon).headD [] = bytes := by
  rw [List.splitOn_eq_singleton (semicolon_notMem h)]
  rfl

theorem param?_spec {n : Nat} (h : param? bytes = some n) :
    bytes.all isDigit = true ∧ n = value bytes := by
  unfold param? at h
  split at h
  next hdigits =>
    cases h
    exact ⟨hdigits, rfl⟩
  next => cases h

/-! ### Steps -/

theorem popTimes_agrees (h : Agrees tracker modes) (count : Nat) :
    Agrees (popTimes count tracker) (Modes.popTimes count modes) := by
  induction count generalizing tracker modes with
  | zero => exact h
  | succ count ih =>
    refine ih ⟨?_, ?_⟩
    · show tracker.stack.getLast?.getD 0 = modes.stack.getLast?.getD 0
      rw [h.2]
    · show tracker.stack.dropLast = modes.stack.dropLast
      rw [h.2]

/-- Sequences that end in another byte change neither flags nor stack. -/
theorem observeCsi_other (h : Agrees tracker modes) (body : Bytes) {final : UInt8}
    (hfinal : final ≠ 0x75) : Agrees (tracker.observeCsi body final) modes := by
  unfold observeCsi
  rw [if_neg hfinal]
  split
  next =>
    unfold observeModifyOtherKeys
    repeat' split
    all_goals exact h
  next =>
    split
    next =>
      unfold observeCsiN
      repeat' split
      all_goals exact h
    next => exact h

/-- A command that follows has the same effect on both. -/
theorem observeCsiU_agrees (h : Agrees tracker modes) {kind : UInt8} {rest : Bytes}
    {command : Command} (hcommand : command? (kind :: rest) = some command)
    (hfollows : command.Follows modes) :
    Agrees (tracker.observeCsiU (kind :: rest)) (modes.run command) := by
  unfold command? at hcommand
  unfold observeCsiU
  dsimp only at hcommand ⊢
  split at hcommand
  next hpush =>
    rw [if_pos hpush]
    obtain ⟨flags, hparam, rfl⟩ := Option.map_eq_some_iff.mp hcommand
    obtain ⟨hdigits, rfl⟩ := param?_spec hparam
    rw [parse_param hdigits rest (splitOn_digits hdigits) hfollows]
    exact ⟨rfl, by rw [h.1, h.2]; rfl⟩
  next hpush =>
    rw [if_neg hpush]
    split at hcommand
    next hpop =>
      subst hpop
      rw [if_neg (by decide), if_pos rfl]
      split at hcommand
      next hempty =>
        cases hcommand
        subst hempty
        exact popTimes_agrees h 1
      next =>
        obtain ⟨count, hparam, rfl⟩ := Option.map_eq_some_iff.mp hcommand
        obtain ⟨hdigits, rfl⟩ := param?_spec hparam
        obtain ⟨hpos, hlt⟩ := hfollows
        rw [parse_param hdigits rest (splitOn_digits hdigits) hlt, Nat.max_eq_left hpos]
        exact popTimes_agrees h _
    next =>
      split at hcommand
      next hset =>
        rw [if_pos hset]
        split at hcommand
        next flags hsplit =>
          obtain ⟨f, hparam, rfl⟩ := Option.map_eq_some_iff.mp hcommand
          obtain ⟨hdigits, rfl⟩ := param?_spec hparam
          rw [parse_param hdigits rest (by rw [hsplit]; rfl) hfollows]
          exact ⟨rfl, h.2⟩
        next flags mode hsplit =>
          simp only [Option.bind_eq_bind, Option.bind_eq_some_iff, Option.pure_def,
            Option.some_inj] at hcommand
          obtain ⟨f, hparam, m, -, rfl⟩ := hcommand
          obtain ⟨hdigits, rfl⟩ := param?_spec hparam
          have hfirst : (rest.splitOn semicolon).headD [] = flags := by rw [hsplit]; rfl
          cases m with
          | replace =>
            rw [parse_param hdigits rest hfirst hfollows]
            exact ⟨rfl, h.2⟩
          | add =>
            obtain ⟨hlt, hadds⟩ := hfollows
            rw [parse_param hdigits rest hfirst hlt]
            exact ⟨hadds.symm, h.2⟩
          | remove =>
            obtain ⟨hlt, hremoves⟩ := hfollows
            rw [parse_param hdigits rest hfirst hlt]
            exact ⟨hremoves.symm, h.2⟩
        next => cases hcommand
      next => cases hcommand

variable {body : Bytes} {items : List Item}

theorem observeCsiU_skips (tracker : KittyKeyboardTracker) (h : startsCommand body = false) :
    tracker.observeCsiU body = tracker := by
  cases body with
  | nil => rfl
  | cons kind rest =>
    simp only [startsCommand, Bool.or_eq_false_iff, decide_eq_false_iff_not] at h
    obtain ⟨⟨hpush, hpop⟩, hset⟩ := h
    simp only [observeCsiU, if_neg hpush, if_neg hset, if_neg hpop]

theorem command?_of_not_starts (h : startsCommand body = false) : command? body = none := by
  unfold startsCommand at h
  unfold command?
  split at h
  next => rfl
  next =>
    simp only [Bool.or_eq_false_iff, decide_eq_false_iff_not] at h
    obtain ⟨⟨hpush, hpop⟩, hset⟩ := h
    rw [if_neg hpush, if_neg hpop, if_neg hset]

/-- One item keeps the agreement. -/
theorem step_agrees (h : Agrees tracker modes) {item : Item} (hfollows : item.Follows modes) :
    Agrees (frameEffect tracker item.bytes) (modes.step item) := by
  cases item with
  | reset => exact ⟨rfl, rfl⟩
  | csi body final =>
    unfold Item.bytes Modes.step
    rw [frameEffect_csi]
    dsimp only
    by_cases hfinal : final = 0x75
    · unfold observeCsi
      rw [if_pos hfinal, if_pos hfinal]
      cases hstarts : startsCommand body with
      | false =>
        rw [observeCsiU_skips tracker hstarts, command?_of_not_starts hstarts]
        exact h
      | true =>
        obtain ⟨command, hcommand, hsame⟩ := hfollows hfinal hstarts
        cases body with
        | nil => cases hstarts
        | cons kind rest =>
          rw [hcommand]
          exact observeCsiU_agrees h hcommand hsame
    · rw [if_neg hfinal]
      exact observeCsi_other h body hfinal

/-! ### Runs -/

/-- Items are frames of their own. -/
theorem splits_items (h : ∀ item ∈ items, item.Complete) :
    Splits next (items.flatMap Item.bytes) (items.map Item.bytes) [] := by
  induction items with
  | nil => exact Splits.stop rfl
  | cons item items ih =>
    obtain ⟨hitem, hitems⟩ := List.forall_mem_cons.mp h
    rw [List.flatMap_cons, List.map_cons]
    cases item with
    | reset =>
      have hsome : next (Item.reset.bytes ++ items.flatMap Item.bytes) = some 2 := by
        show next (esc :: 0x63 :: items.flatMap Item.bytes) = some 2
        rfl
      have hframe := Splits.frame hsome (ih hitems)
      exact hframe
    | csi body final =>
      obtain ⟨params, intermediates, rfl, hparams, hintermediates, hfinal⟩ := hitem
      refine splits_csi (fun byte hbyte => ?_) hfinal (ih hitems)
      unfold isFinal
      rw [Bool.and_eq_false_iff]
      left
      rw [decide_eq_false_iff_not]
      rcases List.mem_append.mp hbyte with hparam | hintermediate
      · have hbound := hparams byte hparam
        omega
      · have hbound := hintermediates byte hintermediate
        omega

theorem foldl_agrees (h : Agrees tracker modes) (hfollows : FollowsAll modes items) :
    Agrees ((items.map Item.bytes).foldl frameEffect tracker) (items.foldl Modes.step modes) := by
  induction items generalizing tracker modes with
  | nil => exact h
  | cons item items ih => exact ih (step_agrees h hfollows.1) hfollows.2

theorem FollowsAll.front {front behind : List Item} (h : FollowsAll modes (front ++ behind)) :
    FollowsAll modes front := by
  induction front generalizing modes with
  | nil => trivial
  | cons item front ih => exact ⟨h.1, ih h.2⟩

/-- In a run whose commands are all followed, the tracker has the flags and the stack of the
protocol after every item. -/
theorem tracker_follows {items : List Item} (hcomplete : ∀ item ∈ items, item.Complete)
    (hfollows : FollowsAll ⟨0, []⟩ items) :
    ∀ front, front <+: items →
      Agrees (initial.observe (front.flatMap Item.bytes)) (front.foldl Modes.step ⟨0, []⟩) := by
  rintro front ⟨behind, rfl⟩
  have hsplits := splits_items fun item hmem => hcomplete item (List.mem_append_left _ hmem)
  have hagrees : Agrees initial ⟨0, []⟩ := ⟨rfl, rfl⟩
  have hobserve : initial.observe (front.flatMap Item.bytes) = _ := observe_eq hsplits
  rw [hobserve]
  exact foldl_agrees hagrees hfollows.front

/-- A push, a set that keeps the flags already set, and two pops. -/
theorem tracker_follows_push_set_pop :
    Agrees
      (initial.observe (([.csi (ascii ['>', '5']) 0x75, .csi (ascii ['=', '7', ';', '2']) 0x75,
        .csi (ascii ['<']) 0x75] : List Item).flatMap Item.bytes))
      (([.csi (ascii ['>', '5']) 0x75, .csi (ascii ['=', '7', ';', '2']) 0x75,
        .csi (ascii ['<']) 0x75] : List Item).foldl Modes.step ⟨0, []⟩) := by
  refine @tracker_follows [.csi (ascii ['>', '5']) 0x75,
    .csi (ascii ['=', '7', ';', '2']) 0x75, .csi (ascii ['<']) 0x75] ?_ ?_ _ List.prefix_rfl
  · intro item hitem
    rcases List.mem_cons.mp hitem with rfl | hitem
    · exact ⟨ascii ['>', '5'], [], rfl, by decide +kernel, by decide +kernel, rfl⟩
    rcases List.mem_cons.mp hitem with rfl | hitem
    · exact ⟨ascii ['=', '7', ';', '2'], [], rfl, by decide +kernel, by decide +kernel, rfl⟩
    rcases List.mem_cons.mp hitem with rfl | hitem
    · exact ⟨ascii ['<'], [], rfl, by decide +kernel, by decide +kernel, rfl⟩
    · cases hitem
  · refine ⟨fun _ _ => ⟨.push 5, by decide +kernel, (by decide : 5 < 2 ^ 16)⟩,
      fun _ _ => ⟨.set 7 .add, by decide +kernel, (by decide : 7 < 2 ^ 16), by decide +kernel⟩,
      fun _ _ => ⟨.pop 1, by decide +kernel, (by decide : 0 < 1), (by decide : 1 < 2 ^ 16)⟩,
      trivial⟩

/-- A set that adds flags: the tracker forgets those set before. -/
theorem set_adds :
    ¬ ∀ items : List Item, (∀ item ∈ items, item.Complete) →
      Agrees (initial.observe (items.flatMap Item.bytes)) (items.foldl Modes.step ⟨0, []⟩) := by
  intro hall
  have hagrees := hall [.csi (ascii ['=', '1']) 0x75, .csi (ascii ['=', '2', ';', '2']) 0x75] ?_
  · have hflags : (2 : Nat) = 3 := by
      have htracker : (initial.observe ([.csi (ascii ['=', '1']) 0x75,
        .csi (ascii ['=', '2', ';', '2']) 0x75].flatMap Item.bytes)).flags = 2 := by
        decide +kernel
      have hmachine : ([.csi (ascii ['=', '1']) 0x75,
        .csi (ascii ['=', '2', ';', '2']) 0x75].foldl Modes.step ⟨0, []⟩).flags = 3 := by
        decide +kernel
      rw [← htracker, hagrees.1, hmachine]
    exact absurd hflags (by decide)
  · intro item hitem
    rcases List.mem_cons.mp hitem with rfl | hitem
    · exact ⟨ascii ['=', '1'], [], rfl, by decide +kernel, by decide +kernel, rfl⟩
    rcases List.mem_cons.mp hitem with rfl | hitem
    · exact ⟨ascii ['=', '2', ';', '2'], [], rfl, by decide +kernel, by decide +kernel, rfl⟩
    · cases hitem

end Herden.Proofs.KittyKeyboard.Commands
