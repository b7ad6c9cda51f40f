import Herden.Lib.Framing
import Herden.Runtime.KittyKeyboard

/-!
# `Herden.Proofs.KittyKeyboard`: the tracker survives cuts and handoffs

The scan cuts its input into frames, single bytes and escape sequences (`next`), and a frame changes
the modes by itself (`frameEffect`). So it is the greedy framing of `Lib.Framing`, whose rest is
what stays pending (`observe_eq`), and where the input is cut makes no difference as long as no rest
is too long to be kept (`foldl_observe`).

What `replayAnsi` writes is framed into the sequences it is made of, and their effects from a fresh
tracker rebuild the modes (`observe_replayAnsi`).
-/

namespace Herden.Proofs.KittyKeyboard

open Herden.Lib
open Herden.Runtime.KittyKeyboard
open Herden.Runtime.KittyKeyboard.KittyKeyboardTracker

/-! ### Frames -/

/-- The length of the first frame: a byte, two bytes that begin with an ESC, or a CSI sequence. -/
def next : Bytes → Option Nat
  | [] => none
  | byte :: rest =>
      if byte ≠ esc then some 1
      else
        match rest with
        | [] => none
        | second :: behind =>
            if second = esc then some 1
            else if second ≠ bracket then some 2
            else (behind.findIdx? isFinal).map (· + 3)

/-- What a frame does to the modes. -/
def frameEffect (self : KittyKeyboardTracker) : Bytes → KittyKeyboardTracker
  | first :: second :: body =>
      if first ≠ esc then self
      else if second = 0x63 then self.reset
      else if second = bracket then
        match body.getLast? with
        | some final => self.observeCsi body.dropLast final
        | none => self
      else self
  | _ => self

/-- A sequence is finished by the first byte that can be its last. -/
theorem finals_cases (bytes : Bytes) :
    (∀ byte ∈ bytes, isFinal byte = false)
      ∨ ∃ body final after, bytes = body ++ final :: after
        ∧ (∀ byte ∈ body, isFinal byte = false) ∧ isFinal final = true := by
  induction bytes with
  | nil => exact Or.inl fun _ hmem => nomatch hmem
  | cons byte rest ih =>
    cases hfinal : isFinal byte with
    | true => exact Or.inr ⟨[], byte, rest, rfl, fun _ hmem => (nomatch hmem), hfinal⟩
    | false =>
      rcases ih with hnone | ⟨body, final, after, rfl, hbody, hlast⟩
      · exact Or.inl (List.forall_mem_cons.mpr ⟨hfinal, hnone⟩)
      · exact Or.inr ⟨byte :: body, final, after, rfl, List.forall_mem_cons.mpr ⟨hfinal, hbody⟩,
          hlast⟩

variable {body : Bytes} {final byte : UInt8} {frames : List Bytes} {self : KittyKeyboardTracker}
  {n : Nat}

theorem findIdx?_final (hbody : ∀ byte ∈ body, isFinal byte = false) (hfinal : isFinal final = true)
    (after : Bytes) : (body ++ final :: after).findIdx? isFinal = some body.length := by
  have hnone : body.findIdx? isFinal = none := List.findIdx?_eq_none_iff.mpr hbody
  rw [List.findIdx?_append, hnone, List.findIdx?_cons, hfinal]
  simp

theorem next_csi (hbody : ∀ byte ∈ body, isFinal byte = false) (hfinal : isFinal final = true)
    (after : Bytes) : next (esc :: bracket :: body ++ final :: after) = some (body.length + 3) := by
  rw [List.cons_append, List.cons_append, next, if_neg (by decide), if_neg (by decide),
    if_neg (by decide), findIdx?_final hbody hfinal]
  rfl

theorem recogniser_next : Recogniser next where
  pos := by
    intro xs len h
    unfold next at h
    split at h
    next => cases h
    next =>
      split at h
      next => cases h; omega
      next =>
        split at h
        next => cases h
        next =>
          split at h
          next => cases h; omega
          next =>
            split at h
            next => cases h; omega
            next =>
              obtain ⟨place, -, rfl⟩ := Option.map_eq_some_iff.mp h
              omega
  le := by
    intro xs len h
    unfold next at h
    split at h
    next => cases h
    next =>
      split at h
      next => cases h; simp
      next =>
        split at h
        next => cases h
        next =>
          split at h
          next => cases h; simp
          next =>
            split at h
            next => cases h; simp
            next =>
              obtain ⟨place, hplace, rfl⟩ := Option.map_eq_some_iff.mp h
              have hlt := (List.findIdx?_eq_some_iff_getElem.mp hplace).1
              simp only [List.length_cons]
              omega
  stable := by
    intro xs ys len h
    unfold next at h
    split at h
    next => cases h
    next byte rest =>
      rw [List.cons_append]
      unfold next
      dsimp only
      split at h
      next hbyte => rw [if_pos hbyte]; exact h
      next hbyte =>
        rw [if_neg hbyte]
        split at h
        next => cases h
        next second behind =>
          rw [List.cons_append]
          dsimp only
          split at h
          next hsecond => rw [if_pos hsecond]; exact h
          next hsecond =>
            rw [if_neg hsecond]
            split at h
            next hother => rw [if_pos hother]; exact h
            next hother =>
              rw [if_neg hother]
              exact (prefixStable_findIdx? isFinal).map (· + 3) behind ys len h

/-- A frame that begins in unfinished input takes all of it. -/
theorem length_le_of_next {xs ys : Bytes} {len : Nat} (hnone : next xs = none)
    (hsome : next (xs ++ ys) = some len) : xs.length ≤ len := by
  have hpos := recogniser_next.pos _ _ hsome
  unfold next at hnone
  split at hnone
  next => exact Nat.zero_le _
  next byte rest =>
    split at hnone
    next => cases hnone
    next hbyte =>
      split at hnone
      next => exact hpos
      next second behind =>
        split at hnone
        next => cases hnone
        next hsecond =>
          split at hnone
          next => cases hnone
          next hother =>
            have hbehind : behind.findIdx? isFinal = none := Option.map_eq_none_iff.mp hnone
            rw [List.cons_append, List.cons_append, next, if_neg hbyte, if_neg hsecond,
              if_neg hother, List.findIdx?_append, hbehind, Option.none_or, Option.map_map] at hsome
            obtain ⟨place, -, rfl⟩ := Option.map_eq_some_iff.mp hsome
            simp only [List.length_cons, Function.comp_apply]
            omega

/-! ### The scan -/

@[simp] theorem popTimes_pending (count : Nat) (self : KittyKeyboardTracker) :
    (popTimes count self).pending = self.pending := by
  induction count generalizing self with
  | zero => rfl
  | succ count ih => exact ih self.popOnce

theorem observeCsi_pending (self : KittyKeyboardTracker) (params : Bytes) (final : UInt8) :
    (self.observeCsi params final).pending = self.pending := by
  unfold observeCsi
  split
  next =>
    unfold observeCsiU
    split
    next => rfl
    next => repeat' split
            all_goals simp
  next =>
    split
    next =>
      unfold observeModifyOtherKeys
      repeat' split
      all_goals rfl
    next =>
      split
      next =>
        unfold observeCsiN
        repeat' split
        all_goals rfl
      next => rfl

theorem frameEffect_pending (self : KittyKeyboardTracker) (frame : Bytes) :
    (frameEffect self frame).pending = self.pending := by
  unfold frameEffect
  split
  next =>
    split
    next => rfl
    next =>
      split
      next => rfl
      next =>
        split
        next =>
          split
          next => exact observeCsi_pending self _ _
          next => rfl
        next => rfl
  next => rfl

theorem foldl_frameEffect_pending (frames : List Bytes) (self : KittyKeyboardTracker) :
    (frames.foldl frameEffect self).pending = self.pending := by
  induction frames generalizing self with
  | nil => rfl
  | cons frame frames ih => rw [List.foldl_cons, ih, frameEffect_pending]

theorem frameEffect_csi (self : KittyKeyboardTracker) (body : Bytes) (final : UInt8) :
    frameEffect self (esc :: bracket :: (body ++ [final])) = self.observeCsi body final := by
  rw [frameEffect, if_neg (by decide), if_neg (by decide), if_pos rfl, List.getLast?_concat,
    List.dropLast_concat]

/-- How input can begin. -/
inductive Shape : Bytes → Prop where
  | nil : Shape []
  | plain {byte : UInt8} {rest : Bytes} : byte ≠ esc → Shape (byte :: rest)
  | lone : Shape [esc]
  | double {rest : Bytes} : Shape (esc :: esc :: rest)
  | escape {second : UInt8} {rest : Bytes} : second ≠ esc → second ≠ bracket →
      Shape (esc :: second :: rest)
  | unfinished {behind : Bytes} : (∀ byte ∈ behind, isFinal byte = false) →
      Shape (esc :: bracket :: behind)
  | csi {body after : Bytes} {final : UInt8} : (∀ byte ∈ body, isFinal byte = false) →
      isFinal final = true → Shape (esc :: bracket :: (body ++ final :: after))

theorem shape (bytes : Bytes) : Shape bytes := by
  cases bytes with
  | nil => exact .nil
  | cons byte rest =>
    by_cases hbyte : byte = esc
    · subst hbyte
      cases rest with
      | nil => exact .lone
      | cons second behind =>
        by_cases hsecond : second = esc
        · rw [hsecond]
          exact .double
        · by_cases hbracket : second = bracket
          · rw [hbracket]
            rcases finals_cases behind with hnone | ⟨body, final, after, rfl, hbody, hfinal⟩
            · exact .unfinished hnone
            · exact .csi hbody hfinal
          · exact .escape hsecond hbracket
    · exact .plain hbyte

theorem takeWhile_final (hbody : ∀ byte ∈ body, isFinal byte = false)
    (hfinal : isFinal final = true) (after : Bytes) :
    (body ++ final :: after).takeWhile (!isFinal ·) = body
      ∧ (body ++ final :: after).dropWhile (!isFinal ·) = final :: after := by
  induction body with
  | nil => simp [hfinal]
  | cons byte body ih =>
    obtain ⟨hbyte, hrest⟩ := List.forall_mem_cons.mp hbody
    obtain ⟨htake, hdrop⟩ := ih hrest
    simp [hbyte, htake, hdrop]

theorem dropWhile_unfinished {behind : Bytes} (h : ∀ byte ∈ behind, isFinal byte = false) :
    behind.dropWhile (!isFinal ·) = [] := by
  rw [List.dropWhile_eq_nil_iff]
  intro byte hbyte
  rw [h byte hbyte]
  rfl

theorem next_plain (h : byte ≠ esc) (rest : Bytes) : next (byte :: rest) = some 1 := by
  rw [next.eq_def]
  exact if_pos h

theorem scan_plain (h : byte ≠ esc) (rounds : Nat) (self : KittyKeyboardTracker) (rest : Bytes) :
    scan (rounds + 1) self (byte :: rest) = scan rounds self rest := by
  rw [scan.eq_def]
  exact if_pos h

theorem scan_double (rounds : Nat) (self : KittyKeyboardTracker) (rest : Bytes) :
    scan (rounds + 1) self (esc :: esc :: rest) = scan rounds self (esc :: rest) := rfl

theorem scan_escape {second : UInt8} (h : second ≠ esc) (h' : second ≠ bracket) (rounds : Nat)
    (self : KittyKeyboardTracker) (rest : Bytes) :
    scan (rounds + 2) self (esc :: second :: rest)
      = scan rounds (frameEffect self [esc, second]) rest := by
  have hesc : ¬ esc ≠ esc := not_not.mpr rfl
  rw [scan, if_neg hesc]
  dsimp only
  rw [if_pos h', scan_plain h, frameEffect, if_neg hesc, if_neg h']

theorem scan_unfinished {behind : Bytes} (h : ∀ byte ∈ behind, isFinal byte = false)
    (rounds : Nat) (self : KittyKeyboardTracker) :
    scan (rounds + 1) self (esc :: bracket :: behind)
      = self.storePending (esc :: bracket :: behind) := by
  rw [scan, if_neg (by decide), if_neg (by decide), dropWhile_unfinished h]
  rfl

theorem scan_csi (hbody : ∀ byte ∈ body, isFinal byte = false) (hfinal : isFinal final = true)
    (rounds : Nat) (self : KittyKeyboardTracker) (after : Bytes) :
    scan (rounds + 1) self (esc :: bracket :: (body ++ final :: after))
      = scan rounds (self.observeCsi body final) after := by
  obtain ⟨htake, hdrop⟩ := takeWhile_final hbody hfinal after
  rw [scan, if_neg (by decide), if_neg (by decide), htake, hdrop]
  rfl

/-- The scan does what the frames do, and keeps the rest. -/
theorem scan_eq {rounds : Nat} {bytes rest : Bytes} (h : Splits next bytes frames rest)
    (hrounds : bytes.length ≤ rounds) (hpending : self.pending = []) :
    scan rounds self bytes = (frames.foldl frameEffect self).storePending rest := by
  induction h generalizing rounds self with
  | @stop buffer hnone =>
    cases shape buffer with
    | nil =>
      obtain ⟨pending, stack, flags, level⟩ := self
      cases hpending
      cases rounds <;> rfl
    | plain hbyte =>
      rw [next_plain hbyte] at hnone
      cases hnone
    | lone =>
      obtain ⟨rounds, rfl⟩ := Nat.exists_eq_add_of_le' hrounds
      rfl
    | double => cases hnone
    | escape hsecond hbracket =>
      rw [next, if_neg (by decide), if_neg hsecond, if_pos hbracket] at hnone
      cases hnone
    | unfinished hbehind =>
      obtain ⟨rounds, rfl⟩ := Nat.exists_eq_add_of_le' hrounds
      exact scan_unfinished hbehind _ self
    | csi hbody hfinal =>
      rw [← List.cons_append, ← List.cons_append, next_csi hbody hfinal] at hnone
      cases hnone
  | @frame buffer rest len frames hsome _ ih =>
    have hlen := recogniser_next.le _ _ hsome
    rw [List.length_drop] at ih
    rw [List.foldl_cons]
    have hkept (frame : Bytes) : (frameEffect self frame).pending = [] := by
      rw [frameEffect_pending, hpending]
    cases shape buffer with
    | nil => cases hsome
    | @plain byte behind hbyte =>
      rw [next_plain hbyte] at hsome
      cases hsome
      rw [List.length_cons] at ih hrounds
      obtain ⟨more, rfl⟩ : ∃ more, rounds = more + 1 := ⟨rounds - 1, by omega⟩
      rw [scan_plain hbyte]
      exact ih (by omega) (hkept [byte])
    | lone => cases hsome
    | @double behind =>
      cases hsome
      rw [List.length_cons] at ih hrounds
      obtain ⟨more, rfl⟩ : ∃ more, rounds = more + 1 := ⟨rounds - 1, by omega⟩
      rw [scan_double]
      exact ih (by omega) (hkept [esc])
    | @escape second behind hsecond hbracket =>
      rw [next, if_neg (by decide), if_neg hsecond, if_pos hbracket] at hsome
      cases hsome
      rw [List.length_cons, List.length_cons] at ih hrounds
      obtain ⟨more, rfl⟩ : ∃ more, rounds = more + 2 := ⟨rounds - 2, by omega⟩
      rw [scan_escape hsecond hbracket]
      exact ih (by omega) (hkept [esc, second])
    | unfinished hbehind =>
      rw [next, if_neg (by decide), if_neg (by decide), if_neg (by decide),
        List.findIdx?_eq_none_iff.mpr hbehind] at hsome
      cases hsome
    | @csi body after final hbody hfinal =>
      rw [← List.cons_append, ← List.cons_append, next_csi hbody hfinal] at hsome
      cases hsome
      have hsplit : esc :: bracket :: (body ++ final :: after)
          = (esc :: bracket :: (body ++ [final])) ++ after := by simp
      have hsize : body.length + 3 = (esc :: bracket :: (body ++ [final])).length := by simp
      rw [hsplit, hsize, List.take_left, frameEffect_csi, ← hsplit]
      rw [hsplit, hsize, List.drop_left, List.length_append] at ih
      rw [hsplit, List.length_append] at hrounds
      obtain ⟨more, rfl⟩ : ∃ more, rounds = more + 1 := ⟨rounds - 1, by omega⟩
      rw [scan_csi hbody hfinal]
      refine ih (by omega) ?_
      rw [observeCsi_pending, hpending]

/-- What stays pending. -/
def kept (rest : Bytes) : Bytes := if rest.length ≤ 64 then rest else []

theorem observe_eq {bytes rest : Bytes} (h : Splits next (self.pending ++ bytes) frames rest) :
    self.observe bytes = { frames.foldl frameEffect { self with pending := [] } with
      pending := kept rest } :=
  scan_eq h (Nat.le_refl _) rfl

/-! ### Cuts -/

/-- Every CSI sequence of a stream, the unfinished one at the end included, has 64 bytes at most. -/
def Short (stream : Bytes) : Prop :=
  ∃ frames rest, Splits next stream frames rest ∧ (∀ frame ∈ frames, frame.length ≤ 64)
    ∧ rest.length ≤ 64

/-- What is pending is an unfinished sequence. -/
def Settled (self : KittyKeyboardTracker) : Prop := next self.pending = none

theorem observe_settled (self : KittyKeyboardTracker) (bytes : Bytes) :
    Settled (self.observe bytes) := by
  obtain ⟨frames, rest, h⟩ := Splits.exists_of_recogniser recogniser_next (self.pending ++ bytes)
  unfold Settled
  rw [observe_eq h]
  unfold kept
  dsimp only
  split
  next => exact h.rest_eq_none
  next => rfl

variable {more : Bytes} {flags : Nat} {pushed : List Nat}

/-- The front of a short stream leaves a rest that is kept, and a short stream behind it. -/
theorem Short.rest {front rest : Bytes} (h : Short (front ++ more))
    (hfront : Splits next front frames rest) : rest.length ≤ 64 ∧ Short (rest ++ more) := by
  obtain ⟨all, last, hall, hframes, hlast⟩ := h
  obtain ⟨behind, last', hbehind⟩ := Splits.exists_of_recogniser recogniser_next (rest ++ more)
  obtain ⟨rfl, rfl⟩ := hall.unique (hfront.append recogniser_next hbehind)
  have hlater : ∀ frame ∈ behind, frame.length ≤ 64 := fun frame hmem =>
    hframes frame (List.mem_append_right _ hmem)
  refine ⟨?_, behind, last, hbehind, hlater, hlast⟩
  cases hbehind with
  | stop =>
    rw [List.length_append] at hlast
    omega
  | frame hsome =>
    have hle := length_le_of_next hfront.rest_eq_none hsome
    have hlen := recogniser_next.le _ _ hsome
    have hframe := hlater _ List.mem_cons_self
    rw [List.length_take] at hframe
    omega

/-- Two calls are one. -/
theorem observe_append {bytes : Bytes} (h : Short (self.pending ++ (bytes ++ more))) :
    (self.observe bytes).observe more = self.observe (bytes ++ more)
      ∧ Short ((self.observe bytes).pending ++ more) := by
  obtain ⟨frames, rest, hfront⟩ :=
    Splits.exists_of_recogniser recogniser_next (self.pending ++ bytes)
  rw [← List.append_assoc] at h
  obtain ⟨hrest, hbehind⟩ := h.rest hfront
  have hkept : kept rest = rest := if_pos hrest
  have hfirst := observe_eq hfront
  rw [hkept] at hfirst
  obtain ⟨later, last, hlater⟩ := Splits.exists_of_recogniser recogniser_next (rest ++ more)
  have hall := hfront.append recogniser_next hlater
  rw [List.append_assoc] at hall
  rw [hfirst]
  refine ⟨?_, hbehind⟩
  rw [observe_eq hlater, observe_eq hall, List.foldl_append]
  have hpending := foldl_frameEffect_pending frames { self with pending := [] }
  generalize frames.foldl frameEffect { self with pending := [] } = modes at hpending ⊢
  obtain ⟨pending, stack, flags, level⟩ := modes
  cases hpending
  rfl

theorem observe_nil (hsettled : Settled self) (hshort : self.pending.length ≤ 64) :
    self.observe [] = self := by
  have hstop : Splits next (self.pending ++ []) [] self.pending := by
    rw [List.append_nil]
    exact Splits.stop hsettled
  rw [observe_eq hstop]
  unfold kept
  rw [if_pos hshort]
  rfl

/-- Where a stream is cut makes no difference. -/
theorem foldl_observe {chunks : List Bytes} (hsettled : Settled self)
    (hpending : self.pending.length ≤ 64) (h : Short (self.pending ++ chunks.flatten)) :
    chunks.foldl observe self = self.observe chunks.flatten := by
  induction chunks generalizing self with
  | nil => exact (observe_nil hsettled hpending).symm
  | cons chunk chunks ih =>
    rw [List.flatten_cons] at h ⊢
    obtain ⟨hcalls, hbehind⟩ := observe_append h
    have hkept : (self.observe chunk).pending.length ≤ 64 := by
      obtain ⟨frames, rest, hsplits⟩ :=
        Splits.exists_of_recogniser recogniser_next (self.pending ++ chunk)
      rw [observe_eq hsplits]
      unfold kept
      dsimp only
      split
      next hle => exact hle
      next => exact Nat.zero_le _
    rw [List.foldl_cons, ih (observe_settled self chunk) hkept hbehind, hcalls]

/-! ### Replay -/

/-- The characters of ASCII sequences. -/
theorem toNat_ofNat_digit {c : Char} (h : c.isDigit = true) :
    (UInt8.ofNat c.toNat).toNat = c.toNat ∧ 48 ≤ c.toNat ∧ c.toNat ≤ 57 := by
  have hbounds : 48 ≤ c.toNat ∧ c.toNat ≤ 57 := by
    unfold Char.isDigit at h
    simp only [Bool.and_eq_true, decide_eq_true_eq, UInt32.le_iff_toNat_le] at h
    exact h
  refine ⟨?_, hbounds⟩
  have hlt : c.toNat < UInt8.size := Nat.lt_of_le_of_lt hbounds.2 (by decide)
  rw [UInt8.toNat_ofNat_of_lt' hlt]

theorem mem_number (h : byte ∈ number n) : 48 ≤ byte.toNat ∧ byte.toNat ≤ 57 := by
  obtain ⟨c, hc, rfl⟩ := List.mem_map.mp h
  have hdigit := Nat.isDigit_of_mem_toDigits (by omega) (by omega) hc
  obtain ⟨heq, hbounds⟩ := toNat_ofNat_digit hdigit
  rw [heq]
  exact hbounds

/-- A number in a sequence is read back. -/
theorem parse_number (h : n < 2 ^ 16) : parseKittyKeyboardFlags (number n) = n := by
  have hsplit : (number n).splitOn semicolon = [number n] := by
    refine List.splitOn_eq_singleton fun hmem => ?_
    have hdigit := mem_number hmem
    exact absurd hdigit.2 (by decide)
  have hchars : (number n).map (fun byte => Char.ofNat byte.toNat) = Nat.toDigits 10 n := by
    unfold number ascii
    rw [List.map_map]
    refine (List.map_congr_left fun c hc => ?_).trans (List.map_id _)
    have hdigit := Nat.isDigit_of_mem_toDigits (by omega) (by omega) hc
    show Char.ofNat (UInt8.ofNat c.toNat).toNat = c
    rw [(toNat_ofNat_digit hdigit).1, Char.ofNat_toNat]
  unfold parseKittyKeyboardFlags
  rw [hsplit, List.headD_cons]
  dsimp only
  rw [hchars, Text.parseBelow_toDigits h, Option.getD_some]

theorem number_not_final (h : byte ∈ number n) : isFinal byte = false := by
  have hdigit := mem_number h
  unfold isFinal
  rw [Bool.and_eq_false_iff]
  left
  rw [decide_eq_false_iff_not]
  omega

/-- A sequence is a frame of its own. -/
theorem splits_csi {after rest : Bytes} (hbody : ∀ byte ∈ body, isFinal byte = false)
    (hfinal : isFinal final = true) (h : Splits next after frames rest) :
    Splits next ((esc :: bracket :: (body ++ [final])) ++ after)
      ((esc :: bracket :: (body ++ [final])) :: frames) rest := by
  have hsome : next ((esc :: bracket :: (body ++ [final])) ++ after)
      = some (esc :: bracket :: (body ++ [final])).length := by
    have hcsi := next_csi hbody hfinal after
    have hsplit : (esc :: bracket :: (body ++ [final])) ++ after
        = esc :: bracket :: body ++ final :: after := by simp
    rw [hsplit, hcsi]
    simp
  have hdrop : ((esc :: bracket :: (body ++ [final])) ++ after).drop
      (esc :: bracket :: (body ++ [final])).length = after := List.drop_left
  have hframe := Splits.frame hsome (hdrop.symm ▸ h)
  rwa [List.take_left] at hframe

/-- A sequence that sets modes: it is one frame, and what it does. -/
structure Sets (sequence : Bytes) (effect : KittyKeyboardTracker → KittyKeyboardTracker) :
    Prop where
  splits : ∀ {after rest frames}, Splits next after frames rest →
    Splits next (sequence ++ after) (sequence :: frames) rest
  effect_eq : ∀ self, frameEffect self sequence = effect self

theorem sets_csi (hbody : ∀ byte ∈ body, isFinal byte = false) (hfinal : isFinal final = true) :
    Sets (esc :: bracket :: (body ++ [final])) (·.observeCsi body final) :=
  ⟨splits_csi hbody hfinal, fun self => frameEffect_csi self body final⟩

theorem sets_setSequence (h : flags < 2 ^ 16) :
    Sets (setSequence flags) fun self => { self with flags := flags } := by
  have hbody : ∀ byte ∈ 0x3d :: number flags, isFinal byte = false :=
    List.forall_mem_cons.mpr ⟨by decide, fun _ => number_not_final⟩
  obtain ⟨hsplits, heffect⟩ := sets_csi hbody (show isFinal 0x75 = true by decide)
  refine ⟨hsplits, fun self => (heffect self).trans ?_⟩
  unfold observeCsi observeCsiU
  dsimp only
  rw [if_pos rfl, if_neg (by decide), if_pos rfl, parse_number h]

theorem sets_pushSequence (h : flags < 2 ^ 16) : Sets (pushSequence flags) fun self =>
      { self with stack := self.stack ++ [self.flags], flags := flags } := by
  have hbody : ∀ byte ∈ 0x3e :: number flags, isFinal byte = false :=
    List.forall_mem_cons.mpr ⟨by decide, fun _ => number_not_final⟩
  obtain ⟨hsplits, heffect⟩ := sets_csi hbody (show isFinal 0x75 = true by decide)
  refine ⟨hsplits, fun self => (heffect self).trans ?_⟩
  unfold observeCsi observeCsiU
  dsimp only
  rw [if_pos rfl, if_pos rfl, parse_number h]

theorem sets_levelSequence {level : Nat} (h : level ≤ 2) :
    Sets (levelSequence level) fun self => { self with modifyOtherKeysLevel := level } := by
  have hbody : ∀ byte ∈ 0x3e :: 0x34 :: semicolon :: number level, isFinal byte = false :=
    List.forall_mem_cons.mpr ⟨by decide, List.forall_mem_cons.mpr ⟨by decide,
      List.forall_mem_cons.mpr ⟨by decide, fun _ => number_not_final⟩⟩⟩
  obtain ⟨hsplits, heffect⟩ := sets_csi hbody (show isFinal 0x6d = true by decide)
  refine ⟨hsplits, fun self => (heffect self).trans ?_⟩
  have hcases : level = 0 ∨ level = 1 ∨ level = 2 := by omega
  rcases hcases with rfl | rfl | rfl <;> rfl

/-- The sequences that push flags. -/
theorem splits_pushes (h : ∀ flags ∈ pushed, flags < 2 ^ 16) {after rest : Bytes}
    (hafter : Splits next after frames rest) :
    Splits next (pushed.flatMap pushSequence ++ after) (pushed.map pushSequence ++ frames)
      rest := by
  induction pushed with
  | nil => exact hafter
  | cons flags pushed ih =>
    obtain ⟨hflags, hpushed⟩ := List.forall_mem_cons.mp h
    rw [List.flatMap_cons, List.append_assoc, List.map_cons, List.cons_append]
    exact (sets_pushSequence hflags).splits (ih hpushed)

/-- Pushing flags one after the other leaves the last one current and the others below it. -/
theorem foldl_pushes (h : ∀ flags ∈ pushed, flags < 2 ^ 16) {last : Nat} (hlast : last < 2 ^ 16)
    (self : KittyKeyboardTracker) : ((pushed ++ [last]).map pushSequence).foldl frameEffect self
      = { self with stack := self.stack ++ self.flags :: pushed, flags := last } := by
  induction pushed generalizing self with
  | nil => exact (sets_pushSequence hlast).effect_eq self
  | cons flags pushed ih =>
    obtain ⟨hflags, hpushed⟩ := List.forall_mem_cons.mp h
    rw [List.cons_append, List.map_cons, List.foldl_cons, (sets_pushSequence hflags).effect_eq,
      ih hpushed]
    simp

/-- Modes that sequences can set. -/
structure Bounded (tracker : KittyKeyboardTracker) : Prop where
  flags : tracker.flags < 2 ^ 16
  stack : ∀ flags ∈ tracker.stack, flags < 2 ^ 16
  level : tracker.modifyOtherKeysLevel ≤ 2

theorem parse_lt (bytes : Bytes) : parseKittyKeyboardFlags bytes < 2 ^ 16 := by
  unfold parseKittyKeyboardFlags
  dsimp only
  generalize ((bytes.splitOn semicolon).headD []).map (fun byte => Char.ofNat byte.toNat) = text
  unfold Text.parseBelow
  dsimp only
  split
  next =>
    split
    next h => exact h
    next => decide
  next => decide

theorem Bounded.popTimes (h : Bounded self) (count : Nat) : Bounded (popTimes count self) := by
  induction count generalizing self with
  | zero => exact h
  | succ count ih =>
    refine ih ⟨?_, fun flags hmem => h.stack flags (List.dropLast_subset _ hmem), h.level⟩
    show self.stack.getLast?.getD 0 < 2 ^ 16
    cases hlast : self.stack.getLast? with
    | none => decide
    | some flags => exact h.stack flags (List.mem_of_getLast? hlast)

theorem Bounded.observeCsi (h : Bounded self) (params : Bytes) (final : UInt8) :
    Bounded (self.observeCsi params final) := by
  unfold KittyKeyboardTracker.observeCsi
  split
  next =>
    unfold observeCsiU
    split
    next => exact h
    next kind rest =>
      split
      next =>
        refine ⟨parse_lt rest, fun flags hmem => ?_, h.level⟩
        rcases List.mem_append.mp hmem with hold | hnew
        · exact h.stack flags hold
        · rw [List.mem_singleton.mp hnew]
          exact h.flags
      next =>
        split
        next => exact ⟨parse_lt rest, h.stack, h.level⟩
        next =>
          split
          next => exact h.popTimes _
          next => exact h
  next =>
    split
    next =>
      unfold observeModifyOtherKeys
      repeat' split
      all_goals first
        | exact h
        | exact ⟨h.flags, h.stack, Nat.zero_le 2⟩
        | exact ⟨h.flags, h.stack, Nat.min_le_right _ 2⟩
    next =>
      split
      next =>
        unfold observeCsiN
        repeat' split
        all_goals first
          | exact h
          | exact ⟨h.flags, h.stack, Nat.zero_le 2⟩
      next => exact h

theorem Bounded.frameEffect (h : Bounded self) (frame : Bytes) :
    Bounded (frameEffect self frame) := by
  unfold Proofs.KittyKeyboard.frameEffect
  split
  next =>
    split
    next => exact h
    next =>
      split
      next => exact ⟨Nat.two_pow_pos 16, fun _ hmem => (nomatch hmem), Nat.zero_le 2⟩
      next =>
        split
        next =>
          split
          next => exact h.observeCsi _ _
          next => exact h
        next => exact h
  next => exact h

theorem Bounded.observe (h : Bounded self) (bytes : Bytes) : Bounded (self.observe bytes) := by
  obtain ⟨frames, rest, hsplits⟩ :=
    Splits.exists_of_recogniser recogniser_next (self.pending ++ bytes)
  rw [observe_eq hsplits]
  have hstart : Bounded { self with pending := [] } := ⟨h.flags, h.stack, h.level⟩
  generalize { self with pending := [] } = modes at hstart
  have hmodes : Bounded (frames.foldl Proofs.KittyKeyboard.frameEffect modes) := by
    clear hsplits
    induction frames generalizing modes with
    | nil => exact hstart
    | cons frame frames ih => exact ih _ (hstart.frameEffect frame)
  exact ⟨hmodes.flags, hmodes.stack, hmodes.level⟩

/-- A tracker that calls can reach. -/
def reached (history : List Bytes) : KittyKeyboardTracker := history.foldl observe initial

theorem reached_spec (history : List Bytes) :
    Bounded (reached history) ∧ Settled (reached history)
      ∧ (reached history).pending.length ≤ 64 := by
  unfold reached
  induction history using List.reverseRecOn with
  | nil => exact ⟨⟨by decide, fun _ hmem => (nomatch hmem), Nat.zero_le 2⟩, rfl, Nat.zero_le 64⟩
  | append_singleton history bytes ih =>
    rw [List.foldl_concat]
    refine ⟨ih.1.observe bytes, observe_settled _ bytes, ?_⟩
    obtain ⟨frames, rest, hsplits⟩ :=
      Splits.exists_of_recogniser recogniser_next ((history.foldl observe initial).pending ++ bytes)
    rw [observe_eq hsplits]
    unfold kept
    dsimp only
    split
    next hle => exact hle
    next => exact Nat.zero_le _

/-- What is replayed rebuilds the modes. -/
theorem observe_replayAnsi (h : Bounded self) :
    initial.observe self.replayAnsi = { self with pending := [] } := by
  obtain ⟨pending, stack, flags, level⟩ := self
  obtain ⟨hflags, hstack, hlevel⟩ := h
  dsimp only at hflags hstack hlevel
  have hend : Splits next ([] : Bytes) [] [] := Splits.stop rfl
  -- The level comes last.
  obtain ⟨lastFrames, hlast, hlevelEffect⟩ : ∃ lastFrames,
      Splits next (if 0 < level then levelSequence level else []) lastFrames []
        ∧ ∀ modes : KittyKeyboardTracker, modes.modifyOtherKeysLevel = 0 →
          lastFrames.foldl frameEffect modes = { modes with modifyOtherKeysLevel := level } := by
    by_cases hpos : 0 < level
    · have hsets := sets_levelSequence hlevel
      refine ⟨[levelSequence level], ?_, fun modes _ => hsets.effect_eq modes⟩
      rw [if_pos hpos]
      have hsplits := hsets.splits hend
      rwa [List.append_nil] at hsplits
    · refine ⟨[], by rw [if_neg hpos]; exact hend, fun modes hmodes => ?_⟩
      have hzero : level = 0 := by omega
      rw [hzero, ← hmodes]
      rfl
  -- Flags are set, or set and pushed.
  obtain ⟨frames, hframes, heffect⟩ : ∃ frames,
      Splits next (KittyKeyboardTracker.replayAnsi ⟨pending, stack, flags, level⟩)
          (frames ++ lastFrames) []
        ∧ frames.foldl frameEffect initial = ⟨[], stack, flags, 0⟩ := by
    unfold replayAnsi
    dsimp only
    cases stack with
    | nil =>
      by_cases hzero : flags = 0
      · refine ⟨[], ?_, by rw [hzero]; rfl⟩
        rw [if_neg (not_not.mpr hzero)]
        exact hlast
      · have hsets := sets_setSequence hflags
        refine ⟨[setSequence flags], ?_, hsets.effect_eq initial⟩
        rw [if_pos hzero]
        exact hsets.splits hlast
    | cons baseline pushed =>
      obtain ⟨hbaseline, hpushed⟩ := List.forall_mem_cons.mp hstack
      have hall : ∀ value ∈ pushed ++ [flags], value < 2 ^ 16 :=
        List.forall_mem_append.mpr ⟨hpushed, List.forall_mem_singleton.mpr hflags⟩
      have hpushes := splits_pushes hall hlast
      dsimp only
      by_cases hzero : baseline = 0
      · refine ⟨(pushed ++ [flags]).map pushSequence, ?_, ?_⟩
        · rw [if_neg (not_not.mpr hzero), List.nil_append]
          exact hpushes
        · rw [foldl_pushes hpushed hflags, hzero]
          rfl
      · have hsets := sets_setSequence hbaseline
        refine ⟨setSequence baseline :: (pushed ++ [flags]).map pushSequence, ?_, ?_⟩
        · rw [if_pos hzero, List.append_assoc]
          exact hsets.splits hpushes
        · rw [List.foldl_cons, hsets.effect_eq, foldl_pushes hpushed hflags]
          rfl
  have hreplay : Splits next (initial.pending ++
      KittyKeyboardTracker.replayAnsi ⟨pending, stack, flags, level⟩) (frames ++ lastFrames) [] :=
    hframes
  rw [observe_eq hreplay, List.foldl_append]
  have hmodes : frames.foldl frameEffect { initial with pending := [] } = ⟨[], stack, flags, 0⟩ :=
    heffect
  rw [hmodes, hlevelEffect _ rfl]
  rfl

/-- Where a stream is cut makes no difference while no CSI sequence has more than 64 bytes, and a
fresh tracker that observes a replay has the modes of the tracker. -/
theorem handoff_roundTrip (history : List Bytes) :
    (∀ chunks : List Bytes, Short ((reached history).pending ++ chunks.flatten) →
        chunks.foldl observe (reached history) = (reached history).observe chunks.flatten)
      ∧ ((reached history).pending = [] →
        initial.observe (reached history).replayAnsi = reached history) := by
  obtain ⟨hbounded, hsettled, hshort⟩ := reached_spec history
  refine ⟨fun chunks hchunks => foldl_observe hsettled hshort hchunks, fun hpending => ?_⟩
  rw [observe_replayAnsi hbounded]
  generalize reached history = tracker at hpending ⊢
  obtain ⟨pending, stack, flags, level⟩ := tracker
  cases hpending
  rfl

end Herden.Proofs.KittyKeyboard
