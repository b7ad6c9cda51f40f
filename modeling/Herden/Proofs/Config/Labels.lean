import Mathlib
import Herden.Lib.IpAddr
import Herden.Lib.Lines
import Herden.Runtime.Config.Keybinds

/-!
# `Herden.Proofs.Config.Labels`: labels are read back

`Readable` says which combinations the parser makes. The label of one is its modifiers and its key,
separated by plus signs (`formatKeyCombo_eq`), and reading the parts again gives the combination
(`parseKeyCombo_formatKeyCombo`). A plus sign as the key makes two parts that are empty; back tab is
read from two parts as well, shift and tab.
-/

namespace Herden.Runtime.Key.KeyModifiers

/-! ### Shift as a flag -/

theorem contains_union_shift (m : KeyModifiers) : (m.union shift).contains shift = true := by
  obtain ⟨bits⟩ := m
  revert bits
  decide +kernel

variable {m : KeyModifiers}

theorem difference_union_shift (h : m.contains shift = false) :
    (m.union shift).difference shift = m := by
  obtain ⟨bits⟩ := m
  revert bits
  decide +kernel

theorem contains_difference_shift (m : KeyModifiers) :
    (m.difference shift).contains shift = false := by
  obtain ⟨bits⟩ := m
  revert bits
  decide +kernel

theorem difference_shift_of_not_contains (h : m.contains shift = false) :
    m.difference shift = m := by
  obtain ⟨bits⟩ := m
  revert bits
  decide +kernel

end Herden.Runtime.Key.KeyModifiers

namespace Herden.Proofs.Config

open Herden.Lib (IpAddr Text)
open Herden.Lib.Text
open Herden.Runtime.Key
open Herden.Runtime.Config

/-! ### Normal combinations -/

theorem normalizeKeyCombo_cases (combo : KeyCombo) :
    normalizeKeyCombo combo = combo
      ∨ combo.1 = .tab ∧ normalizeKeyCombo combo = (.backTab, combo.2.difference .shift)
      ∨ combo.1 = .backTab ∧ normalizeKeyCombo combo = (.backTab, combo.2.difference .shift) := by
  obtain ⟨code, modifiers⟩ := combo
  unfold normalizeKeyCombo
  dsimp only
  split
  next htab =>
    simp only [Bool.and_eq_true, decide_eq_true_eq] at htab
    exact .inr (.inl ⟨htab.1, rfl⟩)
  next =>
    split
    next hback =>
      subst hback
      exact .inr (.inr ⟨rfl, rfl⟩)
    next => exact .inl rfl

/-- Normalising twice is normalising once. -/
theorem normalizeKeyCombo_normalized (combo : KeyCombo) :
    normalizeKeyCombo (normalizeKeyCombo combo) = normalizeKeyCombo combo := by
  have hback : ∀ m : KeyModifiers, normalizeKeyCombo (.backTab, m.difference .shift)
      = (.backTab, m.difference .shift) := by
    intro m
    have hdifference := KeyModifiers.difference_shift_of_not_contains
      (KeyModifiers.contains_difference_shift m)
    simp [normalizeKeyCombo, hdifference]
  rcases normalizeKeyCombo_cases combo with h | ⟨-, h⟩ | ⟨-, h⟩
  · rw [h, h]
  · rw [h, hback]
  · rw [h, hback]

theorem normalizeKeyCombo_char (c : Char) (m : KeyModifiers) :
    normalizeKeyCombo (.char c, m) = (.char c, m) := by
  simp [normalizeKeyCombo]

theorem toLower_of_isUpper_eq_false {c : Char} (h : c.isUpper = false) : c.toLower = c := by
  unfold Char.isUpper at h
  unfold Char.toLower
  rw [decide_eq_false_iff_not] at h
  rw [dif_neg h]

/-! ### Combinations from a configuration -/

/-- The modifiers that have names to the parser: all but meta, whose name is taken for alt. -/
def Named (modifiers : KeyModifiers) : Prop := modifiers.bits &&& 224 = 0

instance (modifiers : KeyModifiers) : Decidable (Named modifiers) :=
  inferInstanceAs (Decidable (_ = _))

theorem named_empty : Named .empty := rfl

variable {m modifiers : KeyModifiers} {code : KeyCode} {s part text key : Text} {c : Char}
  {combo : KeyCombo} {parts : List Text} {entries : List (KeyModifiers × String)} {macos : Bool}

theorem Named.union {n : KeyModifiers} (hm : Named m) (hn : Named n) : Named (m.union n) := by
  unfold Named KeyModifiers.union at *
  rw [← UInt8.toBitVec_inj, UInt8.toBitVec_and] at *
  rw [UInt8.toBitVec_or, BitVec.and_or_distrib_right, hm, hn]
  rfl

theorem Named.difference_shift (h : Named m) : Named (m.difference .shift) := by
  obtain ⟨bits⟩ := m
  revert bits
  decide +kernel

def readableKey : KeyCode → Bool
  | .char c => (c = ' ' || !isWhitespace c) && !c.isUpper
  | .f _ | .enter | .esc | .tab | .backTab | .backspace | .left | .right | .up | .down => true
  | _ => false

/-- A combination as the parser makes them. -/
structure Readable (combo : KeyCombo) : Prop where
  normal : normalizeKeyCombo combo = combo
  named : Named combo.2
  key : readableKey combo.1 = true

variable {token : Text}

theorem named_of_parseModifierToken (h : parseModifierToken token = some m) : Named m := by
  have htokens : modifierTokens.all (fun entry => decide (Named entry.2)) = true := by decide
  obtain ⟨before, after, hsplit, -⟩ := List.lookup_eq_some_iff.mp h
  exact of_decide_eq_true (List.all_eq_true.mp htokens _ (hsplit ▸ List.mem_append_cons_self))

theorem readableKey_of_lookup {name : String} (h : namedKeys.lookup name = some code) :
    readableKey code = true := by
  have hkeys : namedKeys.all (fun entry => readableKey entry.2) = true := by decide
  obtain ⟨before, after, hsplit, -⟩ := List.lookup_eq_some_iff.mp h
  exact List.all_eq_true.mp hkeys _ (hsplit ▸ List.mem_append_cons_self)

/-- What a fold keeps that may fail. -/
theorem foldlM_invariant {σ α : Type} {step : σ → α → Option σ} {P : σ → Prop}
    (hstep : ∀ {s item s'}, P s → step s item = some s' → P s') {items : List α} {s s' : σ}
    (hs : P s) (h : items.foldlM step s = some s') : P s' := by
  induction items generalizing s with
  | nil => exact Option.some.inj h ▸ hs
  | cons item rest ih =>
    rw [List.foldlM_cons] at h
    obtain ⟨next, hnext, hrest⟩ := Option.bind_eq_some_iff.mp h
    exact ih (hstep hs hnext) hrest

theorem named_of_parseRangeModifiers (h : parseRangeModifiers s = some m) : Named m := by
  unfold parseRangeModifiers at h
  obtain ⟨found, hfound, hm⟩ := Option.bind_eq_some_iff.mp h
  have hnamed : Named found.1 := by
    refine foldlM_invariant (P := fun found => Named found.1) ?_ named_empty hfound
    intro found part found' hnamed hstep
    dsimp only at hstep
    split at hstep
    next =>
      split at hstep
      next => cases hstep
      next => exact Option.some.inj hstep ▸ hnamed
    next =>
      obtain ⟨modifier, hmodifier, rfl⟩ := Option.map_eq_some_iff.mp hstep
      exact hnamed.union (named_of_parseModifierToken hmodifier)
  split at hm
  next => exact Option.some.inj hm ▸ hnamed
  next => cases hm

theorem named_of_parseModifierCombo (h : parseModifierCombo s = some m) : Named m := by
  unfold parseModifierCombo at h
  obtain ⟨found, hfound, hm⟩ := Option.bind_eq_some_iff.mp h
  have hnamed : Named found := by
    refine foldlM_invariant ?_ named_empty hfound
    intro found part found' hnamed hstep
    dsimp only at hstep
    split at hstep
    next => cases hstep
    next =>
      obtain ⟨modifier, hmodifier, rfl⟩ := Option.map_eq_some_iff.mp hstep
      exact hnamed.union (named_of_parseModifierToken hmodifier)
  split at hm
  next => cases hm
  next => exact Option.some.inj hm ▸ hnamed

/-- What the parser has found is named modifiers and a key without white space around it. -/
structure Found (found : KeyModifiers × Option Text) : Prop where
  named : Named found.1
  trimmed : ∀ key, found.2 = some key → ∃ part, key = trim part

theorem Found.addComboPart {found found' : KeyModifiers × Option Text} (h : Found found)
    (hstep : addComboPart found part = some found') : Found found' := by
  unfold Herden.Runtime.Config.addComboPart at hstep
  dsimp only at hstep
  split at hstep
  next => cases hstep
  next =>
    split at hstep
    next modifier hmodifier =>
      cases hstep
      exact ⟨h.named.union (named_of_parseModifierToken hmodifier), h.trimmed⟩
    next =>
      split at hstep
      next => cases hstep
      next =>
        cases hstep
        exact ⟨h.named, fun key hkey => ⟨part, (Option.some.inj hkey).symm⟩⟩

/-- A character that trimming leaves is not white space. -/
theorem isWhitespace_of_trim (h : trim text = [c]) : isWhitespace c = false := by
  have hne : trim text ≠ [] := by simp [h]
  have hlast : ¬ isWhitespace ((trim text).getLast hne) = true := List.rdropWhile_last_not _ _ hne
  simp only [h, List.getLast_singleton] at hlast
  exact Bool.eq_false_iff.mpr hlast

theorem isUpper_toLower (h : c.isUpper = true) :
    c.toLower.isUpper = false ∧ isWhitespace c.toLower = false := by
  have hrange : 65 ≤ c.toNat ∧ c.toNat ≤ 90 := by
    simpa [Char.isUpper, UInt32.le_iff_toNat_le] using h
  rw [← Char.ofNat_toNat c]
  obtain ⟨hlow, hhigh⟩ := hrange
  generalize c.toNat = n at hlow hhigh ⊢
  interval_cases n <;> decide

theorem readableKey_char (hspace : isWhitespace c = false) (hsmall : c.isUpper = false) :
    readableKey (.char c) = true := by
  show ((decide (c = ' ') || !isWhitespace c) && !c.isUpper) = true
  rw [hspace, hsmall, Bool.not_false, Bool.or_true, Bool.and_self]

theorem readable_of_parseKeyCode (hkey : key = trim part) (hm : Named m)
    (h : parseKeyCode key m = some combo) : Named combo.2 ∧ readableKey combo.1 = true := by
  unfold parseKeyCode at h
  dsimp only at h
  split at h
  next =>
    split at h
    next =>
      cases h
      exact ⟨hm.difference_shift, rfl⟩
    next =>
      cases h
      exact ⟨hm, rfl⟩
  next =>
    split at h
    next code hcode =>
      cases h
      exact ⟨hm, readableKey_of_lookup hcode⟩
    next =>
      split at h
      next c _ _ =>
        have hspace := isWhitespace_of_trim hkey.symm
        split at h
        next hupper =>
          cases h
          obtain ⟨hsmall, hlower⟩ := isUpper_toLower hupper
          exact ⟨hm.union (by decide), readableKey_char hlower hsmall⟩
        next hsmall =>
          cases h
          exact ⟨hm, readableKey_char hspace (Bool.eq_false_iff.mpr hsmall)⟩
      next =>
        obtain ⟨n, -, rfl⟩ := Option.map_eq_some_iff.mp h
        exact ⟨hm, rfl⟩
      next => cases h

theorem readable_normalizeKeyCombo (hnamed : Named combo.2) (hkey : readableKey combo.1 = true) :
    Readable (normalizeKeyCombo combo) := by
  refine ⟨normalizeKeyCombo_normalized combo, ?_, ?_⟩
  · rcases normalizeKeyCombo_cases combo with h | ⟨-, h⟩ | ⟨-, h⟩
    · rw [h]
      exact hnamed
    · rw [h]
      exact hnamed.difference_shift
    · rw [h]
      exact hnamed.difference_shift
  · rcases normalizeKeyCombo_cases combo with h | ⟨-, h⟩ | ⟨-, h⟩
    · rw [h]
      exact hkey
    · rw [h]
      rfl
    · rw [h]
      rfl

/-- The parser makes readable combinations. -/
theorem readable_of_parseKeyCombo (h : parseKeyCombo s = some combo) : Readable combo := by
  unfold parseKeyCombo at h
  dsimp only at h
  split at h
  next =>
    cases h
    exact ⟨normalizeKeyCombo_char _ _, rfl, rfl⟩
  next =>
    split at h
    next =>
      obtain ⟨m, hm, rfl⟩ := Option.map_eq_some_iff.mp h
      exact ⟨normalizeKeyCombo_char _ _, named_of_parseModifierCombo hm, rfl⟩
    next =>
      obtain ⟨⟨m, key?⟩, hfound, h⟩ := Option.bind_eq_some_iff.mp h
      obtain ⟨key, hkey, h⟩ := Option.bind_eq_some_iff.mp h
      obtain ⟨read, hread, h⟩ := Option.bind_eq_some_iff.mp h
      cases h
      have hall : Found (m, key?) :=
        foldlM_invariant Found.addComboPart ⟨named_empty, by simp⟩ hfound
      obtain ⟨part, hpart⟩ := hall.trimmed key hkey
      obtain ⟨hnamed, hreadable⟩ := readable_of_parseKeyCode hpart hall.named hread
      exact readable_normalizeKeyCombo hnamed hreadable

/-! ### The parts of a label -/

/-- A label has no white space. -/
def Solid (text : Text) : Prop := ∀ c ∈ text, isWhitespace c = false

theorem solid_of_all (h : text.all (fun c => !isWhitespace c) = true) : Solid text := fun c hc => by
  simpa using List.all_eq_true.mp h c hc

theorem trim_of_solid (h : Solid text) : trim text = text := by
  have hdrop : text.dropWhile isWhitespace = text := by
    cases text with
    | nil => rfl
    | cons c rest => rw [List.dropWhile_cons_of_neg (by simp [h c List.mem_cons_self])]
  unfold trim
  rw [hdrop, List.rdropWhile_eq_self_iff]
  intro hne
  simp [h _ (List.getLast_mem hne)]

/-- A part of a label. -/
structure Part (part : Text) : Prop where
  solid : Solid part
  noPlus : '+' ∉ part

theorem solid_intercalate (h : ∀ part ∈ parts, Part part) : Solid (['+'].intercalate parts) := by
  intro c hc
  rcases mem_of_mem_intercalate hc with hplus | ⟨part, hpart, hmem⟩
  · rw [List.mem_singleton.mp hplus]
    rfl
  · exact (h part hpart).solid c hmem

theorem splitOn_parts (h : ∀ part ∈ parts, Part part) (hne : parts ≠ []) :
    (['+'].intercalate parts).splitOn '+' = parts :=
  List.splitOn_intercalate '+' (fun part hpart => (h part hpart).noPlus) hne

/-- Each entry has a name that the parser reads as its modifier. -/
def Tokens (entries : List (KeyModifiers × String)) : Prop :=
  ∀ entry ∈ entries, Part entry.2.toList ∧ parseModifierToken entry.2.toList = some entry.1

theorem parseModifierToken_nil : parseModifierToken [] = none := by decide

theorem ne_nil_of_token (h : parseModifierToken token = some m) : token ≠ [] := fun hnil => by
  rw [hnil, parseModifierToken_nil] at h
  cases h

def united (modifiers : KeyModifiers) (entries : List (KeyModifiers × String)) : KeyModifiers :=
  entries.foldl (fun modifiers entry => modifiers.union entry.1) modifiers

def names (entries : List (KeyModifiers × String)) : List Text :=
  entries.map fun entry => entry.2.toList

theorem foldlM_addComboPart (h : Tokens entries) (modifiers : KeyModifiers) (key : Option Text) :
    (names entries).foldlM addComboPart (modifiers, key)
      = some (united modifiers entries, key) := by
  induction entries generalizing modifiers with
  | nil => rfl
  | cons entry rest ih =>
    obtain ⟨⟨hpart, htoken⟩, hrest⟩ := List.forall_mem_cons.mp h
    have hstep : addComboPart (modifiers, key) entry.2.toList
        = some (modifiers.union entry.1, key) := by
      unfold addComboPart
      dsimp only
      rw [trim_of_solid hpart.solid,
        Bool.eq_false_iff.mpr (mt List.isEmpty_iff.mp (ne_nil_of_token htoken)), htoken]
      rfl
    show List.foldlM addComboPart (modifiers, key) (entry.2.toList :: names rest) = _
    rw [List.foldlM_cons, hstep]
    exact ih hrest _

/-- A part that is no modifier is the key. -/
theorem parseKeyCombo_parts (h : Tokens entries) (hkey : Part key) (hne : key ≠ [])
    (htoken : parseModifierToken key = none) :
    parseKeyCombo (['+'].intercalate (names entries ++ [key]))
      = (parseKeyCode key (united .empty entries)).map normalizeKeyCombo := by
  have hparts : ∀ part ∈ names entries ++ [key], Part part := by
    rw [List.forall_mem_append, List.forall_mem_singleton]
    exact ⟨List.forall_mem_map.mpr fun entry hentry => (h entry hentry).1, hkey⟩
  have hlast : (['+'].intercalate (names entries ++ [key])).getLast? = key.getLast? := by
    by_cases hnames : names entries = []
    · rw [hnames, List.nil_append, List.intercalate_singleton]
    · rw [intercalate_concat _ hnames, List.getLast?_append_of_ne_nil _ hne]
  have hplus : (['+'].intercalate (names entries ++ [key])).getLast? ≠ some '+' := by
    rw [hlast]
    exact fun hmem => hkey.noPlus (List.mem_of_getLast? hmem)
  have hstep : addComboPart (united .empty entries, none) key
      = some (united .empty entries, some key) := by
    unfold addComboPart
    dsimp only
    rw [trim_of_solid hkey.solid, Bool.eq_false_iff.mpr (mt List.isEmpty_iff.mp hne), htoken]
    rfl
  have hone : ['+'].intercalate (names entries ++ [key]) ≠ ['+'] := fun heq =>
    hplus (by rw [heq]; rfl)
  have htwo : ¬ ['+', '+'].isSuffixOf (['+'].intercalate (names entries ++ [key])) = true := by
    intro hsuffix
    obtain ⟨front, hfront⟩ := List.isSuffixOf_iff_suffix.mp hsuffix
    exact hplus (by rw [← hfront]; simp)
  unfold parseKeyCombo
  rw [trim_of_solid (solid_intercalate hparts), if_neg hone, if_neg htwo,
    splitOn_parts hparts (by simp), List.foldlM_append, foldlM_addComboPart h]
  simp only [Option.bind_eq_bind, Option.bind_some, List.foldlM_cons, List.foldlM_nil, hstep]
  rw [Option.map_eq_bind]
  rfl

theorem parseModifierCombo_names (h : Tokens entries) (hne : entries ≠ [])
    (hunited : (united .empty entries).isEmpty = false) :
    parseModifierCombo (['+'].intercalate (names entries)) = some (united .empty entries) := by
  have hparts : ∀ part ∈ names entries, Part part :=
    List.forall_mem_map.mpr fun entry hentry => (h entry hentry).1
  have hfold : ∀ modifiers, (names entries).foldlM (fun (modifiers : KeyModifiers) part =>
      let trimmed := trim part
      if trimmed.isEmpty then none
      else (parseModifierToken trimmed).map modifiers.union) modifiers
        = some (united modifiers entries) := by
    clear hne hunited hparts
    induction entries with
    | nil => exact fun _ => rfl
    | cons entry rest ih =>
      intro modifiers
      obtain ⟨⟨hpart, htoken⟩, hrest⟩ := List.forall_mem_cons.mp h
      show List.foldlM _ modifiers (entry.2.toList :: names rest) = _
      rw [List.foldlM_cons]
      dsimp only
      rw [trim_of_solid hpart.solid,
        Bool.eq_false_iff.mpr (mt List.isEmpty_iff.mp (ne_nil_of_token htoken)), htoken]
      exact ih hrest _
  unfold parseModifierCombo
  rw [splitOn_parts hparts (by simpa [names] using hne), hfold]
  simp only [Option.bind_some, hunited, Bool.false_eq_true, if_false]

/-- A plus sign is the key after the separator. -/
theorem parseKeyCombo_plus (h : Tokens entries)
    (hunited : entries ≠ [] → (united .empty entries).isEmpty = false) :
    parseKeyCombo (['+'].intercalate (names entries ++ [['+']]))
      = some (.char '+', united .empty entries) := by
  by_cases hempty : entries = []
  · subst hempty
    decide
  · have hnames : names entries ≠ [] := by simpa [names] using hempty
    have hlabel : ['+'].intercalate (names entries ++ [['+']])
        = ['+'].intercalate (names entries) ++ ['+', '+'] := by
      rw [intercalate_concat _ hnames, List.append_assoc]
      rfl
    have hparts : ∀ part ∈ names entries, Part part :=
      List.forall_mem_map.mpr fun entry hentry => (h entry hentry).1
    have hsolid : Solid (['+'].intercalate (names entries) ++ ['+', '+']) := by
      intro c hc
      rcases List.mem_append.mp hc with hfront | hplus
      · exact solid_intercalate hparts c hfront
      · simp only [List.mem_cons, List.not_mem_nil, or_false, or_self] at hplus
        rw [hplus]
        rfl
    have hone : ['+'].intercalate (names entries) ++ ['+', '+'] ≠ ['+'] := fun heq => by
      have hlength := congrArg List.length heq
      simp at hlength
    have hcombo := parseModifierCombo_names h hempty (hunited hempty)
    rw [hlabel]
    unfold parseKeyCombo
    rw [trim_of_solid hsolid, if_neg hone, if_pos (List.isSuffixOf_iff_suffix.mpr
      (List.suffix_append _ _)), List.length_append]
    simp only [List.length_cons, List.length_nil, Nat.add_sub_cancel, List.take_left', hcombo,
      Option.map_some]

/-! ### What a label is not -/

theorem foldlM_eq_none {σ α : Type} {step : σ → α → Option σ} {item : α}
    (hitem : ∀ s, step s item = none) {items : List α} (h : item ∈ items) (s : σ) :
    items.foldlM step s = none := by
  induction items generalizing s with
  | nil => cases h
  | cons first rest ih =>
    rw [List.foldlM_cons]
    rcases List.mem_cons.mp h with rfl | hrest
    · rw [hitem]
      rfl
    · cases step s first with
      | none => rfl
      | some next => exact ih hrest next

/-- A range has no other part than modifiers and the range. -/
theorem parseRangeModifiers_parts (h : ∀ part ∈ parts, Part part) (hpart : part ∈ parts)
    (hrange : part ≠ "1..9".toList) (htoken : parseModifierToken part = none) :
    parseRangeModifiers (['+'].intercalate parts) = none := by
  unfold parseRangeModifiers
  rw [splitOn_parts h (List.ne_nil_of_mem hpart)]
  dsimp only
  rw [foldlM_eq_none (fun found => ?_) hpart]
  · rfl
  · rw [trim_of_solid (h part hpart).solid, if_neg hrange, htoken]
    rfl

/-- No label of a direct binding begins with the word for the prefix. -/
theorem afterPrefix_parts (h : ∀ part ∈ parts, Part part)
    (hfirst : ∀ second rest, parts ≠ "prefix".toList :: second :: rest) :
    afterPrefix "prefix+".toList (['+'].intercalate parts) = none := by
  unfold afterPrefix
  rw [if_neg]
  intro hinitial
  obtain ⟨rest, hrest⟩ := List.isPrefixOf_iff_prefix.mp hinitial
  have hsplit : (['+'].intercalate parts).splitOn '+' = "prefix".toList :: rest.splitOn '+' := by
    have hword : '+' ∉ "prefix".toList := by decide
    rw [← hrest]
    exact List.splitOn_append_cons_self_of_not_mem hword rest
  have hne : parts ≠ [] := by
    rintro rfl
    exact absurd (congrArg List.length hrest) (by simp)
  rw [splitOn_parts h hne] at hsplit
  cases hmore : rest.splitOn '+' with
  | nil => exact List.splitOn_ne_nil _ _ hmore
  | cons second more =>
    rw [hmore] at hsplit
    exact hfirst second more hsplit

/-! ### Labels of combinations -/

/-- The names in the label of modifiers. -/
def shown (macos : Bool) (modifiers : KeyModifiers) : List (KeyModifiers × String) :=
  (modifierLabels macos).filter fun label => modifiers.contains label.1

theorem tokens_shown (macos : Bool) (h : Named modifiers) : Tokens (shown macos modifiers) := by
  have hmeta : modifiers.contains .meta = false := by
    obtain ⟨bits⟩ := modifiers
    revert bits
    decide +kernel
  have hlabels : ((modifierLabels macos).filter fun label => label.1 ≠ .meta).all (fun entry =>
      entry.2.toList.all (fun c => !isWhitespace c) && !entry.2.toList.contains '+'
        && (parseModifierToken entry.2.toList = some entry.1 : Bool)) = true := by
    revert macos
    decide
  intro entry hentry
  obtain ⟨hmem, hcontains⟩ := List.mem_filter.mp hentry
  have hne : entry.1 ≠ .meta := fun heq => by
    rw [heq, hmeta] at hcontains
    cases hcontains
  have hentry := List.all_eq_true.mp hlabels entry
    (List.mem_filter.mpr ⟨hmem, decide_eq_true hne⟩)
  simp only [Bool.and_eq_true, decide_eq_true_eq, Bool.not_eq_true'] at hentry
  obtain ⟨⟨hsolid, hplus⟩, htoken⟩ := hentry
  exact ⟨⟨solid_of_all hsolid, by simpa using hplus⟩, htoken⟩

/-- Named modifiers are those that their label names. -/
theorem united_shown (macos : Bool) (h : Named modifiers) :
    united .empty (shown macos modifiers) = modifiers := by
  obtain ⟨bits⟩ := modifiers
  revert macos bits
  decide +kernel

theorem not_isEmpty_of_shown (h : shown macos modifiers ≠ []) : modifiers.isEmpty = false := by
  obtain ⟨bits⟩ := modifiers
  revert macos bits
  decide +kernel

theorem contains_shift_of_backTab
    (h : normalizeKeyCombo (.backTab, modifiers) = (.backTab, modifiers)) :
    modifiers.contains .shift = false := by
  have hmodifiers : modifiers.difference .shift = modifiers := congrArg Prod.snd h
  rw [← hmodifiers]
  exact KeyModifiers.contains_difference_shift modifiers

theorem contains_shift_of_tab (h : normalizeKeyCombo (.tab, modifiers) = (.tab, modifiers)) :
    modifiers.contains .shift = false := by
  cases hshift : modifiers.contains .shift with
  | false => rfl
  | true => simp [normalizeKeyCombo, hshift] at h

/-- A label is the names of the modifiers and the name of the key. -/
theorem formatKeyCombo_eq (macos : Bool) (h : Readable combo) : formatKeyCombo combo macos
      = ['+'].intercalate (names (shown macos combo.2) ++ [keyName combo.1]) := by
  obtain ⟨code, modifiers⟩ := combo
  have hfilter : ((modifierLabels macos).filter fun label =>
      modifiers.contains label.1 && !(label.1 = .shift && code = .backTab))
        = shown macos modifiers := by
    refine List.filter_congr fun label _ => ?_
    by_cases hback : code = .backTab
    · subst hback
      have hshift := contains_shift_of_backTab h.normal
      by_cases hlabel : label.1 = .shift
      · rw [hlabel, hshift, Bool.false_and]
      · simp [hlabel]
    · simp [hback]
  unfold formatKeyCombo
  dsimp only
  rw [hfilter]
  rfl

/-! ### Names of keys -/

/-- A name that is the key, and no modifier. -/
structure KeyPart (key : Text) : Prop where
  part : Part key
  ne_nil : key ≠ []
  notToken : parseModifierToken key = none
  notRange : key ≠ "1..9".toList

theorem parseKeyCode_named (htab : toLowercase key ≠ "tab".toList)
    (hlookup : namedKeys.lookup (String.ofList (toLowercase key)) = some code) (m : KeyModifiers) :
    parseKeyCode key m = some (code, m) := by
  unfold parseKeyCode
  dsimp only
  rw [if_neg htab, hlookup]

/-- A token has more than one character. -/
theorem parseModifierToken_singleton (c : Char) : parseModifierToken [c] = none := by
  unfold parseModifierToken
  rw [List.lookup_eq_none_iff]
  intro entry hentry
  have hlength : modifierTokens.all (fun entry => entry.1.toList.length ≠ 1) = true := by decide
  have hentry := of_decide_eq_true (List.all_eq_true.mp hlength entry hentry)
  rw [bne_iff_ne]
  intro heq
  exact hentry (by rw [← heq, String.toList_ofList]; rfl)

theorem toLowercase_ne_space (hspace : c ≠ ' ') (hsmall : c.isUpper = false) :
    toLowercase [c] ≠ [' '] := by
  show [if c = '\u212a' then 'k' else c.toLower] ≠ [' ']
  rw [toLower_of_isUpper_eq_false hsmall]
  split
  next => decide
  next => simpa using hspace

theorem parseKeyCode_char (hspace : c ≠ ' ') (hsmall : c.isUpper = false) (m : KeyModifiers) :
    parseKeyCode [c] m = some (.char c, m) := by
  have hlookup : namedKeys.lookup (String.ofList (toLowercase [c])) = none := by
    rw [List.lookup_eq_none_iff]
    intro entry hentry
    have hnames : namedKeys.all (fun entry =>
        entry.1.toList.length ≠ 1 || entry.1.toList = [' ']) = true := by decide
    have hentry := List.all_eq_true.mp hnames entry hentry
    rw [bne_iff_ne]
    intro heq
    rw [← heq, String.toList_ofList] at hentry
    simp only [Bool.or_eq_true, decide_eq_true_eq] at hentry
    rcases hentry with hlength | hblank
    · exact hlength rfl
    · exact toLowercase_ne_space hspace hsmall hblank
  have htab : toLowercase [c] ≠ "tab".toList := fun heq =>
    absurd (congrArg List.length heq) (by simp [toLowercase])
  unfold parseKeyCode
  dsimp only
  rw [if_neg htab, hlookup]
  dsimp only
  rw [if_neg (by rw [hsmall]; exact Bool.false_ne_true)]

theorem keyPart_char (hspace : isWhitespace c = false) (hplus : c ≠ '+') : KeyPart [c] where
  part := ⟨fun d hd => List.mem_singleton.mp hd ▸ hspace, fun hmem =>
    hplus (List.mem_singleton.mp hmem).symm⟩
  ne_nil := by simp
  notToken := parseModifierToken_singleton c
  notRange := fun heq => absurd (congrArg List.length heq) (by simp)

/-- The name of a function key is its letter and digits. -/
theorem keyName_f (n : UInt8) : keyName (.f n) = 'f' :: Nat.toDigits 10 n.toNat := by
  show 'f' :: (toString n.toNat).toList = _
  rw [Nat.toString_eq_repr, Nat.toList_repr]

theorem keyName_f_chars (n : UInt8) : ∀ c ∈ keyName (.f n),
    (isWhitespace c = false ∧ c ≠ '+') ∧ (if c = '\u212a' then 'k' else c.toLower) = c := by
  intro c hc
  rw [keyName_f] at hc
  rcases List.mem_cons.mp hc with rfl | hdigit
  · decide
  · exact IpAddr.forall_mem_toDigits (b := 10) (P := fun c =>
      (isWhitespace c = false ∧ c ≠ '+') ∧ (if c = '\u212a' then 'k' else c.toLower) = c)
      (by omega) (by decide) n.toNat c hdigit

theorem toLowercase_f (n : UInt8) : toLowercase (keyName (.f n)) = keyName (.f n) := by
  unfold toLowercase
  rw [List.map_congr_left fun c hc => (keyName_f_chars n c hc).2, List.map_id']

/-- No name in a table that has none with this letter. -/
theorem lookup_f {α : Type} {table : List (String × α)}
    (h : table.all (fun entry => entry.1.toList.head? ≠ some 'f') = true) (n : UInt8) :
    table.lookup (String.ofList (toLowercase (keyName (.f n)))) = none := by
  rw [toLowercase_f, List.lookup_eq_none_iff]
  intro entry hentry
  have hhead := of_decide_eq_true (List.all_eq_true.mp h entry hentry)
  rw [bne_iff_ne]
  intro heq
  exact hhead (by rw [← heq, String.toList_ofList]; rfl)

theorem parseU8_toDigits (n : UInt8) : parseU8 (Nat.toDigits 10 n.toNat) = some n := by
  have hdigits : ∀ c ∈ Nat.toDigits 10 n.toNat, c.isDigit = true := fun _ hc =>
    Nat.isDigit_of_mem_toDigits (by omega) (by omega) hc
  have hplus : (Nat.toDigits 10 n.toNat).head? ≠ some '+' := fun heq =>
    absurd (hdigits _ (List.mem_of_head? heq)) (by decide)
  have hempty : (Nat.toDigits 10 n.toNat).isEmpty = false :=
    Bool.eq_false_iff.mpr (mt List.isEmpty_iff.mp Nat.toDigits_ne_nil)
  have hvalue : (Nat.toDigits 10 n.toNat).foldl
      (fun value digit => value * 10 + (digit.toNat - '0'.toNat)) 0 = n.toNat :=
    (by simp only [Nat.mul_comm _ 10]; exact Nat.ofDigitChars_ten_toDigits)
  unfold parseU8
  rw [if_neg hplus]
  dsimp only
  rw [hempty, List.all_eq_true.mpr hdigits]
  simp only [Bool.not_true, Bool.or_false, Bool.false_eq_true, if_false]
  rw [hvalue, if_pos n.toNat_lt, UInt8.ofNat_toNat]

/-- The name of a function key is a letter and a number. -/
theorem keyPart_f (n : UInt8) : KeyPart (keyName (.f n)) where
  part := ⟨fun c hc => (keyName_f_chars n c hc).1.1, fun hmem =>
    (keyName_f_chars n _ hmem).1.2 rfl⟩
  ne_nil := List.cons_ne_nil _ _
  notToken := lookup_f (by decide) n
  notRange := fun heq => absurd (List.cons.inj heq).1 (by decide)

theorem parseKeyCode_f (n : UInt8) (m : KeyModifiers) :
    parseKeyCode (keyName (.f n)) m = some (.f n, m) := by
  have htab : toLowercase (keyName (.f n)) ≠ "tab".toList := fun heq => by
    rw [toLowercase_f] at heq
    exact absurd (List.cons.inj heq).1 (by decide)
  have hlookup : namedKeys.lookup (String.ofList (toLowercase (keyName (.f n)))) = none :=
    lookup_f (by decide) n
  unfold parseKeyCode
  dsimp only
  rw [if_neg htab, hlookup, toLowercase_f, keyName_f]
  cases hdigits : Nat.toDigits 10 n.toNat with
  | nil => exact absurd hdigits Nat.toDigits_ne_nil
  | cons digit rest =>
    show (parseU8 (digit :: rest)).map _ = _
    rw [← hdigits, parseU8_toDigits]
    rfl
theorem keyName_char (h : c ≠ ' ') : keyName (.char c) = [c] := by
  unfold keyName
  split
  next heq => exact absurd (KeyCode.char.inj heq) h
  next heq => rw [KeyCode.char.inj heq]
  all_goals
    next heq => cases heq

/-- A character key is not white space, but for the space. -/
theorem char_of_readable (h : readableKey (.char c) = true) (hspace : c ≠ ' ') :
    isWhitespace c = false ∧ c.isUpper = false := by
  change ((decide (c = ' ') || !isWhitespace c) && !c.isUpper) = true at h
  simpa [hspace] using h

/-- Every key but back tab and the plus sign is one part of its label. -/
theorem keyPart_keyName (h : readableKey code = true) (hback : code ≠ .backTab)
    (hplus : code ≠ .char '+') : KeyPart (keyName code) := by
  have hclosed : ∀ {key : Text}, (key.all (fun c => !isWhitespace c && c ≠ '+') && !key.isEmpty
      && (parseModifierToken key).isNone && key ≠ "1..9".toList) = true → KeyPart key := by
    intro key hkey
    simp only [Bool.and_eq_true, List.all_eq_true, decide_eq_true_eq, Bool.not_eq_true',
      Option.isNone_iff_eq_none] at hkey
    obtain ⟨⟨⟨hchars, hempty⟩, htoken⟩, hrange⟩ := hkey
    exact ⟨⟨fun c hc => (hchars c hc).1, fun hmem => (hchars _ hmem).2 rfl⟩,
      by simpa using hempty, htoken, hrange⟩
  cases code with
  | char c =>
    by_cases hspace : c = ' '
    · subst hspace
      exact hclosed (by decide)
    · rw [keyName_char hspace]
      exact keyPart_char (char_of_readable h hspace).1 fun heq => hplus (congrArg _ heq)
  | f n => exact keyPart_f n
  | enter | esc | tab | backspace | left | right | up | down => exact hclosed (by decide)
  | backTab => exact absurd rfl hback
  | _ => exact absurd h Bool.false_ne_true

/-- The name of a key is read as the key. -/
theorem parseKeyCode_keyName (h : readableKey code = true) (hback : code ≠ .backTab)
    (htab : code = .tab → m.contains .shift = false) :
    parseKeyCode (keyName code) m = some (code, m) := by
  cases code with
  | char c =>
    by_cases hspace : c = ' '
    · subst hspace
      exact parseKeyCode_named (by decide) (by decide) m
    · rw [keyName_char hspace]
      exact parseKeyCode_char hspace (char_of_readable h hspace).2 m
  | f n => exact parseKeyCode_f n m
  | tab =>
    unfold parseKeyCode
    dsimp only
    rw [if_pos (by decide), htab rfl]
    rfl
  | enter | esc | backspace | left | right | up | down =>
    exact parseKeyCode_named (by decide) (by decide) m
  | backTab => exact absurd rfl hback
  | _ => exact absurd h Bool.false_ne_true

/-! ### Labels are read back -/

theorem tokens_append_shift (h : Tokens entries) : Tokens (entries ++ [(.shift, "shift")]) := by
  unfold Tokens
  rw [List.forall_mem_append, List.forall_mem_singleton]
  exact ⟨h, ⟨solid_of_all (by decide), by decide⟩, by decide⟩

/-- A plus sign in the last part separates two parts. -/
theorem intercalate_pair (parts : List Text) (first second : Text) :
    ['+'].intercalate (parts ++ [first ++ '+' :: second])
      = ['+'].intercalate (parts ++ [first, second]) := by
  have hpair : parts ++ [first, second] = parts ++ [first] ++ [second] := by
    rw [List.append_assoc]
    rfl
  have hfirst : parts ++ [first] ≠ [] := List.append_ne_nil_of_right_ne_nil _ (by simp)
  rw [hpair, intercalate_concat _ hfirst]
  by_cases hempty : parts = []
  · subst hempty
    simp
  · rw [intercalate_concat _ hempty, intercalate_concat _ hempty]
    simp only [List.append_assoc, List.cons_append, List.nil_append]

theorem names_append_shift (entries : List (KeyModifiers × String)) :
    names entries ++ ["shift".toList, "tab".toList]
      = names (entries ++ [(.shift, "shift")]) ++ ["tab".toList] := by
  unfold names
  rw [List.map_append, List.append_assoc]
  rfl

theorem formatKeyCombo_backTab (macos : Bool) (h : Readable (.backTab, modifiers)) :
    formatKeyCombo (.backTab, modifiers) macos
      = ['+'].intercalate (names (shown macos modifiers ++ [(.shift, "shift")])
        ++ ["tab".toList]) := by
  rw [formatKeyCombo_eq macos h, ← names_append_shift, ← intercalate_pair]
  rfl

/-- The parts of a label, with one that is no modifier. -/
theorem label_parts (macos : Bool) (h : Readable combo) :
    ∃ parts, formatKeyCombo combo macos = ['+'].intercalate parts
      ∧ (∀ part ∈ parts, Part part)
      ∧ (∃ part ∈ parts, part ≠ "1..9".toList ∧ parseModifierToken part = none)
      ∧ ∀ second rest, parts ≠ "prefix".toList :: second :: rest := by
  have hnames : ∀ {entries}, Tokens entries → ∀ part ∈ names entries, Part part :=
    fun hentries => List.forall_mem_map.mpr fun entry hentry => (hentries entry hentry).1
  -- The word for the prefix is no modifier.
  have hfirst : ∀ {entries}, Tokens entries → ∀ {behind : List Text},
      (∀ second rest, behind ≠ "prefix".toList :: second :: rest) →
      ∀ second rest, names entries ++ behind ≠ "prefix".toList :: second :: rest := by
    intro entries hentries behind hbehind second rest heq
    cases entries with
    | nil => exact hbehind second rest heq
    | cons entry entries =>
      have htoken := (hentries entry List.mem_cons_self).2
      have hname : entry.2.toList = "prefix".toList := (List.cons.inj heq).1
      have hword : parseModifierToken "prefix".toList = none := by decide
      rw [hname, hword] at htoken
      cases htoken
  have htokens := tokens_shown macos h.named
  by_cases hback : combo.1 = .backTab
  · obtain ⟨code, modifiers⟩ := combo
    cases hback
    have hshift := tokens_append_shift htokens
    have htab : Part "tab".toList := ⟨solid_of_all (by decide), by decide⟩
    refine ⟨_, formatKeyCombo_backTab macos h, ?_, ⟨"tab".toList, ?_, by decide, by decide⟩,
      hfirst hshift (by simp)⟩
    · rw [List.forall_mem_append, List.forall_mem_singleton]
      exact ⟨hnames hshift, htab⟩
    · exact List.mem_append_right _ List.mem_cons_self
  · by_cases hplus : combo.1 = .char '+'
    · have hempty : Part [] := ⟨fun _ hmem => absurd hmem List.not_mem_nil, List.not_mem_nil⟩
      refine ⟨names (shown macos combo.2) ++ [[], []], ?_, ?_,
        ⟨[], ?_, by decide, parseModifierToken_nil⟩, hfirst htokens (by simp)⟩
      · rw [formatKeyCombo_eq macos h, hplus, ← intercalate_pair]
        rfl
      · rw [List.forall_mem_append, List.forall_mem_cons, List.forall_mem_singleton]
        exact ⟨hnames htokens, hempty, hempty⟩
      · exact List.mem_append_right _ List.mem_cons_self
    · obtain ⟨hpart, -, htoken, hrange⟩ := keyPart_keyName h.key hback hplus
      refine ⟨_, formatKeyCombo_eq macos h, ?_, ⟨_, ?_, hrange, htoken⟩, hfirst htokens (by simp)⟩
      · rw [List.forall_mem_append, List.forall_mem_singleton]
        exact ⟨hnames htokens, hpart⟩
      · exact List.mem_append_right _ List.mem_cons_self

theorem parseKeyCombo_formatKeyCombo (macos : Bool) (h : Readable combo) :
    parseKeyCombo (formatKeyCombo combo macos) = some combo := by
  have htokens := tokens_shown macos h.named
  have hunited := united_shown macos h.named
  by_cases hback : combo.1 = .backTab
  · obtain ⟨code, modifiers⟩ := combo
    cases hback
    have hshift := contains_shift_of_backTab h.normal
    have htab : parseKeyCode "tab".toList (modifiers.union .shift)
        = some (.backTab, modifiers) := by
      unfold parseKeyCode
      dsimp only
      rw [if_pos (by decide), if_pos (KeyModifiers.contains_union_shift modifiers),
        KeyModifiers.difference_union_shift hshift]
    rw [formatKeyCombo_backTab macos h, parseKeyCombo_parts (tokens_append_shift htokens)
      ⟨solid_of_all (by decide), by decide⟩ (by decide) (by decide)]
    unfold united at hunited ⊢
    rw [List.foldl_append, hunited]
    show (parseKeyCode "tab".toList (modifiers.union .shift)).map normalizeKeyCombo = _
    rw [htab]
    exact congrArg some h.normal
  rw [formatKeyCombo_eq macos h]
  by_cases hplus : combo.1 = .char '+'
  · have hmodifiers : shown macos combo.2 ≠ [] →
        (united .empty (shown macos combo.2)).isEmpty = false := fun hshown => by
      rw [hunited]
      exact not_isEmpty_of_shown hshown
    rw [hplus]
    show parseKeyCombo (['+'].intercalate (names (shown macos combo.2) ++ [['+']])) = _
    rw [parseKeyCombo_plus htokens hmodifiers, hunited, ← hplus]
  · obtain ⟨hpart, hne, htoken, -⟩ := keyPart_keyName h.key hback hplus
    have htab : combo.1 = .tab → combo.2.contains .shift = false := fun htab =>
      contains_shift_of_tab (by rw [← htab]; exact h.normal)
    rw [parseKeyCombo_parts htokens hpart hne htoken, hunited,
      parseKeyCode_keyName h.key hback htab]
    exact congrArg some h.normal

/-- The label of a readable combination is a binding string of its own. -/
theorem parseBindingString_label (macos triggerPrefix : Bool) (h : Readable combo) :
    parseBindingString (resolvedBinding triggerPrefix combo macos).label macos
      = some (.single (resolvedBinding triggerPrefix combo macos)) := by
  obtain ⟨parts, hlabel, hparts, ⟨part, hpart, hrange, htoken⟩, hfirst⟩ := label_parts macos h
  have hsolid : Solid (formatKeyCombo combo macos) := hlabel ▸ solid_intercalate hparts
  have hnoRange : parseRangeModifiers (formatKeyCombo combo macos) = none :=
    hlabel ▸ parseRangeModifiers_parts hparts hpart hrange htoken
  have hread := parseKeyCombo_formatKeyCombo macos h
  unfold parseBindingString
  cases triggerPrefix with
  | false =>
    have hnoPrefix : afterPrefix "prefix+".toList (formatKeyCombo combo macos) = none :=
      hlabel ▸ afterPrefix_parts hparts hfirst
    have htext : (resolvedBinding false combo macos).label = formatKeyCombo combo macos := rfl
    rw [htext, trim_of_solid hsolid]
    dsimp only
    rw [hnoPrefix]
    dsimp only
    rw [hnoRange, hread]
    rfl
  | true =>
    have hword : Solid ("prefix+".toList ++ formatKeyCombo combo macos) := by
      intro c hc
      rcases List.mem_append.mp hc with hmem | hmem
      · exact solid_of_all (by decide) c hmem
      · exact hsolid c hmem
    have htext : (resolvedBinding true combo macos).label
        = "prefix+".toList ++ formatKeyCombo combo macos := rfl
    rw [htext, trim_of_solid hword]
    dsimp only
    rw [afterPrefix_append]
    dsimp only
    rw [hnoRange, hread]
    rfl

/-- The bindings that a binding string stands for. -/
def bindingsOf : ParsedBinding → List ResolvedBinding
  | .single binding => [binding]
  | .range bindings => bindings

/-- Each binding of a binding string is that of a readable combination. -/
theorem exists_combo_of_parseBindingString {raw : Text} {parsed : ParsedBinding}
    (h : parseBindingString raw macos = some parsed) {binding : ResolvedBinding}
    (hbinding : binding ∈ bindingsOf parsed) : ∃ triggerPrefix combo, Readable combo
      ∧ binding = resolvedBinding triggerPrefix combo macos := by
  unfold parseBindingString at h
  dsimp only at h
  split at h
  next modifiers hmodifiers =>
    cases h
    obtain ⟨digit, hdigit, rfl⟩ := List.mem_map.mp hbinding
    have hdigits : indexDigits.all (fun digit => readableKey (.char digit)) = true := by decide
    exact ⟨_, _, ⟨normalizeKeyCombo_char _ _, named_of_parseRangeModifiers hmodifiers,
      List.all_eq_true.mp hdigits digit hdigit⟩, rfl⟩
  next =>
    obtain ⟨combo, hcombo, rfl⟩ := Option.map_eq_some_iff.mp h
    exact ⟨_, combo, readable_of_parseKeyCombo hcombo, List.mem_singleton.mp hbinding⟩

/-- Labels that are read back one by one are read back together. -/
theorem fromLabels_labels {bindings : List ResolvedBinding}
    (h : ∀ binding ∈ bindings, parseBindingString binding.label macos = some (.single binding)) :
    fromLabels (bindings.map (·.label)) macos = .ok bindings := by
  unfold fromLabels
  induction bindings using List.reverseRecOn with
  | nil => rfl
  | append_singleton front binding ih =>
    rw [List.forall_mem_append, List.forall_mem_singleton] at h
    rw [List.map_append, List.foldlM_append, ih h.1, List.map_singleton]
    simp only [bind, Except.bind, List.foldlM_cons, List.foldlM_nil, h.2]
    rfl

/-- Each binding of a binding string has a label that is read as that binding alone, with the same
trigger and the same label. -/
theorem labels_parse_back {raw : Text} {macos : Bool} {parsed : ParsedBinding}
    (h : parseBindingString raw macos = some parsed) :
    (∀ binding ∈ bindingsOf parsed,
        parseBindingString binding.label macos = some (.single binding))
      ∧ fromLabels ((bindingsOf parsed).map (·.label)) macos = .ok (bindingsOf parsed) := by
  have hlabels : ∀ binding ∈ bindingsOf parsed,
      parseBindingString binding.label macos = some (.single binding) := by
    intro binding hbinding
    obtain ⟨triggerPrefix, combo, hcombo, rfl⟩ := exists_combo_of_parseBindingString h hbinding
    exact parseBindingString_label macos triggerPrefix hcombo
  exact ⟨hlabels, fromLabels_labels hlabels⟩

/-- `prefix+Shift + command+TAB` on a Mac. -/
theorem labels_parse_back_backTab :
    bindingsOf (.single (resolvedBinding true (.backTab, .super) true))
        = [⟨.prefixed (.backTab, .super), "prefix+cmd+shift+tab".toList⟩]
      ∧ parseBindingString "prefix+cmd+shift+tab".toList true
        = some (.single ⟨.prefixed (.backTab, .super), "prefix+cmd+shift+tab".toList⟩) := by
  have hraw : parseBindingString " prefix+Shift + command+TAB".toList true
      = some (.single (resolvedBinding true (.backTab, .super) true)) := by decide +kernel
  exact ⟨by decide +kernel, (labels_parse_back hraw).1
    (resolvedBinding true (.backTab, .super) true) (List.mem_singleton.mpr rfl)⟩

end Herden.Proofs.Config
