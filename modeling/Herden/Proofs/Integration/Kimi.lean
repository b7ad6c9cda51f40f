import Herden.Runtime.Integration.TomlEdit

/-!
# `Herden.Proofs.Integration.Kimi`: the Kimi edit

`removeKimiConfigBlock` keeps the lines outside of blocks (`outside`), which are the lines without
the blocks when each begin marker has an end marker behind it (`WithoutBlocks`). The block that
`buildKimiConfigWithHooks` writes is one block, whatever the path of the hook (`outside_block`), and
no begin marker stands in front of it. So removing what was built gives the lines from before, and
building again gives the same block behind the same lines.
-/

namespace Herden.Proofs.Integration.Kimi

open Herden.Lib
open Herden.Lib.Text
open Herden.Runtime.Integration
open Herden.Runtime.Integration.TomlEdit

/-! ### Lines outside of blocks -/

def isBegin (line : Text) : Bool := trim line = kimiConfigBlockBegin

def isEnd (line : Text) : Bool := trim line = kimiConfigBlockEnd

/-- The lines that the loop keeps, in a block or not. -/
def outside : Bool → List Text → List Text
  | _, [] => []
  | inBlock, line :: rest =>
      if isBegin line then outside true rest
      else if inBlock then outside (!isEnd line) rest
      else line :: outside false rest

theorem foldl_read (removal : Removal) (lines : List Text) :
    (lines.foldl Removal.read removal).lines = removal.lines ++ outside removal.inBlock lines
      ∧ (lines.foldl Removal.read removal).removedBlock
        = (removal.removedBlock || lines.any isBegin) := by
  have hmarkers : kimiConfigBlockEnd ≠ kimiConfigBlockBegin := by decide
  induction lines generalizing removal with
  | nil => simp [outside]
  | cons line rest ih =>
    obtain ⟨hlines, hremoved⟩ := ih (removal.read line)
    rw [List.foldl_cons, hlines, hremoved, outside, List.any_cons]
    unfold Removal.read isBegin isEnd
    by_cases hbegin : trim line = kimiConfigBlockBegin
    · simp [hbegin]
    · cases hin : removal.inBlock with
      | true =>
        by_cases hend : trim line = kimiConfigBlockEnd
        · simp [hend, hmarkers]
        · simp [hbegin, hend, hin]
      | false => simp [hbegin]

theorem removeKimiConfigBlock_eq (content : Text) :
    removeKimiConfigBlock content =
      if (lines content).any isBegin then
        let result := popNewlines
          (joinTomlLines (outside false (lines content)) (endsWithNewline content))
        if result = ['\n'] then [] else result
      else content := by
  obtain ⟨hlines, hremoved⟩ := foldl_read ⟨[], false, false⟩ (lines content)
  unfold removeKimiConfigBlock
  dsimp only
  rw [hlines, hremoved]
  cases (lines content).any isBegin with
  | true => rfl
  | false => rfl

theorem outside_sublist (inBlock : Bool) (lines : List Text) :
    (outside inBlock lines).Sublist lines := by
  induction lines generalizing inBlock with
  | nil => exact List.Sublist.refl _
  | cons line rest ih =>
    rw [outside]
    split
    next => exact (ih true).cons line
    next =>
      split
      next => exact (ih _).cons line
      next => exact (ih false).cons_cons line

theorem isBegin_of_mem_outside {inBlock : Bool} {lines : List Text} :
    ∀ line ∈ outside inBlock lines, isBegin line = false := by
  induction lines generalizing inBlock with
  | nil => simp [outside]
  | cons line rest ih =>
    rw [outside]
    split
    next => exact ih
    next hbegin =>
      split
      next => exact ih
      next => exact List.forall_mem_cons.mpr ⟨Bool.eq_false_iff.mpr hbegin, ih⟩

/-- Without a begin marker all lines are outside. -/
theorem outside_append {front : List Text} (h : ∀ line ∈ front, isBegin line = false)
    (rest : List Text) : outside false (front ++ rest) = front ++ outside false rest := by
  induction front with
  | nil => rfl
  | cons line front ih =>
    obtain ⟨hline, hfront⟩ := List.forall_mem_cons.mp h
    rw [List.cons_append, outside, hline]
    exact congrArg (line :: ·) (ih hfront)

/-! ### Delimited blocks -/

/-- What is left of lines without the blocks from a begin marker to the next end marker. There is no
rule for a begin marker without an end marker behind it. -/
inductive WithoutBlocks : List Text → List Text → Prop where
  | nil : WithoutBlocks [] []
  | line {line : Text} {rest kept : List Text} (hline : isBegin line = false)
      (hrest : WithoutBlocks rest kept) : WithoutBlocks (line :: rest) (line :: kept)
  | block {first last : Text} {inner rest kept : List Text} (hfirst : isBegin first = true)
      (hinner : ∀ line ∈ inner, isEnd line = false) (hlast : isEnd last = true)
      (hrest : WithoutBlocks rest kept) : WithoutBlocks (first :: (inner ++ last :: rest)) kept

/-- Each begin marker has an end marker behind it. -/
def Terminated (lines : List Text) : Prop :=
  ∀ front line rest, lines = front ++ line :: rest → isBegin line = true →
    ∃ last ∈ rest, isEnd last = true

theorem Terminated.behind {front rest : List Text} (h : Terminated (front ++ rest)) :
    Terminated rest := fun inner line more hrest =>
  h (front ++ inner) line more (by rw [hrest, List.append_assoc])

/-- The part up to the first line that satisfies a test. -/
theorem exists_first {p : Text → Bool} {lines : List Text} (h : ∃ line ∈ lines, p line = true) :
    ∃ inner last rest, lines = inner ++ last :: rest ∧ (∀ line ∈ inner, p line = false)
      ∧ p last = true := by
  obtain ⟨place, hplace⟩ := Option.isSome_iff_exists.mp (List.findIdx?_isSome.trans
    (List.any_eq_true.mpr h))
  obtain ⟨inner, last, rest, hsplit, -, hlast, hinner⟩ := findIdx?_spec hplace
  exact ⟨inner, last, rest, hsplit, hinner, hlast⟩

theorem Terminated.withoutBlocks {lines : List Text} (h : Terminated lines) :
    ∃ kept, WithoutBlocks lines kept := by
  induction hlength : lines.length using Nat.strongRecOn generalizing lines with
  | ind length ih =>
    subst hlength
    cases lines with
    | nil => exact ⟨[], .nil⟩
    | cons line rest =>
      cases hline : isBegin line with
      | false =>
        have hrest : Terminated rest := @Terminated.behind [line] rest h
        obtain ⟨kept, hkept⟩ := ih rest.length (by simp) hrest rfl
        exact ⟨line :: kept, .line hline hkept⟩
      | true =>
        obtain ⟨inner, last, more, rfl, hinner, hlast⟩ := exists_first (h [] line rest rfl hline)
        have hmore : Terminated more := by
          refine @Terminated.behind (line :: (inner ++ [last])) more ?_
          simpa using h
        obtain ⟨kept, hkept⟩ := ih more.length (by simp; omega) hmore rfl
        exact ⟨kept, .block hline hinner hlast hkept⟩

theorem isBegin_of_isEnd {line : Text} (h : isEnd line = true) : isBegin line = false := by
  have hmarkers : kimiConfigBlockEnd ≠ kimiConfigBlockBegin := by decide
  unfold isBegin
  rw [of_decide_eq_true h]
  exact decide_eq_false hmarkers

/-- In a block nothing is kept up to the end marker. -/
theorem outside_block_append {inner : List Text} (hinner : ∀ line ∈ inner, isEnd line = false)
    {last : Text} (hlast : isEnd last = true) (rest : List Text) :
    outside true (inner ++ last :: rest) = outside false rest := by
  induction inner with
  | nil =>
    rw [List.nil_append, outside, isBegin_of_isEnd hlast, hlast]
    rfl
  | cons line inner ih =>
    obtain ⟨hline, hmore⟩ := List.forall_mem_cons.mp hinner
    rw [List.cons_append, outside, hline]
    simp only [if_true, Bool.not_false, ite_self]
    exact ih hmore

/-- The loop keeps the lines outside of delimited blocks. -/
theorem WithoutBlocks.outside_eq {lines kept : List Text} (h : WithoutBlocks lines kept) :
    outside false lines = kept := by
  induction h with
  | nil => rfl
  | line hline _ ih =>
    rw [outside, hline]
    exact congrArg (_ :: ·) ih
  | block hfirst hinner hlast _ ih =>
    rw [outside, if_pos hfirst, outside_block_append hinner hlast, ih]

/-! ### What removal leaves -/

theorem isBegin_bare (line : Text) : isBegin (bare line) = isBegin line := by
  unfold isBegin
  rw [trim_bare]

/-- Popping leaves one line feed at the end of those there are. -/
theorem popNewlines_cases (text : Text) :
    popNewlines text = text
      ∨ popNewlines text = text.rdropWhile (· = '\n') ++ ['\n'] := by
  unfold popNewlines
  split
  next rest hreverse =>
    right
    have htext : text = rest.reverse ++ ['\n'] ++ ['\n'] := by
      rw [← List.reverse_reverse text, hreverse]
      simp
    rw [htext, List.rdropWhile_concat_pos _ _ _ (by simp),
      List.rdropWhile_concat_pos _ _ _ (by simp)]
    simp [List.rdropWhile]
  next => exact .inl rfl

theorem settledLines_popNewlines (text : Text) :
    settledLines (popNewlines text) = settledLines text := by
  rcases popNewlines_cases text with hpop | hpop
  · rw [hpop]
  · rw [hpop, settledLines_append_newline, settledLines_rdropWhile]

theorem rdropWhile_popNewlines (text : Text) :
    (popNewlines text).rdropWhile (· = '\n') = text.rdropWhile (· = '\n') := by
  rcases popNewlines_cases text with hpop | hpop
  · rw [hpop]
  · rw [hpop, List.rdropWhile_concat_pos _ _ _ (by simp), List.rdropWhile_idempotent]

variable {c : Char} {content : Text}

theorem not_mem_popNewlines {text : Text} (hc : c ≠ '\n') (h : c ∉ text) :
    c ∉ popNewlines text := by
  rcases popNewlines_cases text with hpop | hpop
  · rw [hpop]
    exact h
  · rw [hpop, List.mem_append, List.mem_singleton, not_or]
    exact ⟨fun hmem => h ((List.rdropWhile_prefix _ _).subset hmem), hc⟩

theorem any_isBegin_eq_false_iff {lines : List Text} :
    lines.any isBegin = false ↔ ∀ line ∈ lines, isBegin line = false := by
  rw [List.any_eq_false]
  exact forall₂_congr fun line _ => Iff.of_eq (Bool.not_eq_true _)

/-- The lines that removal leaves. -/
theorem settledLines_removeKimiConfigBlock (content : Text) :
    settledLines (removeKimiConfigBlock content)
      = dropBlank ((outside false (lines content)).map bare) := by
  have hlines : ∀ line ∈ outside false (lines content), '\n' ∉ line := fun line hline =>
    not_mem_lines ((outside_sublist false _).subset hline)
  have hjoined : settledLines (popNewlines
      (joinTomlLines (outside false (lines content)) (endsWithNewline content)))
        = dropBlank ((outside false (lines content)).map bare) :=
    (settledLines_popNewlines _).trans (settledLines_joinLines hlines _)
  rw [removeKimiConfigBlock_eq]
  split
  next =>
    dsimp only
    split
    next hnewline =>
      rw [hnewline] at hjoined
      exact hjoined
    next => exact hjoined
  next hnone =>
    have houtside := outside_append (any_isBegin_eq_false_iff.mp (Bool.eq_false_iff.mpr hnone)) []
    rw [List.append_nil] at houtside
    rw [houtside, outside, List.append_nil]
    rfl

/-- No begin marker is left. -/
theorem isBegin_of_settled {text : Text} (content : Text)
    (h : settledLines text = settledLines (removeKimiConfigBlock content)) :
    ∀ line ∈ (text.splitOn '\n').map stripReturn, isBegin line = false := by
  intro line hline
  obtain ⟨piece, hpiece, rfl⟩ := List.mem_map.mp hline
  rw [settledLines_eq, settledLines_removeKimiConfigBlock] at h
  rw [← isBegin_bare, bare_stripReturn]
  rcases mem_dropBlank_or (List.mem_map_of_mem (f := bare) hpiece) with hmem | hblank
  · rw [h] at hmem
    obtain ⟨other, hother, hsame⟩ := List.mem_map.mp ((dropBlank_isPrefix _).subset hmem)
    rw [← hsame, isBegin_bare]
    exact isBegin_of_mem_outside other hother
  · rw [hblank]
    decide

/-! ### The block -/

theorem control_free_of_all {text : Text} (h : text.all (0x20 ≤ ·.toNat) = true) :
    ∀ c ∈ text, 0x20 ≤ c.toNat := fun c hc => of_decide_eq_true (List.all_eq_true.mp h c hc)

theorem control_free_hex4 (n : Nat) : ∀ c ∈ hex4 n, 0x20 ≤ c.toNat := by
  have hdigits : ∀ c ∈ "0123456789ABCDEF".toList, 0x20 ≤ c.toNat :=
    control_free_of_all (by decide)
  have hdigit : ∀ nibble, 0x20 ≤ ("0123456789ABCDEF".toList.getD nibble '0').toNat := by
    intro nibble
    rw [List.getD_eq_getElem?_getD]
    cases hget : "0123456789ABCDEF".toList[nibble]? with
    | none => decide
    | some c => exact hdigits c (List.mem_of_getElem? hget)
  intro c hc
  simp only [hex4, List.mem_cons, List.not_mem_nil, or_false] at hc
  rcases hc with rfl | rfl | rfl | rfl <;> exact hdigit _

theorem control_free_tomlEscape (ch : Char) : ∀ c ∈ tomlEscape ch, 0x20 ≤ c.toNat := by
  unfold tomlEscape
  iterate 7
    split
    next => exact control_free_of_all (by decide)
  split
  next =>
    rw [List.forall_mem_append]
    exact ⟨control_free_of_all (by decide), control_free_hex4 _⟩
  next hplain =>
    rw [List.forall_mem_singleton]
    simp only [Bool.or_eq_true, decide_eq_true_eq, not_or] at hplain
    omega

theorem control_free_tomlBasicString (value : Text) :
    ∀ c ∈ tomlBasicString value, 0x20 ≤ c.toNat := by
  unfold tomlBasicString
  rw [List.forall_mem_append, List.forall_mem_append]
  refine ⟨⟨control_free_of_all (by decide), fun c hc => ?_⟩, control_free_of_all (by decide)⟩
  obtain ⟨ch, -, hch⟩ := List.mem_flatMap.mp hc
  exact control_free_tomlEscape ch c hch

/-- The lines of one hook table. -/
def tableLines (platform : Platform) (event : String) (matcher : Option String) (hookPath : Text)
    (action : String) : List Text :=
  ["[[hooks]]".toList, "event = ".toList ++ tomlBasicString event.toList]
    ++ (matcher.map fun matcher => "matcher = ".toList ++ tomlBasicString matcher.toList).toList
    ++ ["command = ".toList
        ++ tomlBasicString (hookCommand platform hookPath (some action.toList)),
      "timeout = 10".toList, []]

theorem kimiHookTable_eq (platform : Platform) (event : String) (matcher : Option String)
    (hookPath : Text) (action : String) :
    kimiHookTable platform event matcher hookPath action
      = unlines (tableLines platform event matcher hookPath action) := by
  unfold kimiHookTable tableLines unlines
  cases matcher with
  | none => simp
  | some matcher => simp

/-- What the loop does not take for the end of a block, nor for more than one line. -/
structure Inner (line : Text) : Prop where
  controlFree : ∀ c ∈ line, 0x20 ≤ c.toNat
  notEnd : isEnd line = false

/-- The first character of a line that is not blank does not go with trimming. -/
theorem isEnd_cons (hc : isWhitespace c = false) (hhash : c ≠ '#') (rest : Text) :
    isEnd (c :: rest) = false := by
  have htrim : trim (c :: rest) <+: c :: rest := by
    unfold trim
    rw [List.dropWhile_cons_of_neg (by rw [hc]; exact Bool.false_ne_true)]
    exact List.rdropWhile_prefix _ _
  unfold isEnd
  rw [decide_eq_false_iff_not]
  intro heq
  rw [heq] at htrim
  obtain ⟨more, hmore⟩ := htrim
  exact hhash (List.cons.inj hmore).1.symm

theorem inner_tableLines (platform : Platform) (event : String) (matcher : Option String)
    (hookPath : Text) (action : String) :
    ∀ line ∈ tableLines platform event matcher hookPath action, Inner line := by
  -- A key with its value.
  have hkey : ∀ (key : String) (value : Text),
      (∀ c ∈ key.toList, 0x20 ≤ c.toNat) → (∀ rest, isEnd (key.toList ++ rest) = false) →
      Inner (key.toList ++ tomlBasicString value) := by
    intro key value hcontrol hopen
    refine ⟨?_, hopen _⟩
    rw [List.forall_mem_append]
    exact ⟨hcontrol, control_free_tomlBasicString value⟩
  unfold tableLines
  rw [List.forall_mem_append, List.forall_mem_append, List.forall_mem_cons,
    List.forall_mem_singleton, List.forall_mem_cons, List.forall_mem_cons,
    List.forall_mem_singleton]
  refine ⟨⟨⟨⟨control_free_of_all (by decide), by decide⟩, ?event⟩, ?matcher⟩, ?command,
    ⟨control_free_of_all (by decide), by decide⟩,
    ⟨control_free_of_all (by decide), by decide⟩⟩
  case event =>
    exact hkey _ _ (control_free_of_all (by decide)) fun _ => isEnd_cons (by decide) (by decide) _
  case matcher =>
    intro line hline
    obtain ⟨value, -, rfl⟩ := Option.map_eq_some_iff.mp (Option.mem_toList.mp hline)
    exact hkey _ _ (control_free_of_all (by decide)) fun _ => isEnd_cons (by decide) (by decide) _
  case command =>
    exact hkey _ _ (control_free_of_all (by decide)) fun _ => isEnd_cons (by decide) (by decide) _

/-- The lines of the block of a hook. -/
def blockLines (platform : Platform) (hookPath : Text) : List Text :=
  kimiConfigBlockBegin :: (kimiHookEvents.flatMap (fun (event, matcher, action) =>
    tableLines platform event matcher hookPath action) ++ [kimiConfigBlockEnd])

theorem build_eq (platform : Platform) (content hookPath : Text) :
    buildKimiConfigWithHooks platform content hookPath
      = (let result := (removeKimiConfigBlock content).rdropWhile (· = '\n')
        if result.isEmpty then result else result ++ ['\n', '\n'])
        ++ unlines (blockLines platform hookPath) := by
  have hmiddle : kimiHookEvents.flatMap (fun (event, matcher, action) =>
      kimiHookTable platform event matcher hookPath action)
        = unlines (kimiHookEvents.flatMap fun (event, matcher, action) =>
          tableLines platform event matcher hookPath action) := by
    unfold unlines
    rw [List.flatMap_assoc]
    exact List.flatMap_congr fun entry _ => kimiHookTable_eq _ _ _ _ _
  unfold buildKimiConfigWithHooks blockLines
  rw [hmiddle]
  simp [unlines]

theorem inner_blockLines (platform : Platform) (hookPath : Text) :
    ∀ line ∈ kimiHookEvents.flatMap (fun (event, matcher, action) =>
      tableLines platform event matcher hookPath action), Inner line := by
  intro line hline
  obtain ⟨⟨event, matcher, action⟩, -, htable⟩ := List.mem_flatMap.mp hline
  exact inner_tableLines platform event matcher hookPath action line htable

theorem control_free_blockLines (platform : Platform) (hookPath : Text) :
    ∀ line ∈ blockLines platform hookPath, ∀ c ∈ line, 0x20 ≤ c.toNat := by
  unfold blockLines
  rw [List.forall_mem_cons, List.forall_mem_append, List.forall_mem_singleton]
  exact ⟨control_free_of_all (by decide),
    fun line hline => (inner_blockLines platform hookPath line hline).controlFree,
    control_free_of_all (by decide)⟩

/-- A control character is in no line of the block. -/
theorem not_mem_blockLines (hc : c.toNat < 0x20) (platform : Platform) (hookPath : Text) :
    ∀ line ∈ blockLines platform hookPath, c ∉ line := fun line hline hmem =>
  absurd (control_free_blockLines platform hookPath line hline c hmem) (by omega)

theorem lines_block (platform : Platform) (hookPath : Text) :
    lines (unlines (blockLines platform hookPath)) = blockLines platform hookPath := by
  rw [lines_unlines (not_mem_blockLines (by decide) platform hookPath)]
  exact map_stripReturn_of_not_mem (not_mem_blockLines (by decide) platform hookPath)

/-- The block is one block. -/
theorem outside_block (platform : Platform) (hookPath : Text) :
    outside false (blockLines platform hookPath) = [] := by
  refine WithoutBlocks.outside_eq (.block ?_ (fun line hline => ?_) ?_ .nil)
  · decide
  · exact (inner_blockLines platform hookPath line hline).notEnd
  · decide

/-! ### Building and removing -/

/-- What stands in front of the block. -/
def front (content : Text) : Text :=
  let result := (removeKimiConfigBlock content).rdropWhile (· = '\n')
  if result.isEmpty then result else result ++ ['\n', '\n']

theorem settledLines_front (content : Text) :
    settledLines (front content) = settledLines (removeKimiConfigBlock content) := by
  unfold front
  dsimp only
  split
  next => rw [settledLines_rdropWhile]
  next =>
    rw [show ['\n', '\n'] = ['\n'] ++ ['\n'] from rfl, ← List.append_assoc,
      settledLines_append_newline, settledLines_append_newline, settledLines_rdropWhile]

theorem build_eq_front (platform : Platform) (content hookPath : Text) :
    buildKimiConfigWithHooks platform content hookPath
      = front content ++ unlines (blockLines platform hookPath) :=
  build_eq platform content hookPath

/-- The lines in front of the block, with the blank one. -/
def frontLines (text : Text) : List Text :=
  if text.isEmpty then [] else (text.splitOn '\n').map stripReturn ++ [[]]

theorem lines_build (platform : Platform) (content hookPath : Text) :
    lines (buildKimiConfigWithHooks platform content hookPath)
      = frontLines ((removeKimiConfigBlock content).rdropWhile (· = '\n'))
        ++ blockLines platform hookPath := by
  have hblank : lines ('\n' :: unlines (blockLines platform hookPath))
      = [] :: blockLines platform hookPath := by
    rw [← List.nil_append ('\n' :: _), lines_append_cons List.not_mem_nil, lines_block]
    rfl
  rw [build_eq_front]
  unfold front frontLines
  dsimp only
  split
  next hempty => rw [List.isEmpty_iff.mp hempty, List.nil_append, lines_block, List.nil_append]
  next =>
    rw [List.append_assoc, List.cons_append, List.singleton_append, lines_append, hblank,
      List.append_assoc, List.singleton_append]

theorem isBegin_frontLines (content : Text) :
    ∀ line ∈ frontLines ((removeKimiConfigBlock content).rdropWhile (· = '\n')),
      isBegin line = false := by
  unfold frontLines
  split
  next => simp
  next =>
    rw [List.forall_mem_append, List.forall_mem_singleton]
    exact ⟨isBegin_of_settled content (settledLines_rdropWhile _), by decide⟩

/-- Outside of the block is what stands in front of it. -/
theorem outside_build (platform : Platform) (content hookPath : Text) :
    outside false (lines (buildKimiConfigWithHooks platform content hookPath))
      = frontLines ((removeKimiConfigBlock content).rdropWhile (· = '\n')) := by
  rw [lines_build, outside_append (isBegin_frontLines content), outside_block, List.append_nil]

theorem any_isBegin_build (platform : Platform) (content hookPath : Text) :
    (lines (buildKimiConfigWithHooks platform content hookPath)).any isBegin = true := by
  rw [lines_build, List.any_append]
  unfold blockLines
  rw [List.any_cons, show isBegin kimiConfigBlockBegin = true by decide, Bool.true_or,
    Bool.or_true]

theorem endsWithNewline_build (platform : Platform) (content hookPath : Text) :
    endsWithNewline (buildKimiConfigWithHooks platform content hookPath) = true := by
  unfold endsWithNewline buildKimiConfigWithHooks
  rw [List.getLast?_concat]
  rfl

/-- Removing what was built gives the lines from before. -/
theorem settledLines_remove_build (platform : Platform) (content hookPath : Text) :
    settledLines (removeKimiConfigBlock (buildKimiConfigWithHooks platform content hookPath))
      = settledLines (removeKimiConfigBlock content) := by
  rw [settledLines_removeKimiConfigBlock, outside_build, ← settledLines_rdropWhile
    (removeKimiConfigBlock content)]
  unfold frontLines
  split
  next hempty =>
    rw [List.isEmpty_iff.mp hempty]
    rfl
  next =>
    rw [List.map_append, settledLines_eq, List.map_map]
    refine (dropBlank_append_nil _).trans (congrArg dropBlank ?_)
    exact List.map_congr_left fun piece _ => bare_stripReturn piece

theorem not_mem_removeKimiConfigBlock (h : '\r' ∉ content) :
    '\r' ∉ removeKimiConfigBlock content := by
  have hlines : ∀ line ∈ outside false (lines content), '\r' ∉ line := fun line hline hmem =>
    h (mem_of_mem_lines ((outside_sublist false _).subset hline) hmem)
  have hjoined := not_mem_popNewlines (by decide)
    (not_mem_joinLines (by decide) hlines (endsWithNewline content))
  rw [removeKimiConfigBlock_eq]
  split
  next =>
    dsimp only
    split
    next => exact List.not_mem_nil
    next => exact hjoined
  next => exact h

/-- Without carriage returns it gives the text, up to line feeds at the end. -/
theorem remove_build (platform : Platform) (h : '\r' ∉ content) (hookPath : Text) :
    (removeKimiConfigBlock (buildKimiConfigWithHooks platform content hookPath)).rdropWhile
        (· = '\n') = (removeKimiConfigBlock content).rdropWhile (· = '\n') := by
  have hreturn : '\r' ∉ (removeKimiConfigBlock content).rdropWhile (· = '\n') := fun hmem =>
    not_mem_removeKimiConfigBlock h ((List.rdropWhile_prefix _ _).subset hmem)
  have hjoined : (joinTomlLines
      (frontLines ((removeKimiConfigBlock content).rdropWhile (· = '\n'))) true).rdropWhile
        (· = '\n') = (removeKimiConfigBlock content).rdropWhile (· = '\n') := by
    unfold frontLines
    split
    next hempty =>
      rw [List.isEmpty_iff.mp hempty]
      decide
    next =>
      rw [map_stripReturn_of_not_mem (not_mem_pieces hreturn)]
      unfold joinTomlLines joinLines
      dsimp only
      rw [intercalate_concat _ (List.splitOn_ne_nil _ _), List.intercalate_splitOn, List.append_nil,
        if_pos (by simp), List.rdropWhile_concat_pos _ _ _ (by simp),
        List.rdropWhile_concat_pos _ _ _ (by simp), List.rdropWhile_idempotent]
  rw [removeKimiConfigBlock_eq, if_pos (any_isBegin_build _ _ _), outside_build,
    endsWithNewline_build]
  have hpopped := (rdropWhile_popNewlines _).trans hjoined
  dsimp only
  split
  next hnewline =>
    rw [hnewline] at hpopped
    exact hpopped
  next => exact hpopped

/-- A second build gives the same block behind the same lines. -/
theorem build_build (platform : Platform) (content hookPath : Text) : ∃ before after,
    buildKimiConfigWithHooks platform content hookPath
        = before ++ unlines (blockLines platform hookPath)
      ∧ buildKimiConfigWithHooks platform
          (buildKimiConfigWithHooks platform content hookPath) hookPath
        = after ++ unlines (blockLines platform hookPath)
      ∧ settledLines after = settledLines before := by
  refine ⟨front content, front (buildKimiConfigWithHooks platform content hookPath),
    build_eq_front _ _ _, build_eq_front _ _ _, ?_⟩
  rw [settledLines_front, settledLines_front, settledLines_remove_build]

theorem build_build_of_not_mem (platform : Platform) (h : '\r' ∉ content) (hookPath : Text) :
    buildKimiConfigWithHooks platform (buildKimiConfigWithHooks platform content hookPath) hookPath
      = buildKimiConfigWithHooks platform content hookPath := by
  rw [build_eq platform (buildKimiConfigWithHooks platform content hookPath),
    remove_build platform h, build_eq platform content]

/-- Without a begin marker, removing leaves the text as it is. -/
theorem removeKimiConfigBlock_of_unmarked (h : ∀ line ∈ lines content, isBegin line = false) :
    removeKimiConfigBlock content = content := by
  rw [removeKimiConfigBlock_eq, any_isBegin_eq_false_iff.mpr h]
  rfl

/-- In a text with delimited blocks only, removing leaves the lines outside of them. -/
theorem remove_of_terminated (h : Terminated (lines content)) :
    ∃ kept, WithoutBlocks (lines content) kept
      ∧ settledLines (removeKimiConfigBlock content) = dropBlank (kept.map bare) := by
  obtain ⟨kept, hkept⟩ := h.withoutBlocks
  refine ⟨kept, hkept, ?_⟩
  rw [settledLines_removeKimiConfigBlock, hkept.outside_eq]

end Herden.Proofs.Integration.Kimi
