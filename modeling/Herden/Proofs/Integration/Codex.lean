import Herden.Runtime.Integration.TomlEdit

/-!
# `Herden.Proofs.Integration.Codex`: the Codex edit

Each line has a mark: a table header, one of the two keys below a `[features]` header, or another
line. The loop notes the places of the marks (`scanLines_eq`), so the edit replaces the last `hooks`
line, or adds one below the first `[features]` header, and removes the deprecated ones. Afterwards
the marks say that nothing is left to do (`Done`).
-/

namespace Herden.Proofs.Integration.Codex

open Herden.Lib
open Herden.Lib.Text
open Herden.Runtime.Integration.TomlEdit

/-! ### Marks -/

inductive Mark where
  | header (features : Bool)
  | hooks
  | deprecated
  | other
deriving DecidableEq

/-- What a line is, in the top-level `[features]` table or not. -/
def markOf (inFeatures : Bool) (line : Text) : Mark :=
  match tomlTableHeader line with
  | some header => .header (header = "[features]".toList)
  | none =>
      if !inFeatures then .other
      else if isTomlKey line "codex_hooks" then .deprecated
      else if isTomlKey line "hooks" then .hooks
      else .other

/-- Whether the line behind is in the top-level `[features]` table. -/
def Mark.next (inFeatures : Bool) : Mark → Bool
  | .header features => features
  | _ => inFeatures

def annotate : Bool → List Text → List (Text × Mark)
  | _, [] => []
  | inFeatures, line :: rest =>
      (line, markOf inFeatures line) :: annotate ((markOf inFeatures line).next inFeatures) rest

def isHooks (entry : Text × Mark) : Bool := entry.2 = .hooks

def isDeprecated (entry : Text × Mark) : Bool := entry.2 = .deprecated

def isFeatures (entry : Text × Mark) : Bool := entry.2 = .header true

theorem map_fst_annotate (inFeatures : Bool) (lines : List Text) :
    (annotate inFeatures lines).map Prod.fst = lines := by
  induction lines generalizing inFeatures with
  | nil => rfl
  | cons line rest ih => exact congrArg (line :: ·) (ih _)

/-- What a line of this mark does to the variables of the loop. -/
theorem read_eq (scan : Scan) (line : Text) (index : Nat) :
    scan.read line index =
      match markOf scan.inTopLevelFeatures line with
      | .header features =>
          { scan with
            inTopLevelFeatures := features
            featuresHeaderIndex :=
              if features && scan.featuresHeaderIndex.isNone then some index
              else scan.featuresHeaderIndex }
      | .hooks => { scan with hooksIndex := some index }
      | .deprecated =>
          { scan with deprecatedHooksIndexes := scan.deprecatedHooksIndexes ++ [index] }
      | .other => scan := by
  unfold Scan.read markOf
  cases tomlTableHeader line with
  | some header => rfl
  | none =>
    dsimp only
    cases scan.inTopLevelFeatures with
    | false => rfl
    | true =>
      cases isTomlKey line "codex_hooks" with
      | true => rfl
      | false =>
        cases isTomlKey line "hooks" with
        | true => rfl
        | false => rfl

/-- A line adds its place to those of its mark. -/
theorem read_spec (scan : Scan) (line : Text) (index : Nat) :
    let entry := (line, markOf scan.inTopLevelFeatures line)
    (scan.read line index).inTopLevelFeatures = entry.2.next scan.inTopLevelFeatures
      ∧ (scan.read line index).featuresHeaderIndex
        = scan.featuresHeaderIndex.or (if isFeatures entry then some index else none)
      ∧ (scan.read line index).hooksIndex
        = (if isHooks entry then some index else none).or scan.hooksIndex
      ∧ (scan.read line index).deprecatedHooksIndexes
        = scan.deprecatedHooksIndexes ++ if isDeprecated entry then [index] else [] := by
  dsimp only
  rw [read_eq]
  cases hmark : markOf scan.inTopLevelFeatures line with
  | header features =>
    refine ⟨rfl, ?_, rfl, (List.append_nil _).symm⟩
    cases features with
    | true =>
      cases scan.featuresHeaderIndex with
      | none => rfl
      | some index => rfl
    | false => exact (Option.or_none).symm
  | hooks => exact ⟨rfl, (Option.or_none).symm, rfl, (List.append_nil _).symm⟩
  | deprecated => exact ⟨rfl, (Option.or_none).symm, rfl, rfl⟩
  | other => exact ⟨rfl, (Option.or_none).symm, rfl, (List.append_nil _).symm⟩

/-- The loop notes the places of the marks. -/
theorem scan_eq (scan : Scan) (lines : List Text) (start : Nat) :
    let entries := annotate scan.inTopLevelFeatures lines
    let last := (lines.zipIdx start).foldl (fun scan (line, index) => scan.read line index) scan
    last.featuresHeaderIndex
        = scan.featuresHeaderIndex.or ((entries.findIdx? isFeatures).map (· + start))
      ∧ last.hooksIndex = ((lastPlace isHooks entries).map (· + start)).or scan.hooksIndex
      ∧ last.deprecatedHooksIndexes
        = scan.deprecatedHooksIndexes ++ (places isDeprecated entries).map (· + start) := by
  induction lines generalizing scan start with
  | nil => simp [annotate, lastPlace, places]
  | cons line rest ih =>
    have hadd : ∀ place : Option Nat,
        (place.map (· + 1)).map (· + start) = place.map (· + (start + 1)) := by
      intro place
      rw [Option.map_map]
      exact congrFun (congrArg _ (funext fun place => by dsimp only [Function.comp_apply]; omega)) _
    have haddAll : ∀ all : List Nat,
        (all.map (· + 1)).map (· + start) = all.map (· + (start + 1)) := by
      intro all
      rw [List.map_map]
      exact List.map_congr_left fun place _ => by dsimp only [Function.comp_apply]; omega
    obtain ⟨hnext, hread, hreadHooks, hreadDeprecated⟩ := read_spec scan line start
    obtain ⟨hheader, hhooks, hdeprecated⟩ := ih (scan.read line start) (start + 1)
    rw [hnext] at hheader hhooks hdeprecated
    dsimp only
    rw [annotate, List.findIdx?_cons, lastPlace_cons, places]
    refine ⟨hheader.trans ?_, hhooks.trans ?_, hdeprecated.trans ?_⟩
    · rw [hread, Option.or_assoc]
      refine congrArg _ ?_
      split
      next => simp
      next => rw [Option.none_or, hadd]
    · rw [hreadHooks, ← Option.or_assoc, Option.map_or, hadd]
      refine congrArg (Option.or · _) (congrArg _ ?_)
      split
      next => simp
      next => rfl
    · rw [hreadDeprecated, List.append_assoc, List.map_append, haddAll]
      refine congrArg _ (congrArg (· ++ _) ?_)
      split
      next => simp
      next => rfl

theorem scanLines_eq (lines : List Text) :
    (scanLines lines).featuresHeaderIndex = (annotate false lines).findIdx? isFeatures
      ∧ (scanLines lines).hooksIndex = lastPlace isHooks (annotate false lines)
      ∧ (scanLines lines).deprecatedHooksIndexes = places isDeprecated (annotate false lines) := by
  obtain ⟨hheader, hhooks, hdeprecated⟩ := scan_eq ⟨false, none, none, []⟩ lines 0
  refine ⟨hheader.trans ?_, hhooks.trans ?_, hdeprecated.trans ?_⟩
  · simp
  · simp
  · simp

/-! ### Line ends -/

theorem isPrefixOf_append_return {start : Text} (h : '\r' ∉ start) (text : Text) :
    start.isPrefixOf (text ++ ['\r']) = start.isPrefixOf text := by
  induction start generalizing text with
  | nil => rfl
  | cons c start ih =>
    obtain ⟨hc, hstart⟩ := not_or.mp (mt List.mem_cons.mpr h)
    cases text with
    | nil =>
      show (c == '\r' && start.isPrefixOf []) = false
      rw [beq_false_of_ne (Ne.symm hc)]
      rfl
    | cons d text =>
      show (c == d && start.isPrefixOf (text ++ ['\r'])) = (c == d && start.isPrefixOf text)
      rw [ih hstart]

theorem splitAfter_append_return {stop : Text} (h : '\r' ∉ stop) (hne : stop ≠ []) (text : Text) :
    splitAfter stop (text ++ ['\r'])
      = (splitAfter stop text).map fun (before, after) => (before, after ++ ['\r']) := by
  have hnil : stop.isPrefixOf [] = false := by
    cases stop with
    | nil => exact absurd rfl hne
    | cons c rest => rfl
  induction text with
  | nil =>
    have hreturn : stop.isPrefixOf ['\r'] = false := by
      rw [← hnil]
      exact isPrefixOf_append_return h []
    show splitAfter stop ['\r'] = _
    rw [splitAfter, splitAfter, hreturn, hnil]
    simp [splitAfter, hnil]
  | cons c text ih =>
    have hsame : stop.isPrefixOf (c :: (text ++ ['\r'])) = stop.isPrefixOf (c :: text) :=
      isPrefixOf_append_return h (c :: text)
    rw [List.cons_append, splitAfter, splitAfter, hsame, ih]
    cases hinitial : stop.isPrefixOf (c :: text) with
    | true =>
      have hlength : stop.length ≤ (c :: text).length :=
        (List.isPrefixOf_iff_prefix.mp hinitial).length_le
      rw [if_pos rfl, if_pos rfl, ← List.cons_append, List.drop_append_of_le_length hlength]
      rfl
    | false =>
      rw [if_neg (by decide), if_neg (by decide), Option.map_map, Option.map_map]
      rfl

theorem trimStart_append_return (line : Text) :
    trimStart (line ++ ['\r'])
      = if (trimStart line).isEmpty then [] else trimStart line ++ ['\r'] := by
  unfold trimStart
  rw [List.dropWhile_append]
  rfl

theorem tomlTableHeader_append_return (line : Text) :
    tomlTableHeader (line ++ ['\r']) = tomlTableHeader line := by
  have hstarts : ∀ (start : String) (text : Text), '\r' ∉ start.toList →
      startsWith start (text ++ ['\r']) = startsWith start text :=
    fun start text hstart => isPrefixOf_append_return hstart text
  unfold tomlTableHeader
  dsimp only
  rw [trimStart_append_return]
  split
  next hempty =>
    rw [List.isEmpty_iff.mp hempty]
  next =>
    rw [hstarts "#" _ (by decide), hstarts "[" _ (by decide), hstarts "[[" _ (by decide),
      splitAfter_append_return (by decide) (by decide),
      splitAfter_append_return (by decide) (by decide), ← apply_ite (Option.map _)]
    split
    next => rfl
    next =>
      cases (if startsWith "[[" (trimStart line) = true then
          splitAfter "]]".toList (trimStart line)
        else splitAfter "]".toList (trimStart line)) with
      | none => rfl
      | some parts =>
        dsimp only [Option.map_some]
        rw [trimStart_append_return]
        split
        next hempty =>
          rw [List.isEmpty_iff.mp hempty]
        next hrest =>
          rw [hstarts "#" _ (by decide)]
          have hmore : (trimStart parts.2 ++ ['\r']).isEmpty = false := by simp
          rw [hmore, Bool.eq_false_iff.mpr hrest]

theorem isTomlKey_append_return (line : Text) (key : String) :
    isTomlKey (line ++ ['\r']) key = isTomlKey line key := by
  unfold isTomlKey
  rw [trim_append_return]

theorem markOf_bare (inFeatures : Bool) (line : Text) :
    markOf inFeatures (bare line) = markOf inFeatures line := by
  refine apply_bare (fun line => ?_) line
  unfold markOf
  rw [tomlTableHeader_append_return, isTomlKey_append_return, isTomlKey_append_return]

def bareEntry (entry : Text × Mark) : Text × Mark := (bare entry.1, entry.2)

theorem annotate_map_bare (inFeatures : Bool) (lines : List Text) :
    annotate inFeatures (lines.map bare) = (annotate inFeatures lines).map bareEntry := by
  induction lines generalizing inFeatures with
  | nil => rfl
  | cons line rest ih =>
    rw [List.map_cons, annotate, annotate, List.map_cons, markOf_bare, ih]
    rfl

/-! ### The edit -/

/-- The marks are those of the lines. -/
def Annotated (inFeatures : Bool) (entries : List (Text × Mark)) : Prop :=
  annotate inFeatures (entries.map Prod.fst) = entries

theorem annotated_annotate (inFeatures : Bool) (lines : List Text) :
    Annotated inFeatures (annotate inFeatures lines) := by
  unfold Annotated
  rw [map_fst_annotate]

variable {inFeatures : Bool} {line content : Text} {entries behind front : List (Text × Mark)}

theorem annotated_cons {mark : Mark} {rest : List (Text × Mark)} :
    Annotated inFeatures ((line, mark) :: rest)
      ↔ markOf inFeatures line = mark ∧ Annotated (mark.next inFeatures) rest := by
  unfold Annotated
  rw [List.map_cons, annotate, List.cons.injEq, Prod.mk.injEq]
  dsimp only
  constructor
  · rintro ⟨⟨-, rfl⟩, hrest⟩
    exact ⟨rfl, hrest⟩
  · rintro ⟨rfl, hrest⟩
    exact ⟨⟨rfl, rfl⟩, hrest⟩

theorem markOf_hooksTrue : markOf true hooksTrue = .hooks := by decide

/-- Only in the table a line is one of the keys. -/
theorem markOf_false (line : Text) : markOf false line = .other ∨ ∃ features,
    markOf false line = .header features := by
  unfold markOf
  cases tomlTableHeader line with
  | some header => exact .inr ⟨_, rfl⟩
  | none => exact .inl rfl

/-- Removing deprecated keys leaves the marks of the other lines. -/
theorem Annotated.filter (h : Annotated inFeatures entries) :
    Annotated inFeatures (entries.filter (!isDeprecated ·)) := by
  induction entries generalizing inFeatures with
  | nil => rfl
  | cons entry rest ih =>
    obtain ⟨line, mark⟩ := entry
    obtain ⟨hmark, hrest⟩ := annotated_cons.mp h
    rw [List.filter_cons]
    split
    next => exact annotated_cons.mpr ⟨hmark, ih hrest⟩
    next hdeprecated =>
      have hmark : mark = .deprecated := by simpa [isDeprecated] using hdeprecated
      rw [hmark] at hrest
      exact ih hrest

/-- A key line replaced by the new one. -/
theorem Annotated.replace (h : Annotated inFeatures (front ++ (line, .hooks) :: behind)) :
    Annotated inFeatures (front ++ (hooksTrue, .hooks) :: behind) := by
  induction front generalizing inFeatures with
  | nil =>
    obtain ⟨hmark, hbehind⟩ := annotated_cons.mp h
    cases inFeatures with
    | true => exact annotated_cons.mpr ⟨markOf_hooksTrue, hbehind⟩
    | false =>
      rcases markOf_false line with hother | ⟨features, hheader⟩
      · rw [hother] at hmark
        cases hmark
      · rw [hheader] at hmark
        cases hmark
  | cons entry front ih =>
    obtain ⟨other, mark⟩ := entry
    obtain ⟨hmark, hrest⟩ := annotated_cons.mp h
    exact annotated_cons.mpr ⟨hmark, ih hrest⟩

/-- The new line below a header of the table. -/
theorem Annotated.insert (h : Annotated inFeatures (front ++ (line, .header true) :: behind)) :
    Annotated inFeatures (front ++ (line, .header true) :: (hooksTrue, .hooks) :: behind) := by
  induction front generalizing inFeatures with
  | nil =>
    obtain ⟨hmark, hbehind⟩ := annotated_cons.mp h
    exact annotated_cons.mpr ⟨hmark, annotated_cons.mpr ⟨markOf_hooksTrue, hbehind⟩⟩
  | cons entry front ih =>
    obtain ⟨other, mark⟩ := entry
    obtain ⟨hmark, hrest⟩ := annotated_cons.mp h
    exact annotated_cons.mpr ⟨hmark, ih hrest⟩

/-- Before the first header of the table there is none of its keys. -/
theorem Annotated.outside (h : Annotated false (front ++ behind))
    (hfront : ∀ entry ∈ front, isFeatures entry = false) :
    ∀ entry ∈ front, isHooks entry = false ∧ isDeprecated entry = false := by
  induction front with
  | nil => simp
  | cons entry front ih =>
    obtain ⟨line, mark⟩ := entry
    obtain ⟨hmark, hrest⟩ := annotated_cons.mp h
    obtain ⟨hfeatures, hothers⟩ := List.forall_mem_cons.mp hfront
    rcases markOf_false line with hother | ⟨features, hheader⟩
    · rw [hother] at hmark
      subst hmark
      exact List.forall_mem_cons.mpr ⟨⟨rfl, rfl⟩, ih hrest hothers⟩
    · rw [hheader] at hmark
      subst hmark
      cases features with
      | true => cases hfeatures
      | false => exact List.forall_mem_cons.mpr ⟨⟨rfl, rfl⟩, ih hrest hothers⟩

/-- The lines that stay, of those with these marks. -/
def edited (entries : List (Text × Mark)) : List Text :=
  (entries.filter (!isDeprecated ·)).map Prod.fst

/-- The text with a new table at its end. -/
def withTable (content : Text) : Text :=
  let front := content.rdropWhile (· = '\n')
  (if front.isEmpty then front else front ++ ['\n', '\n']) ++ "[features]\nhooks = true\n".toList

/-- The three ways the edit goes. -/
theorem buildCodexConfigWithHooks_cases (content : Text) :
    (∃ front line behind, annotate false (lines content) = front ++ (line, .hooks) :: behind
        ∧ (∀ entry ∈ behind, isHooks entry = false)
        ∧ buildCodexConfigWithHooks content
          = joinTomlLines (edited (front ++ (hooksTrue, .hooks) :: behind))
            (endsWithNewline content))
      ∨ (∃ front line behind, annotate false (lines content)
          = front ++ (line, .header true) :: behind
        ∧ (∀ entry ∈ behind, isHooks entry = false)
        ∧ (∀ entry ∈ front, isHooks entry = false ∧ isDeprecated entry = false)
        ∧ buildCodexConfigWithHooks content
          = joinTomlLines (edited (front ++ (line, .header true) :: (hooksTrue, .hooks) :: behind))
            (endsWithNewline content))
      ∨ (∀ entry ∈ annotate false (lines content), isFeatures entry = false)
        ∧ buildCodexConfigWithHooks content = withTable content := by
  obtain ⟨hheader, hhooks, hdeprecated⟩ := scanLines_eq (lines content)
  have hannotated := annotated_annotate false (lines content)
  have hlines := map_fst_annotate false (lines content)
  unfold buildCodexConfigWithHooks
  dsimp only
  rw [hheader, hhooks, hdeprecated]
  cases hlast : lastPlace isHooks (annotate false (lines content)) with
  | some place =>
    left
    obtain ⟨front, ⟨line, mark⟩, behind, hsplit, rfl, hmark, hbehind⟩ := lastPlace_spec hlast
    obtain rfl : mark = .hooks := of_decide_eq_true hmark
    refine ⟨front, line, behind, hsplit, hbehind, ?_⟩
    rw [hsplit] at hlines
    have hset : (lines content).set front.length hooksTrue
        = (front ++ (hooksTrue, .hooks) :: behind).map Prod.fst := by
      rw [← hlines, ← @List.length_map _ _ front Prod.fst, List.map_append, List.map_cons,
        set_length_append, List.map_append, List.map_cons]
    have hplaces : places isDeprecated (front ++ (line, .hooks) :: behind)
        = places isDeprecated (front ++ (hooksTrue, .hooks) :: behind) :=
      places_congr (by simp [isDeprecated])
    dsimp only
    rw [hsplit, hplaces, hset, foldl_eraseIdx_places]
    rfl
  | none =>
    right
    have hnone := lastPlace_eq_none_iff.mp hlast
    have herase : (places isDeprecated (annotate false (lines content))).reverse.foldl
        List.eraseIdx (lines content) = edited (annotate false (lines content)) := by
      have hplaces := foldl_eraseIdx_places isDeprecated Prod.fst (annotate false (lines content))
      rw [hlines] at hplaces
      exact hplaces
    rw [herase]
    cases hfirst : (annotate false (lines content)).findIdx? isFeatures with
    | some place =>
      left
      obtain ⟨front, ⟨line, mark⟩, behind, hsplit, rfl, hmark, hfront⟩ := findIdx?_spec hfirst
      obtain rfl : mark = .header true := of_decide_eq_true hmark
      rw [hsplit] at hnone hannotated
      have houtside := hannotated.outside hfront
      refine ⟨front, line, behind, hsplit, ?_, houtside, ?_⟩
      · exact (List.forall_mem_cons.mp (List.forall_mem_append.mp hnone).2).2
      · have hfilter : front.filter (!isDeprecated ·) = front :=
          List.filter_eq_self.mpr fun entry hentry => by rw [(houtside entry hentry).2]; rfl
        have hbehind : ∀ more, edited (front ++ (line, .header true) :: more)
            = front.map Prod.fst ++ line :: edited more := by
          intro more
          unfold edited
          rw [List.filter_append, hfilter, List.map_append]
          rfl
        dsimp only
        rw [hsplit, hbehind, hbehind, ← @List.length_map _ _ front Prod.fst,
          insertIdx_length_append]
        rfl
    | none => exact .inr ⟨List.findIdx?_eq_none_iff.mp hfirst, rfl⟩

/-! ### Nothing left to do -/

/-- The key is set where it was found last, and none is deprecated. -/
def Done (entries : List (Text × Mark)) : Prop :=
  (∃ front behind, entries = front ++ (hooksTrue, .hooks) :: behind
      ∧ ∀ entry ∈ behind, isHooks entry = false)
    ∧ ∀ entry ∈ entries, isDeprecated entry = false

theorem bare_hooksTrue : bare hooksTrue = hooksTrue := bare_of_not_mem (by decide)

theorem Done.map_bare (h : Done entries) : Done (entries.map bareEntry) := by
  obtain ⟨⟨front, behind, rfl, hbehind⟩, hdeprecated⟩ := h
  refine ⟨⟨front.map bareEntry, behind.map bareEntry, ?_, ?_⟩, ?_⟩
  · rw [List.map_append, List.map_cons, bareEntry, bare_hooksTrue]
  · exact List.forall_mem_map.mpr hbehind
  · exact List.forall_mem_map.mpr hdeprecated

theorem annotate_append (inFeatures : Bool) (lines more : List Text) :
    ∃ after, annotate inFeatures (lines ++ more)
      = annotate inFeatures lines ++ annotate after more := by
  induction lines generalizing inFeatures with
  | nil => exact ⟨inFeatures, rfl⟩
  | cons line lines ih =>
    obtain ⟨after, hafter⟩ := ih ((markOf inFeatures line).next inFeatures)
    exact ⟨after, congrArg ((line, markOf inFeatures line) :: ·) hafter⟩

theorem markOf_nil (inFeatures : Bool) : markOf inFeatures [] = .other := by
  cases inFeatures <;> rfl

/-- A blank line at the end is nothing to do. -/
theorem done_append_nil (lines : List Text) :
    Done (annotate false (lines ++ [[]])) ↔ Done (annotate false lines) := by
  obtain ⟨after, hafter⟩ := annotate_append false lines [[]]
  rw [hafter]
  have hblank : annotate after [[]] = [([], .other)] := by
    rw [annotate, markOf_nil]
    rfl
  rw [hblank]
  constructor
  · rintro ⟨⟨front, behind, hsplit, hbehind⟩, hdeprecated⟩
    refine ⟨?_, (List.forall_mem_append.mp hdeprecated).1⟩
    induction behind using List.reverseRecOn with
    | nil =>
      have hlast := (List.append_inj' hsplit rfl).2
      cases hlast
    | append_singleton behind last _ =>
      rw [← List.cons_append, ← List.append_assoc] at hsplit
      obtain ⟨hfront, -⟩ := List.append_inj' hsplit rfl
      exact ⟨front, behind, hfront, (List.forall_mem_append.mp hbehind).1⟩
  · rintro ⟨⟨front, behind, hsplit, hbehind⟩, hdeprecated⟩
    refine ⟨⟨front, behind ++ [([], .other)], by rw [hsplit, List.append_assoc]; rfl, ?_⟩, ?_⟩
    · exact List.forall_mem_append.mpr ⟨hbehind, List.forall_mem_singleton.mpr rfl⟩
    · exact List.forall_mem_append.mpr ⟨hdeprecated, List.forall_mem_singleton.mpr rfl⟩

theorem done_iff_of_settled {text : Text} {lines : List Text}
    (h : settledLines text = dropBlank lines) :
    Done (annotate false ((Text.lines text).map bare)) ↔ Done (annotate false lines) := by
  have hleft := dropBlank_iff (P := fun lines => Done (annotate false lines)) done_append_nil
    ((Text.lines text).map bare)
  have hright := dropBlank_iff (P := fun lines => Done (annotate false lines)) done_append_nil lines
  rw [← hleft, ← hright, ← h]
  rfl

theorem not_mem_edited (h : ∀ entry ∈ entries, entry.1 ∈ lines content ∨ entry.1 = hooksTrue)
    {c : Char} (hc : c ∉ hooksTrue) (hlines : ∀ line ∈ lines content, c ∉ line) :
    ∀ line ∈ edited entries, c ∉ line := by
  intro line hline
  obtain ⟨entry, hentry, rfl⟩ := List.mem_map.mp hline
  rcases h entry (List.filter_sublist.subset hentry) with hmem | hnew
  · exact hlines _ hmem
  · rw [hnew]
    exact hc

theorem edited_of_clean (h : ∀ entry ∈ entries, isDeprecated entry = false) :
    edited entries = entries.map Prod.fst := by
  unfold edited
  rw [List.filter_eq_self.mpr fun entry hentry => by rw [h entry hentry]; rfl]

/-- Where nothing is left to do, the edit changes line ends at most. -/
theorem build_of_done (h : Done (annotate false ((lines content).map bare))) :
    settledLines (buildCodexConfigWithHooks content) = settledLines content
      ∧ ('\r' ∉ content → buildCodexConfigWithHooks content = content) := by
  rw [annotate_map_bare] at h
  obtain ⟨⟨others, more, hdone, hmore⟩, hclean⟩ := h
  have hclean : ∀ entry ∈ annotate false (lines content), isDeprecated entry = false :=
    fun entry hentry => hclean (bareEntry entry) (List.mem_map_of_mem hentry)
  have hlines := map_fst_annotate false (lines content)
  obtain ⟨entry, hentry, hhooks⟩ :
      ∃ entry ∈ annotate false (lines content), isHooks entry = true := by
    have hmem : (hooksTrue, Mark.hooks) ∈ (annotate false (lines content)).map bareEntry := by
      rw [hdone]
      simp
    obtain ⟨entry, hentry, heq⟩ := List.mem_map.mp hmem
    have hmark : entry.2 = .hooks := congrArg Prod.snd heq
    exact ⟨entry, hentry, decide_eq_true hmark⟩
  rcases buildCodexConfigWithHooks_cases content with
    ⟨front, line, behind, hsplit, hbehind, hbuild⟩ |
      ⟨front, line, behind, hsplit, hbehind, hfront, -⟩ | ⟨hnone, -⟩
  · rw [hsplit, List.map_append, List.map_cons] at hdone
    have hline : bareEntry (line, .hooks) = (hooksTrue, .hooks) :=
      last_unique (p := isHooks) hdone rfl (List.forall_mem_map.mpr hbehind) rfl hmore
    have hline : bare line = hooksTrue := congrArg Prod.fst hline
    rw [hsplit] at hclean hlines
    have hcleanNew : ∀ entry ∈ front ++ (hooksTrue, .hooks) :: behind,
        isDeprecated entry = false := by
      intro entry hentry
      rcases List.mem_append.mp hentry with hmem | hmem
      · exact hclean entry (List.mem_append_left _ hmem)
      · rcases List.mem_cons.mp hmem with rfl | hmem
        · rfl
        · exact hclean entry (List.mem_append_right _ (List.mem_cons_of_mem _ hmem))
    rw [edited_of_clean hcleanNew] at hbuild
    have hnewLines : ∀ other ∈ (front ++ (hooksTrue, .hooks) :: behind).map Prod.fst,
        '\n' ∉ other := by
      intro other hother
      rw [List.map_append, List.map_cons, List.mem_append, List.mem_cons] at hother
      rw [List.map_append, List.map_cons] at hlines
      rcases hother with hmem | rfl | hmem
      · exact not_mem_lines (hlines ▸ List.mem_append_left _ hmem)
      · decide
      · exact not_mem_lines (hlines ▸ List.mem_append_right _ (List.mem_cons_of_mem _ hmem))
    constructor
    · have hsame : ((front ++ (hooksTrue, .hooks) :: behind).map Prod.fst).map bare
          = (lines content).map bare := by
        rw [← hlines]
        simp only [List.map_append, List.map_cons, hline, bare_hooksTrue]
      rw [hbuild, joinTomlLines, settledLines_joinLines hnewLines, hsame]
      rfl
    · intro hreturn
      have hmem : line ∈ lines content := by
        rw [← hlines]
        simp
      have hbareLine : bare line = line :=
        bare_of_not_mem fun hc => hreturn (mem_of_mem_lines hmem hc)
      have hne : content ≠ [] := by
        rintro rfl
        cases hmem
      rw [hbuild, ← hline, hbareLine]
      refine Eq.trans ?_ (joinLines_lines hreturn hne)
      rw [← hlines]
      simp only [List.map_append, List.map_cons, joinTomlLines]
  · rw [hsplit, List.mem_append, List.mem_cons] at hentry
    rcases hentry with hentry | rfl | hentry
    · rw [(hfront entry hentry).1] at hhooks
      cases hhooks
    · cases hhooks
    · rw [hbehind entry hentry] at hhooks
      cases hhooks
  · have hannotated := annotated_annotate false (lines content)
    rw [← List.append_nil (annotate false (lines content))] at hannotated
    rw [(hannotated.outside hnone entry hentry).1] at hhooks
    cases hhooks

/-! ### After the edit -/

/-- Lines of an edit, with marks that are those of the lines. -/
theorem done_edited (hannotated : Annotated false entries)
    (hset : ∃ front behind, entries = front ++ (hooksTrue, .hooks) :: behind
      ∧ ∀ entry ∈ behind, isHooks entry = false)
    (hentries : ∀ entry ∈ entries, entry.1 ∈ lines content ∨ entry.1 = hooksTrue)
    (trailing : Bool) :
    settledLines (joinTomlLines (edited entries) trailing) = dropBlank ((edited entries).map bare)
      ∧ Done (annotate false ((lines (joinTomlLines (edited entries) trailing)).map bare)) := by
  have hsettled : settledLines (joinTomlLines (edited entries) trailing)
      = dropBlank ((edited entries).map bare) :=
    settledLines_joinLines (not_mem_edited hentries (by decide) fun _ => not_mem_lines) trailing
  refine ⟨hsettled, (done_iff_of_settled hsettled).mpr ?_⟩
  have hmarks : annotate false (edited entries) = entries.filter (!isDeprecated ·) :=
    hannotated.filter
  rw [annotate_map_bare, hmarks]
  refine Done.map_bare ⟨?_, ?_⟩
  · obtain ⟨front, behind, rfl, hbehind⟩ := hset
    refine ⟨front.filter (!isDeprecated ·), behind.filter (!isDeprecated ·), ?_, ?_⟩
    · rw [List.filter_append]
      rfl
    · exact fun entry hentry => hbehind entry (List.filter_sublist.subset hentry)
  · intro entry hentry
    simpa using (List.mem_filter.mp hentry).2

/-- The lines but `hooks` and `codex_hooks` keys below a `[features]` header. -/
def userLines (content : Text) : List Text :=
  ((annotate false (lines content)).filter fun entry => !isHooks entry && !isDeprecated entry).map
    Prod.fst

theorem kept_sublist (entries : List (Text × Mark)) :
    (entries.filter fun entry => !isHooks entry && !isDeprecated entry).Sublist
      (entries.filter (!isDeprecated ·)) :=
  List.monotone_filter_right entries fun _ h => (Bool.and_eq_true_iff.mp h).2

/-- What is true of the text after the edit. -/
structure Built (content built : Text) : Prop where
  done : Done (annotate false ((lines built).map bare))
  kept : (dropBlank ((userLines content).map bare)).Sublist (settledLines built)
  noReturn : '\r' ∉ content → '\r' ∉ built

/-- An edit at the place of the key. -/
theorem built_edited (hannotated : Annotated false entries)
    (hset : ∃ front behind, entries = front ++ (hooksTrue, .hooks) :: behind
      ∧ ∀ entry ∈ behind, isHooks entry = false)
    (hentries : ∀ entry ∈ entries, entry.1 ∈ lines content ∨ entry.1 = hooksTrue)
    (hkept : ((annotate false (lines content)).filter
      fun entry => !isHooks entry && !isDeprecated entry).Sublist
        (entries.filter (!isDeprecated ·))) (trailing : Bool) :
    Built content (joinTomlLines (edited entries) trailing) := by
  obtain ⟨hsettled, hdone⟩ := done_edited hannotated hset hentries trailing
  refine ⟨hdone, ?_, fun hreturn => ?_⟩
  · rw [hsettled]
    exact dropBlank_sublist ((hkept.map Prod.fst).map bare)
  · have hlines : ∀ line ∈ lines content, '\r' ∉ line :=
      fun line hline hc => hreturn (mem_of_mem_lines hline hc)
    exact not_mem_joinLines (by decide) (not_mem_edited hentries (by decide) hlines) trailing

theorem isFeatures_iff : isFeatures (line, markOf inFeatures line) = true
      ↔ tomlTableHeader line = some "[features]".toList := by
  unfold isFeatures markOf
  generalize "[features]".toList = table
  cases hheader : tomlTableHeader line with
  | some header =>
    dsimp only
    rw [decide_eq_true_iff, Mark.header.injEq, decide_eq_true_iff, Option.some_inj]
  | none =>
    dsimp only
    constructor
    · intro h
      repeat' split at h
      all_goals cases h
    · intro h
      cases h

/-- Only headers of the table have its mark. -/
theorem forall_isFeatures_iff {lines : List Text} :
    (∀ entry ∈ annotate inFeatures lines, isFeatures entry = false)
      ↔ ∀ line ∈ lines, tomlTableHeader line ≠ some "[features]".toList := by
  induction lines generalizing inFeatures with
  | nil => simp [annotate]
  | cons line rest ih =>
    rw [annotate, List.forall_mem_cons, List.forall_mem_cons, ih, ← Bool.not_eq_true,
      isFeatures_iff]

theorem tomlTableHeader_bare (line : Text) : tomlTableHeader (bare line) = tomlTableHeader line :=
  apply_bare tomlTableHeader_append_return line

def tableLines : List Text := ["[features]".toList, hooksTrue]

theorem annotate_tableLines (inFeatures : Bool) :
    annotate inFeatures tableLines
      = [("[features]".toList, .header true), (hooksTrue, .hooks)] := by
  cases inFeatures <;> decide

/-- A table behind lines without one. -/
theorem done_tableLines {front : List Text}
    (hnone : ∀ line ∈ front, tomlTableHeader line ≠ some "[features]".toList) :
    Done (annotate false (front ++ tableLines)) := by
  obtain ⟨after, hafter⟩ := annotate_append false front tableLines
  have hfront := annotated_annotate false front
  rw [← List.append_nil (annotate false front)] at hfront
  have houtside := hfront.outside (forall_isFeatures_iff.mpr hnone)
  rw [hafter, annotate_tableLines]
  refine ⟨⟨annotate false front ++ [("[features]".toList, .header true)], [], ?_, by simp⟩, ?_⟩
  · rw [List.append_assoc]
    rfl
  · refine List.forall_mem_append.mpr ⟨fun entry hentry => (houtside entry hentry).2, ?_⟩
    exact List.forall_mem_cons.mpr ⟨rfl, List.forall_mem_singleton.mpr rfl⟩

/-- The lines in front of the table, blank ones at their end included. -/
theorem settledLines_withTable (content : Text) : ∃ front,
    settledLines (withTable content) = front ++ tableLines
      ∧ dropBlank front = settledLines content := by
  have hcontent := settledLines_rdropWhile content
  unfold withTable
  dsimp only
  cases hfront : content.rdropWhile (· = '\n') with
  | nil =>
    rw [hfront] at hcontent
    refine ⟨[], ?_, hcontent⟩
    decide
  | cons c rest =>
    rw [hfront] at hcontent
    have hrest : settledLines ('\n' :: "[features]\nhooks = true\n".toList) = [] :: tableLines := by
      decide
    refine ⟨((c :: rest).splitOn '\n').map bare ++ [[]], ?_, ?_⟩
    · have happend := @settledLines_append (c :: rest)
        ('\n' :: "[features]\nhooks = true\n".toList) (by rw [hrest]; simp)
      rw [hrest] at happend
      rw [List.append_assoc]
      simpa using happend
    · rw [dropBlank_append_nil, ← settledLines_eq, hcontent]

/-- The text with a table at its end. -/
theorem built_withTable
    (hnone : ∀ entry ∈ annotate false (lines content), isFeatures entry = false) :
    Built content (withTable content) := by
  obtain ⟨front, hsettled, hfront⟩ := settledLines_withTable content
  have hheaders := forall_isFeatures_iff.mp hnone
  have hannotated := annotated_annotate false (lines content)
  rw [← List.append_nil (annotate false (lines content))] at hannotated
  have houtside := hannotated.outside hnone
  constructor
  case done =>
    have hdrop : settledLines (withTable content) = dropBlank (front ++ tableLines) := by
      have hlast : front ++ tableLines = front ++ ["[features]".toList] ++ [hooksTrue] := by
        rw [List.append_assoc]
        rfl
      have hne : hooksTrue ≠ [] := by decide
      rw [hsettled, hlast, dropBlank_append_of_ne hne]
    refine (done_iff_of_settled hdrop).mpr (done_tableLines fun line hline => ?_)
    rcases mem_dropBlank_or hline with hmem | rfl
    · rw [hfront] at hmem
      obtain ⟨other, hother, rfl⟩ := List.mem_map.mp ((dropBlank_isPrefix _).subset hmem)
      rw [tomlTableHeader_bare]
      exact hheaders other hother
    · decide
  case kept =>
    have huser : userLines content = lines content := by
      unfold userLines
      rw [List.filter_eq_self.mpr fun entry hentry => ?_, map_fst_annotate]
      rw [(houtside entry hentry).1, (houtside entry hentry).2]
      rfl
    have hsame : dropBlank ((lines content).map bare) = dropBlank front := hfront.symm
    rw [huser, hsettled, hsame]
    exact (dropBlank_isPrefix front).sublist.trans (List.sublist_append_left front tableLines)
  case noReturn =>
    intro hreturn
    have hfront : '\r' ∉ content.rdropWhile (· = '\n') := fun hmem =>
      hreturn ((List.rdropWhile_prefix _ _).subset hmem)
    unfold withTable
    dsimp only
    rw [List.mem_append, not_or]
    refine ⟨?_, by decide⟩
    split
    next => exact hfront
    next => simp [hfront]

theorem build_spec (content : Text) : Built content (buildCodexConfigWithHooks content) := by
  have hannotated := annotated_annotate false (lines content)
  have hlines := map_fst_annotate false (lines content)
  have hmem : ∀ entry ∈ annotate false (lines content), entry.1 ∈ lines content := by
    intro entry hentry
    rw [← hlines]
    exact List.mem_map_of_mem hentry
  rcases buildCodexConfigWithHooks_cases content with
    ⟨front, line, behind, hsplit, hbehind, hbuild⟩ |
      ⟨front, line, behind, hsplit, hbehind, -, hbuild⟩ | ⟨hnone, hbuild⟩
  · rw [hsplit] at hannotated hmem
    rw [hbuild]
    refine built_edited hannotated.replace ⟨front, behind, rfl, hbehind⟩ ?_ ?_ _
    · intro entry hentry
      rcases List.mem_append.mp hentry with hfront | hrest
      · exact .inl (hmem entry (List.mem_append_left _ hfront))
      · rcases List.mem_cons.mp hrest with rfl | hbehind
        · exact .inr rfl
        · exact .inl (hmem entry (List.mem_append_right _ (List.mem_cons_of_mem _ hbehind)))
    · rw [hsplit, List.filter_append, List.filter_append]
      exact (kept_sublist front).append ((kept_sublist behind).cons _)
  · rw [hsplit] at hannotated hmem
    rw [hbuild]
    refine built_edited hannotated.insert
      ⟨front ++ [(line, .header true)], behind, by rw [List.append_assoc]; rfl, hbehind⟩ ?_ ?_ _
    · intro entry hentry
      rcases List.mem_append.mp hentry with hfront | hrest
      · exact .inl (hmem entry (List.mem_append_left _ hfront))
      · rcases List.mem_cons.mp hrest with rfl | hrest
        · exact .inl (hmem _ (List.mem_append_right _ List.mem_cons_self))
        · rcases List.mem_cons.mp hrest with rfl | hbehind
          · exact .inr rfl
          · exact .inl (hmem entry (List.mem_append_right _ (List.mem_cons_of_mem _ hbehind)))
    · rw [hsplit, List.filter_append, List.filter_append]
      exact (kept_sublist front).append (((kept_sublist behind).cons _).cons_cons _)
  · rw [hbuild]
    exact built_withTable hnone

/-- The edit keeps the user's lines, and a second one changes line ends at most. -/
theorem edit_spec (content : Text) :
    settledLines (buildCodexConfigWithHooks (buildCodexConfigWithHooks content))
        = settledLines (buildCodexConfigWithHooks content)
      ∧ ('\r' ∉ content → buildCodexConfigWithHooks (buildCodexConfigWithHooks content)
        = buildCodexConfigWithHooks content)
      ∧ (dropBlank ((userLines content).map bare)).Sublist
        (settledLines (buildCodexConfigWithHooks content)) := by
  have hbuilt := build_spec content
  obtain ⟨hsettled, hsame⟩ := build_of_done hbuilt.done
  exact ⟨hsettled, fun hreturn => hsame (hbuilt.noReturn hreturn), hbuilt.kept⟩

end Herden.Proofs.Integration.Codex
