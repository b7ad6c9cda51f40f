import Herden.Lib.Text

/-!
# `Herden.Lib.Lines`: texts that are edited line by line

An editor takes a text apart into lines and joins them again. The joined text has the same lines,
but maybe other line ends, and maybe other blank lines at its end. `settledLines` forgets both, so
it is the lines that were joined (`settledLines_joinLines`); without carriage returns, joining gives
the text itself (`joinLines_lines`). The lemmas on places are for editors that note the places of
lines and edit at them afterwards.
-/

namespace Herden.Lib

namespace Text

/-- The line without carriage returns at its end. -/
def bare (line : Text) : Text := line.rdropWhile (· = '\r')

/-- The lines without the blank ones at their end. -/
def dropBlank (lines : List Text) : List Text := lines.rdropWhile (·.isEmpty)

/-- The lines of a text, however they end, without the blank ones at its end. -/
def settledLines (text : Text) : List Text := dropBlank ((lines text).map bare)

def endsWithNewline (text : Text) : Bool := text.getLast? = some '\n'

/-- Lines joined to a text, which ends with a line feed if it should or if it would be empty. -/
def joinLines (lines : List Text) (trailingNewline : Bool) : Text :=
  let result := ['\n'].intercalate lines
  if trailingNewline || result.isEmpty then result ++ ['\n'] else result

/-! ### Carriage returns -/

theorem bare_stripReturn (line : Text) : bare (stripReturn line) = bare line := by
  unfold stripReturn
  split
  next hlast =>
    obtain ⟨init, rfl⟩ := List.getLast?_eq_some_iff.mp hlast
    rw [List.dropLast_concat]
    unfold bare
    rw [List.rdropWhile_concat_pos _ _ _ (by simp)]
  next => rfl

theorem bare_append_return (line : Text) : bare (line ++ ['\r']) = bare line := by
  unfold bare
  rw [List.rdropWhile_concat_pos _ _ _ (by simp)]

theorem bare_of_not_mem {line : Text} (h : '\r' ∉ line) : bare line = line := by
  unfold bare
  rw [List.rdropWhile_eq_self_iff]
  intro hne hlast
  exact h (of_decide_eq_true hlast ▸ List.getLast_mem hne)

/-- What does not see a carriage return at the end of a line does not see any there. -/
theorem apply_bare {α : Type*} {f : Text → α} (h : ∀ line, f (line ++ ['\r']) = f line)
    (line : Text) : f (bare line) = f line := by
  induction line using List.reverseRecOn with
  | nil => rfl
  | append_singleton line c ih =>
    by_cases hc : c = '\r'
    · rw [hc, bare_append_return, ih, h]
    · unfold bare
      rw [List.rdropWhile_concat_neg _ _ _ (by simpa using hc)]

theorem trim_append_return (line : Text) : trim (line ++ ['\r']) = trim line := by
  unfold trim
  rw [List.dropWhile_append]
  split
  next hempty =>
    rw [List.isEmpty_iff.mp hempty]
    rfl
  next => rw [List.rdropWhile_concat_pos _ _ _ (by decide)]

theorem trim_bare (line : Text) : trim (bare line) = trim line := apply_bare trim_append_return line

/-! ### Blank lines at the end -/

theorem dropBlank_append_nil (lines : List Text) : dropBlank (lines ++ [[]]) = dropBlank lines :=
  List.rdropWhile_concat_pos _ _ _ rfl

theorem dropBlank_append_of_ne {line : Text} (h : line ≠ []) (lines : List Text) :
    dropBlank (lines ++ [line]) = lines ++ [line] :=
  List.rdropWhile_concat_neg _ _ _ (by simpa using h)

theorem dropBlank_isPrefix (lines : List Text) : dropBlank lines <+: lines :=
  List.rdropWhile_prefix _ _

/-- Fewer lines have fewer that are not blank at the end. -/
theorem dropBlank_sublist {lines more : List Text} (h : lines.Sublist more) :
    (dropBlank lines).Sublist (dropBlank more) := by
  have hdrop : ∀ {xs ys : List Text}, xs.Sublist ys →
      (xs.dropWhile (·.isEmpty)).Sublist (ys.dropWhile (·.isEmpty)) := by
    intro xs ys hsub
    induction hsub with
    | slnil => exact List.Sublist.refl _
    | cons line hsub ih =>
      rw [List.dropWhile_cons]
      split
      next => exact ih
      next => exact ((List.dropWhile_sublist _).trans hsub).cons line
    | cons_cons line hsub ih =>
      rw [List.dropWhile_cons, List.dropWhile_cons]
      split
      next => exact ih
      next => exact hsub.cons_cons line
  exact (hdrop h.reverse).reverse

theorem mem_dropBlank_or {lines : List Text} {line : Text} (h : line ∈ lines) :
    line ∈ dropBlank lines ∨ line = [] := by
  induction lines using List.reverseRecOn with
  | nil => cases h
  | append_singleton lines last ih =>
    by_cases hlast : last = []
    · rw [hlast, dropBlank_append_nil]
      rcases List.mem_append.mp h with hmem | hmem
      · exact ih hmem
      · exact .inr ((List.mem_singleton.mp hmem).trans hlast)
    · rw [dropBlank_append_of_ne hlast]
      exact .inl h

/-- What blank lines at the end do not change depends on the lines before them. -/
theorem dropBlank_iff {P : List Text → Prop} (h : ∀ lines, P (lines ++ [[]]) ↔ P lines)
    (lines : List Text) : P (dropBlank lines) ↔ P lines := by
  induction lines using List.reverseRecOn with
  | nil => exact Iff.rfl
  | append_singleton lines last ih =>
    by_cases hlast : last = []
    · rw [hlast, dropBlank_append_nil, h]
      exact ih
    · rw [dropBlank_append_of_ne hlast]

/-! ### Pieces -/

/-- The lines of a text are what its line feeds separate. -/
theorem settledLines_eq (text : Text) :
    settledLines text = dropBlank ((text.splitOn '\n').map bare) := by
  have hne := List.splitOn_ne_nil '\n' text
  have hpieces := List.dropLast_concat_getLast hne
  unfold settledLines lines
  dsimp only
  have hmap : ∀ pieces : List Text, (pieces.map stripReturn).map bare = pieces.map bare := by
    intro pieces
    rw [List.map_map]
    exact List.map_congr_left fun piece _ => bare_stripReturn piece
  rw [List.map_append, hmap]
  conv_rhs => rw [← hpieces]
  rw [List.map_append]
  split
  next hempty =>
    rw [List.isEmpty_iff.mp hempty]
    exact ((congrArg dropBlank (List.append_nil _)).trans (dropBlank_append_nil _).symm)
  next => rfl

/-- Line feeds at the end only add blank lines. -/
theorem settledLines_append_newline (text : Text) :
    settledLines (text ++ ['\n']) = settledLines text := by
  rw [settledLines_eq, settledLines_eq, List.splitOn_append_cons_self, List.splitOn_nil,
    List.map_append]
  exact dropBlank_append_nil _

theorem lines_append (front rest : Text) :
    lines (front ++ '\n' :: rest) = (front.splitOn '\n').map stripReturn ++ lines rest := by
  have hrest := List.splitOn_ne_nil '\n' rest
  unfold lines
  dsimp only
  simp only [List.splitOn_append_cons_self, List.dropLast_append_of_ne_nil hrest, List.map_append,
    List.append_assoc, List.getLast_append_of_ne_nil _ hrest]

/-- A text behind a line feed, if it is more than blank lines. -/
theorem settledLines_append (front : Text) {rest : Text} (h : settledLines rest ≠ []) :
    settledLines (front ++ '\n' :: rest)
      = (front.splitOn '\n').map bare ++ settledLines rest := by
  have hdrop : ∀ lines more : List Text, dropBlank more ≠ [] →
      dropBlank (lines ++ more) = lines ++ dropBlank more := by
    intro lines more hmore
    induction more using List.reverseRecOn with
    | nil => exact absurd rfl hmore
    | append_singleton more last ih =>
      rw [← List.append_assoc]
      by_cases hlast : last = []
      · rw [hlast, dropBlank_append_nil] at hmore ⊢
        rw [dropBlank_append_nil, ih hmore]
      · rw [dropBlank_append_of_ne hlast, dropBlank_append_of_ne hlast, List.append_assoc]
  rw [settledLines_eq] at h ⊢
  rw [List.splitOn_append_cons_self, List.map_append, hdrop _ _ h, settledLines_eq]

/-- The text without its line feeds at the end. -/
theorem settledLines_rdropWhile (text : Text) :
    settledLines (text.rdropWhile (· = '\n')) = settledLines text := by
  induction text using List.reverseRecOn with
  | nil => rfl
  | append_singleton text c ih =>
    by_cases hc : c = '\n'
    · rw [hc, List.rdropWhile_concat_pos _ _ _ (by simp), ih, settledLines_append_newline]
    · rw [List.rdropWhile_concat_neg _ _ _ (by simpa using hc)]

/-- Joined lines are the lines. -/
theorem settledLines_joinLines {lines : List Text} (h : ∀ line ∈ lines, '\n' ∉ line)
    (trailingNewline : Bool) :
    settledLines (joinLines lines trailingNewline) = dropBlank (lines.map bare) := by
  have hjoined : settledLines (['\n'].intercalate lines) = dropBlank (lines.map bare) := by
    cases lines with
    | nil => rfl
    | cons first rest =>
      rw [settledLines_eq, List.splitOn_intercalate '\n' h (List.cons_ne_nil _ _)]
  unfold joinLines
  dsimp only
  split
  next => rw [settledLines_append_newline, hjoined]
  next => exact hjoined

theorem intercalate_concat (separator : Text) {lines : List Text} (h : lines ≠ [])
    (line : Text) :
    separator.intercalate (lines ++ [line]) = separator.intercalate lines ++ separator ++ line := by
  induction lines with
  | nil => exact absurd rfl h
  | cons first rest ih =>
    cases rest with
    | nil => rw [List.singleton_append, List.intercalate_cons_cons, List.intercalate_singleton,
        List.intercalate_singleton]
    | cons second rest =>
      rw [List.cons_append, List.cons_append, List.intercalate_cons_cons, ← List.cons_append,
        ih (List.cons_ne_nil _ _), List.intercalate_cons_cons]
      simp only [List.append_assoc]

theorem map_stripReturn_of_not_mem {pieces : List Text} (h : ∀ piece ∈ pieces, '\r' ∉ piece) :
    pieces.map stripReturn = pieces := by
  conv_rhs => rw [← List.map_id pieces]
  refine List.map_congr_left fun piece hpiece => if_neg fun hlast => ?_
  exact h piece hpiece (List.mem_of_getLast? hlast)

variable {c : Char}

variable {separator : Text}

theorem mem_intercalate {line : Text} {lines : List Text} (hline : line ∈ lines) (hc : c ∈ line) :
    c ∈ separator.intercalate lines := by
  induction lines with
  | nil => cases hline
  | cons first rest ih =>
    cases rest with
    | nil =>
      rw [List.mem_singleton.mp hline] at hc
      rw [List.intercalate_singleton]
      exact hc
    | cons second rest =>
      rw [List.intercalate_cons_cons]
      rcases List.mem_cons.mp hline with rfl | hrest
      · exact List.mem_append_left _ (List.mem_append_left _ hc)
      · exact List.mem_append_right _ (ih hrest)

theorem mem_of_mem_intercalate {lines : List Text} (h : c ∈ separator.intercalate lines) :
    c ∈ separator ∨ ∃ line ∈ lines, c ∈ line := by
  induction lines with
  | nil => cases h
  | cons first rest ih =>
    cases rest with
    | nil =>
      rw [List.intercalate_singleton] at h
      exact .inr ⟨first, List.mem_cons_self, h⟩
    | cons second rest =>
      rw [List.intercalate_cons_cons] at h
      rcases List.mem_append.mp h with hfront | hrest
      · rcases List.mem_append.mp hfront with hfirst | hseparator
        · exact .inr ⟨first, List.mem_cons_self, hfirst⟩
        · exact .inl hseparator
      · rcases ih hrest with hseparator | ⟨line, hline, hc⟩
        · exact .inl hseparator
        · exact .inr ⟨line, List.mem_cons_of_mem _ hline, hc⟩

theorem not_mem_pieces {text : Text} (h : c ∉ text) : ∀ piece ∈ text.splitOn '\n', c ∉ piece := by
  intro piece hpiece hc
  have htext := @List.intercalate_splitOn _ text _ _ '\n'
  exact h (htext ▸ mem_intercalate hpiece hc)

/-- What no line has, the joined lines do not have. -/
theorem not_mem_joinLines {lines : List Text} (hc : c ≠ '\n') (h : ∀ line ∈ lines, c ∉ line)
    (trailingNewline : Bool) : c ∉ joinLines lines trailingNewline := by
  have hjoined : c ∉ ['\n'].intercalate lines := by
    intro hmem
    rcases mem_of_mem_intercalate hmem with hnewline | ⟨line, hline, hmem⟩
    · exact hc (List.mem_singleton.mp hnewline)
    · exact h line hline hmem
  unfold joinLines
  dsimp only
  split
  next => simp [hjoined, hc]
  next => exact hjoined

theorem mem_of_mem_lines {text line : Text} (hline : line ∈ lines text) (hc : c ∈ line) :
    c ∈ text := by
  by_contra hmem
  have hpieces := not_mem_pieces hmem
  unfold lines at hline
  rcases List.mem_append.mp hline with hfront | hlast
  · obtain ⟨piece, hpiece, rfl⟩ := List.mem_map.mp hfront
    exact hpieces piece (List.dropLast_subset _ hpiece) (mem_of_mem_stripReturn hc)
  · split at hlast
    next => cases hlast
    next =>
      rw [List.mem_singleton.mp hlast] at hc
      exact hpieces _ (List.getLast_mem _) hc

/-- Without carriage returns a text is its joined lines. -/
theorem joinLines_lines {text : Text} (hreturn : '\r' ∉ text) (hne : text ≠ []) :
    joinLines (lines text) (endsWithNewline text) = text := by
  have hpieces := not_mem_pieces hreturn
  cases hends : endsWithNewline text with
  | true =>
    obtain ⟨front, rfl⟩ := List.getLast?_eq_some_iff.mp (of_decide_eq_true hends)
    have hsplit : (front ++ ['\n']).splitOn '\n' = front.splitOn '\n' ++ [[]] :=
      List.splitOn_append_cons_self front []
    rw [hsplit] at hpieces
    have hfront : (front.splitOn '\n').map stripReturn = front.splitOn '\n' :=
      map_stripReturn_of_not_mem fun piece hpiece => hpieces piece (List.mem_append_left _ hpiece)
    have hlines : lines (front ++ ['\n']) = front.splitOn '\n' := by
      unfold lines
      simp only [hsplit, List.dropLast_concat, List.getLast_append_singleton, List.isEmpty_nil,
        if_true, List.append_nil]
      exact hfront
    rw [hlines]
    unfold joinLines
    dsimp only
    rw [List.intercalate_splitOn]
    rfl
  | false =>
    have hlast := List.dropLast_concat_getLast (List.splitOn_ne_nil '\n' text)
    have hopen : (text.splitOn '\n').getLast (List.splitOn_ne_nil _ _) ≠ [] := by
      intro hempty
      rw [hempty] at hlast
      have htext := @List.intercalate_splitOn _ text _ _ '\n'
      rw [← hlast] at htext
      by_cases hdrop : (text.splitOn '\n').dropLast = []
      · rw [hdrop] at htext
        exact hne htext.symm
      · rw [intercalate_concat _ hdrop, List.append_nil] at htext
        rw [← htext] at hends
        simp [endsWithNewline] at hends
    have hlines : lines text = text.splitOn '\n' := by
      unfold lines
      dsimp only
      rw [if_neg (by simpa using hopen), map_stripReturn_of_not_mem fun piece hpiece =>
        hpieces piece (List.dropLast_subset _ hpiece), hlast]
    rw [hlines]
    unfold joinLines
    dsimp only
    rw [List.intercalate_splitOn, Bool.false_or, if_neg (by simpa using hne)]

end Text

/-! ### Places -/

section

variable {α β : Type*}

/-- The places of the items that satisfy a test. -/
def places (p : α → Bool) : List α → List Nat
  | [] => []
  | item :: rest => (if p item then [0] else []) ++ (places p rest).map (· + 1)

def lastPlace (p : α → Bool) : List α → Option Nat
  | [] => none
  | item :: rest =>
      match lastPlace p rest with
      | some place => some (place + 1)
      | none => if p item then some 0 else none

theorem lastPlace_cons (p : α → Bool) (item : α) (rest : List α) :
    lastPlace p (item :: rest)
      = ((lastPlace p rest).map (· + 1)).or (if p item then some 0 else none) := by
  rw [lastPlace]
  cases lastPlace p rest with
  | some place => rfl
  | none => rfl

theorem foldl_eraseIdx_succ (indices : List Nat) (item : α) (rest : List α) :
    (indices.map (· + 1)).foldl List.eraseIdx (item :: rest)
      = item :: indices.foldl List.eraseIdx rest := by
  induction indices generalizing rest with
  | nil => rfl
  | cons index indices ih => exact ih (rest.eraseIdx index)

/-- Removing items at their places, from the last to the first. -/
theorem foldl_eraseIdx_places (p : α → Bool) (f : α → β) (items : List α) :
    (places p items).reverse.foldl List.eraseIdx (items.map f)
      = (items.filter (!p ·)).map f := by
  induction items with
  | nil => rfl
  | cons item rest ih =>
    unfold places
    rw [List.reverse_append, List.foldl_append, ← List.map_reverse, List.map_cons,
      foldl_eraseIdx_succ, ih]
    cases hp : p item with
    | true => simp [hp]
    | false => simp [hp]

variable {items : List α} {p : α → Bool}

/-- Places are a matter of the test's answers. -/
theorem places_congr {others : List α} (h : items.map p = others.map p) :
    places p items = places p others := by
  induction items generalizing others with
  | nil =>
    rw [List.map_eq_nil_iff.mp h.symm]
  | cons item rest ih =>
    cases others with
    | nil => cases h
    | cons other others =>
      obtain ⟨hitem, hrest⟩ := List.cons.inj h
      rw [places, places, hitem, ih hrest]

theorem lastPlace_eq_none_iff : lastPlace p items = none ↔ ∀ item ∈ items, p item = false := by
  induction items with
  | nil => simp [lastPlace]
  | cons item rest ih =>
    unfold lastPlace
    rw [List.forall_mem_cons]
    cases hrest : lastPlace p rest with
    | none =>
      have hall := ih.mp hrest
      simp only [ite_eq_right_iff, reduceCtorEq, imp_false, Bool.not_eq_true]
      exact ⟨fun hfirst => ⟨hfirst, hall⟩, fun h => h.1⟩
    | some place =>
      simp only [reduceCtorEq, false_iff, not_and]
      intro _ hall
      rw [ih.mpr hall] at hrest
      cases hrest

variable {item : α}

theorem lastPlace_append {behind : List α} (hitem : p item = true)
    (hbehind : ∀ later ∈ behind, p later = false) (front : List α) :
    lastPlace p (front ++ item :: behind) = some front.length := by
  induction front with
  | nil =>
    show lastPlace p (item :: behind) = some 0
    unfold lastPlace
    rw [lastPlace_eq_none_iff.mpr hbehind]
    exact if_pos hitem
  | cons first front ih =>
    rw [List.cons_append]
    unfold lastPlace
    rw [ih]
    rfl

/-- No item behind the last place satisfies the test. -/
theorem lastPlace_spec {place : Nat} (h : lastPlace p items = some place) :
    ∃ front item behind, items = front ++ item :: behind
      ∧ front.length = place ∧ p item = true ∧ ∀ later ∈ behind, p later = false := by
  induction items generalizing place with
  | nil => cases h
  | cons first rest ih =>
    unfold lastPlace at h
    cases hrest : lastPlace p rest with
    | some found =>
      rw [hrest] at h
      cases h
      obtain ⟨front, item, behind, rfl, rfl, hitem, hbehind⟩ := ih hrest
      exact ⟨first :: front, item, behind, rfl, rfl, hitem, hbehind⟩
    | none =>
      rw [hrest] at h
      dsimp only at h
      split at h
      next hfirst =>
        cases h
        exact ⟨[], first, rest, rfl, rfl, hfirst, lastPlace_eq_none_iff.mp hrest⟩
      next => cases h

/-- There is one last place. -/
theorem last_unique {front other : List α} {last : α} {behind more : List α}
    (h : front ++ item :: behind = other ++ last :: more) (hitem : p item = true)
    (hbehind : ∀ later ∈ behind, p later = false) (hlast : p last = true)
    (hmore : ∀ later ∈ more, p later = false) : item = last := by
  have hplace := lastPlace_append hitem hbehind front
  rw [h, lastPlace_append hlast hmore other] at hplace
  exact (List.cons.inj (List.append_inj h (Option.some.inj hplace).symm).2).1

/-- No item before the first place satisfies the test. -/
theorem findIdx?_spec {place : Nat} (h : items.findIdx? p = some place) :
    ∃ front item behind, items = front ++ item :: behind
      ∧ front.length = place ∧ p item = true ∧ ∀ earlier ∈ front, p earlier = false := by
  induction items generalizing place with
  | nil => cases h
  | cons first rest ih =>
    rw [List.findIdx?_cons] at h
    split at h
    next hfirst =>
      cases h
      exact ⟨[], first, rest, rfl, rfl, hfirst, by simp⟩
    next hfirst =>
      obtain ⟨found, hfound, rfl⟩ := Option.map_eq_some_iff.mp h
      obtain ⟨front, item, behind, rfl, rfl, hitem, hfront⟩ := ih hfound
      refine ⟨first :: front, item, behind, rfl, rfl, hitem, List.forall_mem_cons.mpr ⟨?_, hfront⟩⟩
      exact Bool.eq_false_iff.mpr hfirst

theorem set_length_append (front : List α) (item new : α) (behind : List α) :
    (front ++ item :: behind).set front.length new = front ++ new :: behind := by
  induction front with
  | nil => rfl
  | cons first front ih => exact congrArg (first :: ·) ih

theorem insertIdx_length_append (front : List α) (item new : α) (behind : List α) :
    (front ++ item :: behind).insertIdx (front.length + 1) new
      = front ++ item :: new :: behind := by
  induction front with
  | nil => rfl
  | cons first front ih => exact congrArg (first :: ·) ih

end

end Herden.Lib
