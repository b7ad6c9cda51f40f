import Herden.Lib.Text

/-!
# `Herden.Lib.Sshd`: the lines of `authorized_keys` as `sshd` reads them

A line is a comment, or an entry: a key, or a list of options and a key. A key is its type and its
blob, with blanks between them, and a comment may follow. Options go up to the first blank outside
double quotes, where a backslash keeps a quote from counting. `sshd` first takes the line for a
key, so which words are types of keys is a parameter.
-/

namespace Herden.Lib.Sshd

/-- The lines of a file. -/
def fileLines (file : Text) : List Text := file.splitOn '\n'

def isBlank (c : Char) : Bool := c = ' ' || c = '\t'

def skipSpace (text : Text) : Text := text.dropWhile isBlank

/-- White space that is skipped inside a blob. -/
def isSkipped (c : Char) : Bool := 9 ≤ c.toNat && c.toNat ≤ 13

/-- What is behind a list of options, unless its quotes are left open. -/
def advancePastOptions : Bool → Text → Option Text
  | quoted, [] => if quoted then none else some []
  | quoted, '\\' :: '"' :: rest => advancePastOptions quoted rest
  | quoted, '"' :: rest => advancePastOptions (!quoted) rest
  | quoted, c :: rest =>
      if !quoted && isBlank c then some (c :: rest) else advancePastOptions quoted rest

/-- The type and the blob at the front of a text. -/
def keyField (text : Text) : Text × Text :=
  (text.takeWhile (!isBlank ·),
    ((skipSpace (text.dropWhile (!isBlank ·))).takeWhile (!isBlank ·)).filter (!isSkipped ·))

section

variable (isKeyType : Text → Bool)

/-- The key of an entry. -/
def entryKey (line : Text) : Option (Text × Text) :=
  let text := skipSpace line
  if text.isEmpty || text.head? = some '#' then none
  else if isKeyType (keyField text).1 then some (keyField text)
  else (advancePastOptions false text).map fun rest => keyField (skipSpace rest)

/-- The line is an entry for a key. -/
def IsActive (type blob line : Text) : Prop := entryKey isKeyType line = some (type, blob)

instance (type blob line : Text) : Decidable (IsActive isKeyType type blob line) :=
  inferInstanceAs (Decidable (entryKey isKeyType line = some (type, blob)))

end

/-- A text in which no blank and nothing that is skipped occurs. -/
def IsWord (text : Text) : Prop := ∀ c ∈ text, isBlank c = false ∧ isSkipped c = false

variable {rest word : Text}

theorem IsWord.takeWhile (h : IsWord word)
    (hrest : rest = [] ∨ ∃ c more, rest = c :: more ∧ isBlank c = true) :
    (word ++ rest).takeWhile (!isBlank ·) = word := by
  rw [List.takeWhile_append_of_pos fun c hc => by simp [(h c hc).1]]
  obtain rfl | ⟨c, more, rfl, hc⟩ := hrest
  · exact List.append_nil word
  · simp [hc]

theorem IsWord.dropWhile (h : IsWord word)
    (hrest : rest = [] ∨ ∃ c more, rest = c :: more ∧ isBlank c = true) :
    (word ++ rest).dropWhile (!isBlank ·) = rest := by
  rw [List.dropWhile_append_of_pos fun c hc => by simp [(h c hc).1]]
  obtain rfl | ⟨c, more, rfl, hc⟩ := hrest
  · rfl
  · simp [hc]

theorem IsWord.filter (h : IsWord word) : word.filter (!isSkipped ·) = word :=
  List.filter_eq_self.mpr fun c hc => by simp [(h c hc).2]

/-- A type and a blob, and a comment behind them or nothing. -/
theorem keyField_line {type blob : Text} (htype : IsWord type) (hblob : IsWord blob)
    (hne : blob ≠ []) (hrest : rest = [] ∨ ∃ c more, rest = c :: more ∧ isBlank c = true) :
    keyField (type ++ ' ' :: (blob ++ rest)) = (type, blob) := by
  have hblank : ∃ c more, ' ' :: (blob ++ rest) = c :: more ∧ isBlank c = true :=
    ⟨' ', blob ++ rest, rfl, rfl⟩
  have hskip : skipSpace (' ' :: (blob ++ rest)) = blob ++ rest := by
    cases blob with
    | nil => exact absurd rfl hne
    | cons first blob =>
      have hfirst := (hblob first List.mem_cons_self).1
      unfold skipSpace
      rw [List.dropWhile_cons_of_pos rfl, List.cons_append,
        List.dropWhile_cons_of_neg (by simp [hfirst])]
  unfold keyField
  rw [htype.takeWhile (Or.inr hblank), htype.dropWhile (Or.inr hblank), hskip,
    hblob.takeWhile hrest, hblob.filter]

/-- A line that begins with a type of keys is an entry for its key. -/
theorem isActive_keyField {isKeyType : Text → Bool} {line : Text}
    (hstart : ∃ c more, line = c :: more ∧ isBlank c = false ∧ c ≠ '#')
    (hknown : isKeyType (keyField line).1 = true) :
    IsActive isKeyType (keyField line).1 (keyField line).2 line := by
  obtain ⟨c, more, rfl, hblank, hcomment⟩ := hstart
  have hskip : skipSpace (c :: more) = c :: more :=
    List.dropWhile_cons_of_neg (by rw [hblank]; exact Bool.false_ne_true)
  unfold IsActive entryKey
  dsimp only
  rw [hskip, if_neg, if_pos hknown]
  rw [List.isEmpty_cons, Bool.false_or, decide_eq_true_eq]
  exact fun hhead => hcomment (Option.some.inj hhead)

end Herden.Lib.Sshd
