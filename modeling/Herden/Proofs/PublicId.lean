import Herden.Runtime.PublicId

/-!
# `Herden.Proofs.PublicId`: workspace ids that are handed out later are new

A public number is written in base 32 without a zero digit: the digits stand for 1 to 32.
`decode_encodePublicNumber` reads every positive number back, and `generated_ne` follows: after
`reserve_workspace_ids` the counter is above every number in use, so the texts that come next
are not in use either.
-/

namespace Herden.Proofs.PublicId

open Herden.Runtime

/-! ### Reading back a public number -/

theorem length_publicIdAlphabet : publicIdAlphabet.length = 32 := by decide +kernel

/-- The digits are distinct: a digit is found at its own place. -/
theorem findIdx?_publicIdAlphabet : ∀ digit < 32,
    publicIdAlphabet.findIdx? (· = publicIdAlphabet.getD digit '0') = some digit := by
  decide +kernel

/-- Reading the digits back, the first one last: `encodeDigits` writes them in this order. -/
theorem decode_encodeDigits (fuel value : Nat) (hfuel : value ≤ fuel) (hvalue : value < usizeEnd) :
    (encodeDigits fuel value).reverse.foldlM decodeDigit 0 = some value := by
  induction fuel generalizing value with
  | zero =>
    obtain rfl : value = 0 := by omega
    rfl
  | succ fuel ih =>
    unfold encodeDigits
    split
    next hzero => rw [hzero]; rfl
    next hne =>
      rw [length_publicIdAlphabet, List.reverse_cons, List.foldlM_append,
        ih ((value - 1) / 32) (by omega) (by omega)]
      -- one more digit: shift what was read so far and add the digit
      have hdigit := findIdx?_publicIdAlphabet ((value - 1) % 32) (Nat.mod_lt _ (by omega))
      have hmul : checkedMul ((value - 1) / 32) 32 = some ((value - 1) / 32 * 32) := by
        rw [checkedMul, if_pos (by omega)]
      have hadd : checkedAdd ((value - 1) / 32 * 32) ((value - 1) % 32 + 1) = some value := by
        have hsum : (value - 1) / 32 * 32 + ((value - 1) % 32 + 1) = value := by omega
        rw [checkedAdd, hsum, if_pos hvalue]
      show decodeDigit ((value - 1) / 32) _ >>= pure = some value
      rw [decodeDigit, hdigit, length_publicIdAlphabet]
      simp [hmul, hadd]

theorem decode_encodePublicNumber {value : Nat} (hpos : 0 < value) (hvalue : value < usizeEnd) :
    decodePublicNumber (encodePublicNumber value) = some value := by
  rw [encodePublicNumber, if_neg (by omega), decodePublicNumber, String.toList_ofList]
  exact decode_encodeDigits value value le_rfl hvalue

theorem publicWorkspaceNumber_w (text : String) :
    publicWorkspaceNumber ("w" ++ text) = decodePublicNumber text := by
  have hlist : ("w" ++ text).toList = 'w' :: text.toList := by
    rw [String.toList_append]
    rfl
  rw [publicWorkspaceNumber, hlist]
  show decodePublicNumber (String.ofList text.toList) = _
  rw [String.ofList_toList]

/-! ### Ids that come later -/

/-- The id that the call number `k` from now hands out. -/
def generated (next : UInt64) : Nat → String
  | 0 => (generateWorkspaceId next).1
  | k + 1 => generated (generateWorkspaceId next).2 k

theorem generated_eq (next : UInt64) (k : Nat) (hroom : next.toNat + k < usizeEnd) :
    generated next k = "w" ++ encodePublicNumber (next.toNat + k) := by
  induction k generalizing next with
  | zero => rfl
  | succ k ih =>
    have hnext : (next + 1).toNat = next.toNat + 1 := by
      rw [UInt64.toNat_add]
      simp only [usizeEnd] at hroom
      show (next.toNat + 1) % 2 ^ 64 = _
      omega
    show generated (next + 1) k = _
    rw [ih (next + 1) (by omega), hnext]
    congr 2
    omega

/-- The numbers that some ids stand for. -/
def numbersOf (workspaces : List Workspace) : List Nat :=
  workspaces.filterMap (fun workspace => publicWorkspaceNumber workspace.id)

variable {workspace : Workspace} {workspaces : List Workspace}

theorem mem_numbersOf {n : Nat} (hmem : workspace ∈ workspaces)
    (hn : publicWorkspaceNumber workspace.id = some n) :
    n ∈ numbersOf workspaces := List.mem_filterMap.mpr ⟨workspace, hmem, hn⟩

/-- After a reservation the counter is above every number in use, unless one of them is the
last. It goes no further than needed. -/
theorem reserveWorkspaceIds_spec (workspaces : List Workspace) (current : UInt64)
    (hroom : ∀ n ∈ numbersOf workspaces, n + 1 < usizeEnd) :
    (∀ n ∈ numbersOf workspaces, n < (reserveWorkspaceIds workspaces current).toNat) ∧
      ((reserveWorkspaceIds workspaces current).toNat = current.toNat ∨
        ∃ n ∈ numbersOf workspaces,
          (reserveWorkspaceIds workspaces current).toNat = n + 1) := by
  rw [reserveWorkspaceIds, show workspaces.filterMap (fun workspace =>
    publicWorkspaceNumber workspace.id) = numbersOf workspaces from rfl]
  cases hmax : (numbersOf workspaces).max? with
  | none =>
    rw [List.max?_eq_none_iff] at hmax
    rw [hmax]
    exact ⟨fun n hn => (by cases hn), .inl rfl⟩
  | some top =>
    obtain ⟨htop, hle⟩ := List.max?_eq_some_iff.mp hmax
    have hfits : top + 1 < usizeEnd := hroom top htop
    have hadd : checkedAdd top 1 = some (top + 1) := if_pos hfits
    have hnat : (UInt64.ofNat (top + 1)).toNat = top + 1 :=
      UInt64.toNat_ofNat_of_lt hfits
    rw [Option.bind_some, hadd]
    dsimp only
    split
    next hlt =>
      rw [hnat]
      exact ⟨fun n hn => Nat.lt_succ_of_le (hle n hn), .inr ⟨top, htop, rfl⟩⟩
    next hge =>
      have hcurrent : top + 1 ≤ current.toNat := by
        rw [UInt64.lt_iff_toNat_lt, hnat] at hge
        omega
      exact ⟨fun n hn => Nat.lt_of_lt_of_le (Nat.lt_succ_of_le (hle n hn)) hcurrent, .inl rfl⟩

/-- An id from a counter above every number in use is not in use. -/
theorem encode_ne_of_lt {counter : Nat} (hcounter : counter < usizeEnd)
    (habove : ∀ n ∈ numbersOf workspaces, n < counter) (hmem : workspace ∈ workspaces) :
    "w" ++ encodePublicNumber counter ≠ workspace.id := by
  intro heq
  rcases Nat.eq_zero_or_pos counter with rfl | hpos
  · -- the counter 0 writes the same text as 32
    have hnumber : publicWorkspaceNumber workspace.id = some 32 := by
      rw [← heq]
      decide +kernel
    have := habove 32 (mem_numbersOf hmem hnumber)
    omega
  · have hnumber : publicWorkspaceNumber workspace.id = some counter := by
      rw [← heq, publicWorkspaceNumber_w, decode_encodePublicNumber hpos hcounter]
    exact absurd (habove counter (mem_numbersOf hmem hnumber)) (Nat.lt_irrefl counter)

/-- The ids handed out after a reservation differ from the ids in use, as long as the counter
does not overflow. -/
theorem generated_ne (workspaces : List Workspace) (current : UInt64) (k : Nat)
    (hcurrent : current.toNat + k < usizeEnd)
    (hroom : ∀ n ∈ numbersOf workspaces, n + 1 + k < usizeEnd) :
    ∀ workspace ∈ workspaces,
      generated (reserveWorkspaceIds workspaces current) k ≠ workspace.id := by
  intro workspace hmem
  obtain ⟨habove, hcounter⟩ := reserveWorkspaceIds_spec workspaces current (fun n hn => by
    have := hroom n hn
    omega)
  have hfits : (reserveWorkspaceIds workspaces current).toNat + k < usizeEnd := by
    rcases hcounter with heq | ⟨n, hn, heq⟩
    · omega
    · have := hroom n hn
      omega
  rw [generated_eq _ _ hfits]
  apply encode_ne_of_lt hfits _ hmem
  intro n hn
  have := habove n hn
  omega

end Herden.Proofs.PublicId
