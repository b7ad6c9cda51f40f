import Herden.Runtime.Workspace

/-!
# `Herden.Runtime.PublicId`: public numbers and workspace ids

Embedding of the free functions of `runtime/src/workspace.rs` that write a public number as
text, read it back, and hand out workspace ids. `usize` has 64 bits. `NEXT_WORKSPACE_ID` is a
global counter that wraps; it is passed in and out. `reserve_workspace_ids` writes it in a
compare-and-exchange loop, which is one write when nothing else runs.
-/

namespace Herden.Runtime

/-- One past the largest `usize`. -/
def usizeEnd : Nat := 2 ^ 64

def checkedAdd (a b : Nat) : Option Nat := if a + b < usizeEnd then some (a + b) else none

def checkedMul (a b : Nat) : Option Nat := if a * b < usizeEnd then some (a * b) else none

def publicIdAlphabet : List Char := "123456789ABCDEFGHJKMNPQRSTVWXYZ0".toList

/-- The `while value > 0` loop of `encode_public_number`: the digits of `value`, the last one
first. The loop ends after at most `value` rounds, so `value` is enough fuel. -/
def encodeDigits : Nat → Nat → List Char
  | 0, _ => []
  | fuel + 1, value =>
      if value = 0 then []
      else
        publicIdAlphabet.getD ((value - 1) % publicIdAlphabet.length) '0' ::
          encodeDigits fuel ((value - 1) / publicIdAlphabet.length)

def encodePublicNumber (value : Nat) : String :=
  if value = 0 then "0" else String.ofList (encodeDigits value value).reverse

def decodeDigit (decoded : Nat) (ch : Char) : Option Nat := do
  let digit ← publicIdAlphabet.findIdx? (· = ch)
  let shifted ← checkedMul decoded publicIdAlphabet.length
  checkedAdd shifted (digit + 1)

def decodePublicNumber (value : String) : Option Nat := value.toList.foldlM decodeDigit 0

def publicWorkspaceNumber (id : String) : Option Nat :=
  match id.toList with
  | 'w' :: rest => decodePublicNumber (String.ofList rest)
  | _ => none

/-- The id, and the counter after the call. -/
def generateWorkspaceId (next : UInt64) : String × UInt64 :=
  ("w" ++ encodePublicNumber next.toNat, next + 1)

/-- The counter after the call. -/
def reserveWorkspaceIds (workspaces : List Workspace) (current : UInt64) : UInt64 :=
  match (workspaces.filterMap (fun workspace => publicWorkspaceNumber workspace.id)).max?.bind
      (fun max => checkedAdd max 1) with
  | none => current
  | some next => if current < UInt64.ofNat next then UInt64.ofNat next else current

end Herden.Runtime
