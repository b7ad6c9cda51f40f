import Herden.Lib.Skim

/-!
# `Herden.Runtime.Xtgettcap`: the tracker of capability queries with raw C1 bytes

Embedding of `C1XtgettcapQueryTracker` in `pane/xtgettcap.rs`. It frames DCS strings in the output
of a pane, replies to queries that a raw byte begins or ends, and notes where the terminal's own
reply is to be discarded. The loop of `observe` is that of `Lib.Skim`: the responses of a byte are
results of its step, and get their offset when they are stored.
-/

namespace Herden.Runtime.Xtgettcap

open Herden.Lib

abbrev Bytes := List UInt8

def ascii (text : String) : Bytes := text.toList.map fun ch => UInt8.ofNat ch.toNat

def esc : UInt8 := 0x1b

def can : UInt8 := 0x18

def sub : UInt8 := 0x1a

/-- The raw byte that ends a string. -/
def st : UInt8 := 0x9c

/-- The byte that ends a string behind an ESC. -/
def backslash : UInt8 := 0x5c

/-! ### Capabilities -/

def isAsciiHexdigit (byte : UInt8) : Bool :=
  (0x30 ≤ byte.toNat && byte.toNat ≤ 0x39) || (0x41 ≤ byte.toNat && byte.toNat ≤ 0x46)
    || (0x61 ≤ byte.toNat && byte.toNat ≤ 0x66)

def toAsciiUppercase (byte : UInt8) : UInt8 :=
  if 0x61 ≤ byte.toNat && byte.toNat ≤ 0x7a then byte - 0x20 else byte

/-- The value of a capability, which some capabilities do not have. -/
def xtgettcapValue (capHex : Bytes) : Option (Option Bytes) :=
  if capHex = ascii "5463" then some none
  else if capHex = ascii "524742" then some (some (ascii "8"))
  else if capHex = ascii "73657472676266" then
    some (some (ascii "\\E[38:2:%p1%d:%p2%d:%p3%dm"))
  else if capHex = ascii "73657472676262" then
    some (some (ascii "\\E[48:2:%p1%d:%p2%d:%p3%dm"))
  else if capHex = ascii "4D73" then some (some (ascii "\\E]52;%p1%s;%p2%s\\007"))
  else if capHex = ascii "5375" then some none
  else if capHex = ascii "536D756C78" then some (some (ascii "\\E[4:%p1%dm"))
  else if capHex = ascii "536574756C63" then
    some (some (ascii ("\\E[58:2::%p1%\x7b65536\x7d%/%d:%p1%\x7b256\x7d%/%\x7b255\x7d%&%d:"
      ++ "%p1%\x7b255\x7d%&%d%;m")))
  else none

def hexDigit (nibble : Nat) : UInt8 :=
  UInt8.ofNat (if nibble < 10 then 0x30 + nibble else 0x37 + nibble)

def appendUpperHex (bytes output : Bytes) : Bytes :=
  output ++ bytes.flatMap fun byte => [hexDigit (byte.toNat / 16), hexDigit (byte.toNat % 16)]

def buildXtgettcapResponse (capHex : Bytes) (value : Option Bytes) : Bytes :=
  let response := esc :: ascii "P1+r" ++ capHex
  let response :=
    match value with
    | some value => appendUpperHex value (response ++ ascii "=")
    | none => response
  response ++ [esc, backslash]

def xtgettcapResponse (capHex : Bytes) : Option Bytes :=
  if capHex.isEmpty || capHex.length % 2 ≠ 0 then none
  else if !capHex.all isAsciiHexdigit then none
  else
    let normalizedCapHex := capHex.map toAsciiUppercase
    (xtgettcapValue normalizedCapHex).map (buildXtgettcapResponse normalizedCapHex)

/-! ### The tracker -/

structure C1XtgettcapResponse where
  endOffset : Nat
  bytes : Bytes
  suppressNative : Bool
deriving DecidableEq

inductive C1XtgettcapTrackerState where
  | ground
  | escape
  | dcsIntro
  | dcsIntroPlus
  | dcsBody
  | dcsEscape
  | ignoreOsc
  | ignoreOscEscape
  | ignoreString
  | ignoreStringEscape
  | oversizedDcs
  | oversizedDcsEscape
deriving DecidableEq

/-- The fields of the tracker that a step reads. -/
structure Framing where
  state : C1XtgettcapTrackerState
  rawC1Intro : Bool
  nativeDcsPending : Bool
  body : Bytes
deriving DecidableEq

structure C1XtgettcapQueryTracker extends Framing where
  pending : List C1XtgettcapResponse
deriving DecidableEq

/-- What a step notes: the bytes of a response, or that the terminal's is to be discarded. -/
inductive Noted where
  | response (bytes : Bytes)
  | suppressNative
deriving DecidableEq

/-- ESC, CAN and SUB make the terminal leave a DCS. -/
def unhooks (byte : UInt8) : Bool := byte = esc || byte = can || byte = sub

def Noted.at (endOffset : Nat) : Noted → C1XtgettcapResponse
  | .response bytes => ⟨endOffset, bytes, false⟩
  | .suppressNative => ⟨endOffset, [], true⟩

namespace Framing

def maxBodyBytes : Nat := 1024

def finalize (self : Framing) : Framing × List Noted :=
  ({ self with body := [] },
    ((self.body.splitOn 0x3b).filterMap xtgettcapResponse).map .response)

/-- The match on the state. -/
def handle (self : Framing) (byte : UInt8) : Framing × List Noted :=
  match self.state with
  | .ground =>
      if byte = esc then ({ self with state := .escape }, [])
      else if byte = 0x90 then
        ({ self with body := [], rawC1Intro := true, state := .dcsIntro }, [])
      else if byte = 0x9d then ({ self with state := .ignoreOsc }, [])
      else if byte = 0x98 || byte = 0x9e || byte = 0x9f then
        ({ self with state := .ignoreString }, [])
      else (self, [])
  | .escape =>
      if byte = 0x50 then ({ self with rawC1Intro := false, body := [], state := .dcsIntro }, [])
      else if byte = 0x5d then ({ self with body := [], state := .ignoreOsc }, [])
      else if byte = 0x5f || byte = 0x5e || byte = 0x58 then
        ({ self with body := [], state := .ignoreString }, [])
      else if byte = esc then ({ self with state := .escape }, [])
      else ({ self with state := .ground }, [])
  | .dcsIntro =>
      if byte = 0x2b then ({ self with state := .dcsIntroPlus }, [])
      else if byte = esc then ({ self with state := .ignoreStringEscape }, [])
      else if byte = st then ({ self with state := .ground }, [])
      else ({ self with state := .ignoreString }, [])
  | .dcsIntroPlus =>
      if byte = 0x71 then ({ self with state := .dcsBody }, [])
      else if byte = esc then ({ self with state := .ignoreStringEscape }, [])
      else if byte = st then ({ self with state := .ground }, [])
      else ({ self with state := .ignoreString }, [])
  | .dcsBody =>
      if byte = esc then ({ self with state := .dcsEscape }, [])
      else if byte = st then
        let self := { self with nativeDcsPending := self.nativeDcsPending || !self.rawC1Intro }
        let (self, noted) := self.finalize
        ({ self with state := .ground }, noted)
      else ({ self with body := self.body ++ [byte] }, [])
  | .dcsEscape =>
      if byte = backslash then
        let (self, noted) :=
          if self.rawC1Intro then self.finalize else ({ self with body := [] }, [])
        ({ self with state := .ground }, noted)
      else if byte ≠ esc then ({ self with body := [], state := .ignoreString }, [])
      else (self, [])
  | .ignoreOsc =>
      if byte = esc then ({ self with state := .ignoreOscEscape }, [])
      else if byte = 0x07 || byte = st then ({ self with state := .ground }, [])
      else (self, [])
  | .ignoreOscEscape =>
      if byte = backslash then ({ self with state := .ground }, [])
      else if byte ≠ esc then ({ self with state := .ignoreOsc }, [])
      else (self, [])
  | .ignoreString =>
      if byte = esc then ({ self with state := .ignoreStringEscape }, [])
      else if byte = st then ({ self with state := .ground }, [])
      else (self, [])
  | .ignoreStringEscape =>
      if byte = backslash then ({ self with state := .ground }, [])
      else if byte ≠ esc then ({ self with state := .ignoreString }, [])
      else (self, [])
  | .oversizedDcs =>
      if byte = esc then ({ self with state := .oversizedDcsEscape }, [])
      else if byte = st then ({ self with state := .ground }, [])
      else (self, [])
  | .oversizedDcsEscape =>
      if byte = backslash then ({ self with state := .ground }, [])
      else if byte ≠ esc then ({ self with state := .oversizedDcs }, [])
      else (self, [])

/-- A dispatch is pending, and the byte ends the terminal's DCS. -/
def suppresses (self : Framing) (byte : UInt8) : Bool :=
  self.nativeDcsPending && unhooks byte

/-- One turn of the loop behind the jump. -/
def step (self : Framing) (byte : UInt8) : Framing × List Noted :=
  let suppressed := if self.suppresses byte then [.suppressNative] else []
  let self := { self with nativeDcsPending := self.nativeDcsPending && !self.suppresses byte }
  let (self, noted) := self.handle byte
  let self :=
    if maxBodyBytes < self.body.length then { self with body := [], state := .oversizedDcs }
    else self
  (self, suppressed ++ noted)

def skimmer : Skimmer Framing UInt8 Noted where
  step := step
  stops self :=
    if self.state = .ignoreString then
      some fun byte => (byte = esc || byte = st)
        || (self.nativeDcsPending && (byte = can || byte = sub))
    else none

end Framing

namespace C1XtgettcapQueryTracker

/-- `C1XtgettcapQueryTracker::default`. -/
def initial : C1XtgettcapQueryTracker := ⟨⟨.ground, false, false, []⟩, []⟩

def observe (self : C1XtgettcapQueryTracker) (bytes : Bytes) : C1XtgettcapQueryTracker :=
  let (framing, noted) := Framing.skimmer.skim self.toFraming bytes
  ⟨framing, self.pending ++ noted.map fun (index, noted) => noted.at (index + 1)⟩

def drainPending (self : C1XtgettcapQueryTracker) :
    List C1XtgettcapResponse × C1XtgettcapQueryTracker :=
  (self.pending, { self with pending := [] })

end C1XtgettcapQueryTracker

end Herden.Runtime.Xtgettcap
