import Mathlib.Data.List.Basic
import Herden.Lib.Scan

/-!
# `Herden.Runtime.Osc`: the trackers of OSC strings in pane output

Embedding of the trackers in `pane/osc.rs`. Each frames OSC strings with a state machine of its own
and looks at the bodies: `DefaultColorOscTracker` for default colors that are set,
`DefaultColorEventTracker` for all events of default colors, `OscStreamCollector` for whoever
receives bodies. The loops of their `observe` are that of `Lib.Scan`. The first two have the same
machine over the same states, so it is written once, with the body that a step ends as its result.
-/

namespace Herden.Runtime.Osc

open Herden.Lib

abbrev Bytes := List UInt8

def ascii (text : String) : Bytes := text.toList.map fun ch => UInt8.ofNat ch.toNat

def esc : UInt8 := 0x1b

def bel : UInt8 := 0x07

/-- The byte that ends a string behind an ESC. -/
def backslash : UInt8 := 0x5c

/-! ### Default colors -/

inductive DefaultColorQuery where
  | foreground
  | background
  | cursor
deriving DecidableEq

inductive DefaultColorEvent where
  | query (color : DefaultColorQuery)
  | set (color : DefaultColorQuery)
  | reset (color : DefaultColorQuery)
  | paletteQuery (index : UInt8)
deriving DecidableEq

structure DefaultColorTrackedEvent where
  endOffset : Nat
  event : DefaultColorEvent
deriving DecidableEq

def isAsciiDigit (byte : UInt8) : Bool := 0x30 ≤ byte.toNat && byte.toNat ≤ 0x39

/-- What is between `4;` and `;?`. -/
def paletteIndex (body : Bytes) : Option Bytes :=
  if (ascii "4;").isPrefixOf body then
    let rest := body.drop 2
    if (ascii ";?").isSuffixOf rest then some (rest.take (rest.length - 2)) else none
  else none

def parsePaletteColorQuery (body : Bytes) : Option DefaultColorEvent := do
  let index ← paletteIndex body
  if index.isEmpty || 3 < index.length || !index.all isAsciiDigit then none
  else
    let value := index.foldl (fun value digit => value * 10 + (digit.toNat - 0x30)) 0
    if 255 < value then none else some (.paletteQuery (UInt8.ofNat value))

def parseDefaultColorSetEvents (body : Bytes) : List DefaultColorEvent :=
  match body.findIdx? (· = 0x3b) with
  | none => []
  | some separator =>
      let start : Option Nat :=
        if body.take separator = ascii "10" then some 10
        else if body.take separator = ascii "11" then some 11
        else if body.take separator = ascii "12" then some 12
        else none
      match start with
      | none => []
      | some start =>
          (((body.drop (separator + 1)).splitOn 0x3b).filter (!·.isEmpty)).zipIdx.filterMap
            fun (value, offset) =>
              if value = ascii "?" then none
              else if start + offset = 10 then some (.set .foreground)
              else if start + offset = 11 then some (.set .background)
              else if start + offset = 12 then some (.set .cursor)
              else none

def parseDefaultColorEvents (body : Bytes) : List DefaultColorEvent :=
  let single : Option DefaultColorEvent :=
    if body = ascii "10;?" then some (.query .foreground)
    else if body = ascii "11;?" then some (.query .background)
    else if body = ascii "12;?" then some (.query .cursor)
    else if body = ascii "110" ∨ body = ascii "110;" then some (.reset .foreground)
    else if body = ascii "111" ∨ body = ascii "111;" then some (.reset .background)
    else parsePaletteColorQuery body
  match single with
  | some event => [event]
  | none => parseDefaultColorSetEvents body

def isDefaultColorSetOsc (body : Bytes) : Bool :=
  (parseDefaultColorEvents body).any fun event =>
    match event with
    | .set _ => true
    | _ => false

/-! ### The trackers of default colors -/

inductive DefaultColorOscTrackerState where
  | ground
  | escape
  | oscBody
  | oscEscape
  | ignoreString
  | ignoreStringEscape
  | oversizedOsc
  | oversizedOscEscape
deriving DecidableEq

structure DefaultColorOscTracker where
  state : DefaultColorOscTrackerState
  body : Bytes
deriving DecidableEq

/-- One of `P _ ^ X`. -/
def isIgnoredStringIntro (byte : UInt8) : Bool :=
  byte = 0x50 || byte = 0x5f || byte = 0x5e || byte = 0x58

namespace DefaultColorOscTracker

def initial : DefaultColorOscTracker := ⟨.ground, []⟩

def maxBodyBytes : Nat := 1024

/-- The match on the state, and the body that the byte ends. -/
def handle (self : DefaultColorOscTracker) (byte : UInt8) : DefaultColorOscTracker × Option Bytes :=
  match self.state with
  | .ground => if byte = esc then ({ self with state := .escape }, none) else (self, none)
  | .escape =>
      if byte = 0x5d then (⟨.oscBody, []⟩, none)
      else if isIgnoredStringIntro byte then (⟨.ignoreString, []⟩, none)
      else if byte = esc then ({ self with state := .escape }, none)
      else ({ self with state := .ground }, none)
  | .oscBody =>
      if byte = bel then (⟨.ground, []⟩, some self.body)
      else if byte = esc then ({ self with state := .oscEscape }, none)
      else ({ self with body := self.body ++ [byte] }, none)
  | .oscEscape =>
      if byte = backslash then (⟨.ground, []⟩, some self.body)
      else (⟨.oscBody, self.body ++ [esc, byte]⟩, none)
  | .ignoreString =>
      if byte = esc then ({ self with state := .ignoreStringEscape }, none) else (self, none)
  | .ignoreStringEscape =>
      if byte = backslash then ({ self with state := .ground }, none)
      else if byte ≠ esc then ({ self with state := .ignoreString }, none)
      else (self, none)
  | .oversizedOsc =>
      if byte = esc then ({ self with state := .oversizedOscEscape }, none)
      else if byte = bel then ({ self with state := .ground }, none)
      else (self, none)
  | .oversizedOscEscape =>
      if byte = backslash then ({ self with state := .ground }, none)
      else if byte ≠ esc then ({ self with state := .oversizedOsc }, none)
      else (self, none)

/-- One turn of the loop behind the jump. -/
def step (self : DefaultColorOscTracker) (byte : UInt8) : DefaultColorOscTracker × Option Bytes :=
  let (self, body) := self.handle byte
  if maxBodyBytes < self.body.length then (⟨.oversizedOsc, []⟩, body) else (self, body)

def scanner : Scanner DefaultColorOscTracker UInt8 Bytes where
  step := step
  skips self := self.state = .ground || self.state = .ignoreString
  marked byte := byte = esc

/-- `observe`: whether a default color was set. -/
def observe (self : DefaultColorOscTracker) (bytes : Bytes) : DefaultColorOscTracker × Bool :=
  let (self, bodies) := scanner.scan self bytes
  (self, bodies.any fun body => isDefaultColorSetOsc body.2)

end DefaultColorOscTracker

structure DefaultColorEventTracker where
  framing : DefaultColorOscTracker
  pending : List DefaultColorTrackedEvent
deriving DecidableEq

namespace DefaultColorEventTracker

/-- The events of a body, as `finalize` notes them. -/
def finalize (endOffset : Nat) (body : Bytes) : List DefaultColorTrackedEvent :=
  (parseDefaultColorEvents body).map fun event => ⟨endOffset, event⟩

def observe (self : DefaultColorEventTracker) (bytes : Bytes) : DefaultColorEventTracker :=
  let (framing, bodies) := DefaultColorOscTracker.scanner.scan self.framing bytes
  ⟨framing, self.pending ++ bodies.flatMap fun (index, body) => finalize (index + 1) body⟩

def drainPending (self : DefaultColorEventTracker) :
    List DefaultColorTrackedEvent × DefaultColorEventTracker :=
  (self.pending, { self with pending := [] })

end DefaultColorEventTracker

/-! ### The collector -/

inductive OscStreamState where
  | ground
  | escape
  | body
  | bodyEscape
  | ignoringString
  | ignoringStringEscape
  | discarding
  | discardingEscape
deriving DecidableEq

structure OscStreamCollector where
  state : OscStreamState
  body : Bytes

namespace OscStreamCollector

def initial : OscStreamCollector := ⟨.ground, []⟩

def maxBodyBytes : Nat := 4096

def push (self : OscStreamCollector) (byte : UInt8) : OscStreamCollector :=
  let body := self.body ++ [byte]
  if maxBodyBytes < body.length then ⟨.discarding, []⟩ else ⟨.body, body⟩

/-- `finish`, and the body that is received. -/
def finish (self : OscStreamCollector) : OscStreamCollector × Option Bytes :=
  (⟨.ground, []⟩, some self.body)

/-- One turn of the loop behind the jump. -/
def step (self : OscStreamCollector) (byte : UInt8) : OscStreamCollector × Option Bytes :=
  match self.state with
  | .ground => if byte = esc then ({ self with state := .escape }, none) else (self, none)
  | .escape =>
      if byte = 0x5d then (⟨.body, []⟩, none)
      else if byte = esc then ({ self with state := .escape }, none)
      else if isIgnoredStringIntro byte then ({ self with state := .ignoringString }, none)
      else ({ self with state := .ground }, none)
  | .body =>
      if byte = bel then self.finish
      else if byte = esc then ({ self with state := .bodyEscape }, none)
      else (self.push byte, none)
  | .bodyEscape =>
      if byte = backslash then self.finish
      else if byte = bel then
        let self := self.push esc
        if self.state = .body then self.finish else ({ self with state := .ground }, none)
      else if byte = esc then
        let self := self.push esc
        let state := match self.state with
          | .body => .bodyEscape
          | .discarding => .discardingEscape
          | state => state
        ({ self with state }, none)
      else
        let self := self.push esc
        if self.state = .body then (self.push byte, none) else (self, none)
  | .ignoringString =>
      if byte = esc then ({ self with state := .ignoringStringEscape }, none) else (self, none)
  | .ignoringStringEscape =>
      if byte = backslash then ({ self with state := .ground }, none)
      else if byte ≠ esc then ({ self with state := .ignoringString }, none)
      else (self, none)
  | .discarding =>
      if byte = bel then ({ self with state := .ground }, none)
      else if byte = esc then ({ self with state := .discardingEscape }, none)
      else (self, none)
  | .discardingEscape =>
      if byte = backslash then ({ self with state := .ground }, none)
      else if byte ≠ esc then ({ self with state := .discarding }, none)
      else (self, none)

def scanner : Scanner OscStreamCollector UInt8 Bytes where
  step := step
  skips self := self.state = .ground || self.state = .ignoringString
  marked byte := byte = esc

/-- `observe`, with the bodies that are received. -/
def observe (self : OscStreamCollector) (bytes : Bytes) : OscStreamCollector × List Bytes :=
  let (self, bodies) := scanner.scan self bytes
  (self, bodies.map Prod.snd)

end OscStreamCollector

end Herden.Runtime.Osc
