import Mathlib.Data.List.AList
import Herden.Runtime.Key

/-!
# `Herden.Runtime.Lease`: which target holds which key

Embedding of `InputLeaseTable` (`runtime/src/input/lease.rs`). The table remembers, for each
input source and key, what became of the key's press: forwarded to a target, which must
later see the release, or consumed by the shell, with what to do about repeats.

The hash map is a Mathlib `AList`, a list of entries with distinct keys. The source visits
a hash map in no fixed order, so nothing below depends on the order of the entries beyond
the order of a returned list.
-/

namespace Herden.Runtime.Lease

open Herden.Runtime.Key

variable {Source Context Target : Type}

structure InputLeaseKey (Source : Type) where
  source : Source
  identity : KeyIdentity
deriving DecidableEq

def InputLeaseKey.new (source : Source) (key : TerminalKey) : InputLeaseKey Source where
  source := source
  identity := key.identity

/-- A press that arrived as text (typed, or committed by an IME) rather than as a native
key record. -/
def isTextPress (key : TerminalKey) : Bool :=
  key.generatedText.isSome && key.physicalKeyId.isNone

structure ForwardedInputLease (Target : Type) where
  target : Target
  key : TerminalKey
deriving DecidableEq

inductive ConsumedInputLease (Context : Type) where
  | reprocessRepeats (context : Context)
  | suppressRepeats
deriving DecidableEq

inductive InputLease (Context Target : Type) where
  | forwarded (lease : ForwardedInputLease Target)
  | consumed (lease : ConsumedInputLease Context)
deriving DecidableEq

inductive RepeatPlan (Context Target : Type) where
  | forwarded (target : Target)
  | reprocess (context : Context) (repetitions : UInt16) (tracked : Bool)
  | ignore

structure InputLeaseTable (Source Context Target : Type) where
  leases : AList (fun _ : InputLeaseKey Source => InputLease Context Target)

namespace InputLeaseTable

def default : InputLeaseTable Source Context Target := ⟨∅⟩

variable [DecidableEq Source] [DecidableEq Context] [DecidableEq Target]

def insertForwarded (self : InputLeaseTable Source Context Target) (key : InputLeaseKey Source)
    (target : Target) (original : TerminalKey) : InputLeaseTable Source Context Target :=
  ⟨self.leases.insert key (.forwarded ⟨target, original⟩)⟩

def insertConsumed (self : InputLeaseTable Source Context Target) (key : InputLeaseKey Source)
    (disposition : ConsumedInputLease Context) : InputLeaseTable Source Context Target :=
  ⟨self.leases.insert key (.consumed disposition)⟩

def normalizePress (self : InputLeaseTable Source Context Target)
    (leaseKey : InputLeaseKey Source) (key : TerminalKey) :
    InputLeaseTable Source Context Target × TerminalKey :=
  if key.kind ≠ .press || (key.generatedText.isSome && key.physicalKeyId.isNone) then
    (self, key)
  else if key.hasPhysicalIdentity && (self.leases.lookup leaseKey).isSome then
    (self, key.withKind .repeat)
  else (⟨self.leases.erase leaseKey⟩, key)

/-- What happens to a consumed press's repeats: they are processed again as long as the
press left the context as it was. -/
def disposition (initialContext resultingContext : Option Context) :
    ConsumedInputLease Context :=
  match initialContext, resultingContext with
  | some initial, some resulting =>
      if initial = resulting then .reprocessRepeats initial else .suppressRepeats
  | _, _ => .suppressRepeats

def completePress (self : InputLeaseTable Source Context Target)
    (leaseKey : InputLeaseKey Source) (key : TerminalKey)
    (initialContext resultingContext : Option Context) (target : Option Target) :
    InputLeaseTable Source Context Target × RepeatPlan Context Target :=
  if key.generatedText.isSome && !key.hasPhysicalIdentity then (self, .ignore)
  else
    match target with
    | some target => (self.insertForwarded leaseKey target key, .ignore)
    | none =>
        let self :=
          if (self.leases.lookup leaseKey).isSome then self
          else self.insertConsumed leaseKey (disposition initialContext resultingContext)
        match self.leases.lookup leaseKey with
        | some (.consumed (.reprocessRepeats context)) =>
            if key.repeatCount > 1 then
              (self, .reprocess context (key.repeatCount - 1) true)
            else (self, .ignore)
        | _ => (self, .ignore)

def planRepeat (self : InputLeaseTable Source Context Target)
    (leaseKey : InputLeaseKey Source) (key : TerminalKey) (currentContext : Option Context) :
    InputLeaseTable Source Context Target × RepeatPlan Context Target :=
  match self.leases.lookup leaseKey with
  | some (.forwarded lease) => (self, .forwarded lease.target)
  | some (.consumed (.reprocessRepeats context)) =>
      if currentContext = some context then (self, .reprocess context key.repeatCount true)
      else (self.insertConsumed leaseKey .suppressRepeats, .ignore)
  | some (.consumed .suppressRepeats) => (self, .ignore)
  | none =>
      match currentContext with
      | some context => (self, .reprocess context key.repeatCount false)
      | none => (self, .ignore)

def reprocessAllowed (self : InputLeaseTable Source Context Target)
    (leaseKey : InputLeaseKey Source) (expectedContext : Context)
    (currentContext : Option Context) (tracked : Bool) :
    InputLeaseTable Source Context Target × Bool :=
  let allowed : Bool := currentContext = some expectedContext
  if tracked && !allowed then (self.insertConsumed leaseKey .suppressRepeats, allowed)
  else (self, allowed)

def remove (self : InputLeaseTable Source Context Target) (key : InputLeaseKey Source) :
    InputLeaseTable Source Context Target × Option (InputLease Context Target) :=
  (⟨self.leases.erase key⟩, self.leases.lookup key)

/-- The forwarded text press from `source` when it is the only key held. -/
def removeSoleTextPress (self : InputLeaseTable Source Context Target) (source : Source) :
    InputLeaseTable Source Context Target × Option (InputLease Context Target) :=
  match self.leases.entries.filter (fun entry => entry.1.source = source) with
  | [⟨leaseKey, .forwarded lease⟩] =>
      if isTextPress lease.key then self.remove leaseKey else (self, none)
  | _ => (self, none)

/-- Remove some keys one after the other and return the forwarded leases among them. -/
def removeKeys (self : InputLeaseTable Source Context Target) :
    List (InputLeaseKey Source) →
    InputLeaseTable Source Context Target × List (ForwardedInputLease Target)
  | [] => (self, [])
  | key :: keys =>
      let removed := self.remove key
      let rest := removeKeys removed.1 keys
      match removed.2 with
      | some (.forwarded lease) => (rest.1, lease :: rest.2)
      | some (.consumed _) | none => rest

def removeSource (self : InputLeaseTable Source Context Target) (source : Source) :
    InputLeaseTable Source Context Target × List (ForwardedInputLease Target) :=
  self.removeKeys (self.leases.keys.filter (fun key => key.source = source))

def removeTarget (self : InputLeaseTable Source Context Target) (target : Target) :
    InputLeaseTable Source Context Target × List (ForwardedInputLease Target) :=
  self.removeKeys (self.leases.entries.filterMap fun entry =>
    match entry.2 with
    | .forwarded lease => if lease.target = target then some entry.1 else none
    | .consumed _ => none)

/-! ### The calls as one machine -/

inductive Op (Source Context Target : Type) where
  | normalizePress (leaseKey : InputLeaseKey Source) (key : TerminalKey)
  | completePress (leaseKey : InputLeaseKey Source) (key : TerminalKey)
      (initialContext resultingContext : Option Context) (target : Option Target)
  | planRepeat (leaseKey : InputLeaseKey Source) (key : TerminalKey)
      (currentContext : Option Context)
  | reprocessAllowed (leaseKey : InputLeaseKey Source) (expectedContext : Context)
      (currentContext : Option Context) (tracked : Bool)
  | remove (key : InputLeaseKey Source)
  | removeSoleTextPress (source : Source)
  | removeKeys (keys : List (InputLeaseKey Source))
  | removeSource (source : Source)
  | removeTarget (target : Target)

inductive Answer (Context Target : Type) where
  | key (key : TerminalKey)
  | plan (plan : RepeatPlan Context Target)
  | allowed (allowed : Bool)
  | lease (lease : Option (InputLease Context Target))
  | leases (leases : List (ForwardedInputLease Target))

def step (self : InputLeaseTable Source Context Target) :
    Op Source Context Target → InputLeaseTable Source Context Target × Answer Context Target
  | .normalizePress leaseKey key =>
      let result := self.normalizePress leaseKey key
      (result.1, .key result.2)
  | .completePress leaseKey key initialContext resultingContext target =>
      let result := self.completePress leaseKey key initialContext resultingContext target
      (result.1, .plan result.2)
  | .planRepeat leaseKey key currentContext =>
      let result := self.planRepeat leaseKey key currentContext
      (result.1, .plan result.2)
  | .reprocessAllowed leaseKey expectedContext currentContext tracked =>
      let result := self.reprocessAllowed leaseKey expectedContext currentContext tracked
      (result.1, .allowed result.2)
  | .remove key =>
      let result := self.remove key
      (result.1, .lease result.2)
  | .removeSoleTextPress source =>
      let result := self.removeSoleTextPress source
      (result.1, .lease result.2)
  | .removeKeys keys =>
      let result := self.removeKeys keys
      (result.1, .leases result.2)
  | .removeSource source =>
      let result := self.removeSource source
      (result.1, .leases result.2)
  | .removeTarget target =>
      let result := self.removeTarget target
      (result.1, .leases result.2)

end InputLeaseTable

end Herden.Runtime.Lease
