import Herden.Lib.FixedWindow
import Herden.Lib.HashMap

/-!
# `Herden.Relay.RateLimit`: the fixed-window limiter

Embedding of `relay/src/rate-limit.js`. Times are whole milliseconds, as `Date.now` gives them. The
windows that have expired stay stored until one is started in a full table.
-/

namespace Herden.Relay.RateLimit

open Herden.Lib
open Herden.Lib.FixedWindow (Call Window)

/-- `WINDOW_MS`. -/
def defaultWindowMs : Int := 60000

/-- `MAX_ENTRIES`. -/
def defaultMaxEntries : Int := 10000

/-- What `createFixedWindowLimiter` closes over. -/
structure Limiter where
  windowMs : Int
  maxEntries : Int
  windows : HashMap String Window

inductive Verdict where
  | allowed
  | rejected (retryAfterSeconds : Int)
deriving DecidableEq

/-- `Math.ceil(ms / 1000)`. -/
def ceilSeconds (ms : Int) : Int := -(-ms / 1000)

def createFixedWindowLimiter (windowMs maxEntries : Int) : Limiter := ⟨windowMs, maxEntries, ∅⟩

namespace Limiter

def size (self : Limiter) : Nat := self.windows.entries.length

def prune (self : Limiter) (nowMs : Int) : Limiter :=
  { self with
    windows := self.windows.retain fun _ entry => !(self.windowMs ≤ nowMs - entry.start : Bool) }

/-- The branch of `check` for a key without a window, or with an expired one. -/
def startWindow (self : Limiter) (key : String) (limit nowMs : Int) : Verdict × Limiter :=
  let room := if self.maxEntries ≤ self.size then self.prune nowMs else self
  (if 1 ≤ limit then .allowed else .rejected (ceilSeconds self.windowMs),
    { room with windows := room.windows.insert key ⟨nowMs, 1⟩ })

/-- The branch of `check` for a key whose window is open. -/
def countRequest (self : Limiter) (key : String) (entry : Window) (limit nowMs : Int) :
    Verdict × Limiter :=
  let entry := { entry with count := entry.count + 1 }
  (if limit < entry.count then
      .rejected (max 1 (ceilSeconds (entry.start + self.windowMs - nowMs)))
    else .allowed,
    { self with windows := self.windows.insert key entry })

def check (self : Limiter) (key : String) (limit nowMs : Int) : Verdict × Limiter :=
  match self.windows.get key with
  | none => self.startWindow key limit nowMs
  | some entry =>
      if self.windowMs ≤ nowMs - entry.start then self.startWindow key limit nowMs
      else self.countRequest key entry limit nowMs

end Limiter

/-! ### Calls -/

/-- A call of `check` that has returned. -/
structure Served where
  call : Call String
  verdict : Verdict

/-- Calls with one limit, and the limiter after them. -/
def serve (check : Limiter → String → Int → Int → Verdict × Limiter) (limit : Int) :
    Limiter → List (Call String) → List Served × Limiter
  | self, [] => ([], self)
  | self, call :: rest =>
      let (verdict, next) := check self call.key limit call.time
      let (served, last) := serve check limit next rest
      (⟨call, verdict⟩ :: served, last)

end Herden.Relay.RateLimit
