import Herden.Lib.Json

/-!
# `Herden.Relay.Worker`: the relay's check of a Live Activity push

Embedding of the Live Activity half of `relay/src/worker.js`: `validateActivity`,
`buildLiveActivityApnsBody`, and the limits that `fetch` puts on the request and on the payload.
Rate limits, the provider token and Apple's answer are left out, and a body of another kind goes its
own way.
-/

namespace Herden.Relay.Worker

open Herden.Lib

def maxApnsPayloadBytes : Nat := 4096

def maxRequestBytes : Nat := 8192

def timestampPastSeconds : Int := 86400

def timestampFutureSeconds : Int := 300

def countMax : Int := 999

/-- `encoder.encode(text).byteLength`. -/
def encodedLength (text : Text) : Nat := (Text.utf8 text).length

/-- `TOKEN_PATTERN`: lowercase hex, not pinned to one length. -/
def tokenPattern (token : String) : Bool :=
  token.toList.all (fun c => c.isDigit || ('a' ≤ c && c ≤ 'f'))
    && (16 ≤ token.length && token.length ≤ 200)

structure Counts where
  working : Int
  blocked : Int
  done : Int

structure Activity where
  token : String
  environment : String
  event : String
  priority : Int
  timestamp : Int
  staleDate : Option Int
  dismissalDate : Option Int
  counts : Counts
  envelope : String

/-! ### Validation -/

/-- A count of the body, an integer within its bounds. -/
def validCount (counts : Json) (key : String) : Option Int :=
  ((counts.get key).bind Json.toInt).filter fun value => 0 ≤ value && value ≤ countMax

/-- `validCounts`, and the counts: exactly these three keys. -/
def validCounts (counts : Json) : Option Counts :=
  match counts with
  | .obj members =>
      if members.length = 3 then do
        let working ← validCount counts "working"
        let blocked ← validCount counts "blocked"
        let done ← validCount counts "done"
        some ⟨working, blocked, done⟩
      else none
  | _ => none

def validTimestamp (nowSeconds timestamp : Int) : Bool :=
  0 < timestamp && nowSeconds - timestampPastSeconds ≤ timestamp
    && timestamp ≤ nowSeconds + timestampFutureSeconds

/-- A date that may be missing. -/
def optionalDate (value : Option Json) (valid : Int → Bool) (error : String) :
    Except String (Option Int) :=
  match value with
  | none => .ok none
  | some value =>
      match value.toInt.filter valid with
      | some date => .ok (some date)
      | none => .error error

/-- The value, or the error for a missing one. -/
def require {α : Type} (value : Option α) (error : String) : Except String α :=
  match value with
  | some value => .ok value
  | none => .error error

def isObject : Json → Bool
  | .obj _ => true
  | _ => false

def validateActivity (body : Json) (nowSeconds : Int) : Except String Activity := do
  let _ ← require (if isObject body then some () else none) "bad_json"
  let token ← require ((body.getStr "token").filter tokenPattern) "bad_token"
  let environment ← require
    ((body.getStr "env").filter fun env => env = "production" || env = "sandbox") "bad_env"
  let event ← require
    ((body.getStr "event").filter fun event => event = "update" || event = "end") "bad_event"
  let priority ← require
    (((body.get "priority").bind Json.toInt).filter fun priority => priority = 5 || priority = 10)
    "bad_priority"
  let timestamp ← require
    (((body.get "timestamp").bind Json.toInt).filter (validTimestamp nowSeconds)) "bad_timestamp"
  let staleDate ← optionalDate (body.get "stale_date") (fun date => timestamp < date)
    "bad_stale_date"
  let dismissalDate ← optionalDate (body.get "dismissal_date") (fun _ => event = "end")
    "bad_dismissal_date"
  let counts ← require ((body.get "counts").bind validCounts) "bad_counts"
  let _ ← require (if priority = 10 ∧ counts.blocked < 1 then none else some ()) "bad_priority"
  let envelope ← require ((body.getStr "envelope").filter (· ≠ "")) "bad_envelope"
  let _ ← require (if (body.get "collapse").isSome then none else some ()) "bad_collapse"
  return ⟨token, environment, event, priority, timestamp, staleDate, dismissalDate, counts,
    envelope⟩

/-! ### The body for Apple -/

def Counts.json (counts : Counts) : Json :=
  .obj [("working", .num ⟨counts.working, 0⟩), ("blocked", .num ⟨counts.blocked, 0⟩),
    ("done", .num ⟨counts.done, 0⟩)]

/-- A member with a date, if there is one. -/
def dateText (start : String) : Option Int → Text
  | none => []
  | some date => start.toList ++ Json.integerText date

/-- The envelope goes into the text as it is. -/
def buildLiveActivityApnsBody (activity : Activity) : Text :=
  let aps := "\"timestamp\":".toList ++ Json.integerText activity.timestamp ++ ",\"event\":".toList
    ++ Json.stringify (.str activity.event) ++ ",\"content-state\":\x7b\"counts\":".toList
    ++ Json.stringify activity.counts.json ++ ",\"envelope\":".toList ++ activity.envelope.toList
    ++ "\x7d".toList
  let aps := aps ++ dateText ",\"stale-date\":" activity.staleDate
  let aps := aps ++ dateText ",\"dismissal-date\":" activity.dismissalDate
  "\x7b\"aps\":\x7b".toList ++ aps ++ "\x7d\x7d".toList

/-! ### A request -/

/-- What becomes of a request. -/
inductive Reply where
  | refused (status : Nat) (error : String)
  | forwarded (activity : Activity) (apnsBody : Text)
  /-- Handed to the alert path. -/
  | alert (body : Json)

def receive (bodyText : Text) (nowMs : Nat) : Reply :=
  if maxRequestBytes < encodedLength bodyText then .refused 413 "request_too_large"
  else
    match Json.parse bodyText with
    | none => .refused 400 "bad_json"
    | some parsed =>
        if parsed.getStr "kind" = some "liveactivity" then
          match validateActivity parsed (nowMs / 1000 : Nat) with
          | .error error => .refused 400 error
          | .ok activity =>
              let apnsBody := buildLiveActivityApnsBody activity
              if maxApnsPayloadBytes < encodedLength apnsBody then
                .refused 413 "payload_too_large"
              else .forwarded activity apnsBody
        else .alert parsed

end Herden.Relay.Worker
