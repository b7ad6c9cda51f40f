import Herden.Lib.Base64
import Herden.Lib.Json
import Herden.Plugin.ActivityHook
import Mathlib.Algebra.GroupWithZero.Nat

/-!
# `Herden.Plugin.ActivityRequest`: what the Live Activity hook posts

Embedding of the request that `main` (`plugin/src/activity-hook.js`) puts together for one device,
with `plugin/src/activity-state.js`, `plugin/src/activity-envelope.js`, `plugin/src/seal-envelope.js`
and `plugin/src/display-text.js`.

An agent and a registration are given by those of their fields that are strings. `node:crypto` is a
parameter that knows only its lengths, and so is the reader of base64url keys. A JavaScript string is
a Lean one.
-/

namespace Herden.Plugin.ActivityRequest

open Herden.Lib
open Herden.Plugin.ActivityHook (Agent StatusMap PushEvent parseEligible eligibleStatusMap
  hasNewlyBlocked)

abbrev Bytes := List UInt8

/-- `Buffer.byteLength`. -/
def byteLength (text : Text) : Nat := (Text.utf8 text).length

/-- The `length` of a JavaScript string. -/
def utf16Length (text : String) : Nat :=
  (text.toList.map fun c => if c.toNat < 0x10000 then 1 else 2).sum

/-! ### Display text -/

def displayLimit : Nat := 80

def optionalText (value : Option String) : Option String := value.filter (· ≠ "")

/-- The white space and line ends of JavaScript. -/
def isSpace (c : Char) : Bool :=
  (Text.isWhitespace c && c.toNat != 0x85) || c.toNat == 0xfeff

def trimEnd (text : Text) : Text := text.rdropWhile isSpace

def forDisplay (value : Option String) : Option String :=
  (optionalText value).map fun text =>
    let graphemes := text.toList
    if graphemes.length ≤ displayLimit then text
    else String.ofList (trimEnd (graphemes.take (displayLimit - 1)) ++ ['…'])

/-- The first DNS label. -/
def shortHostName (hostname : String) : String :=
  (forDisplay (some (String.ofList (hostname.toList.takeWhile (· ≠ '.'))))).getD ""

/-! ### The state of the agents -/

/-- An entry of the agent list. -/
structure AgentEntry extends Agent where
  agent : Option String
  displayAgent : Option String
  name : Option String
  terminalTitle : Option String
  terminalTitleStripped : Option String
  workspaceId : Option String

structure Counts where
  working : Nat
  blocked : Nat
  done : Nat

/-- An agent as the envelope has it. -/
structure WireAgent where
  kind : String
  name : Option String
  pane : String
  status : String
  title : Option String
  workspace : Option String

structure Plaintext where
  agents : List WireAgent
  host : String
  v : Nat

def agentCap : Nat := 5

def statusRank (status : String) : Nat :=
  if status = "blocked" then 0 else if status = "done" then 1 else 2

def Counts.add (counts : Counts) (status : String) : Counts :=
  if status = "working" then { counts with working := counts.working + 1 }
  else if status = "blocked" then { counts with blocked := counts.blocked + 1 }
  else if status = "done" then { counts with done := counts.done + 1 }
  else counts

/-- The code units of a string, by which JavaScript compares. -/
def codeUnits (text : String) : List Nat :=
  text.toList.flatMap fun c =>
    if c.toNat < 0x10000 then [c.toNat]
    else [0xd800 + (c.toNat - 0x10000) / 0x400, 0xdc00 + (c.toNat - 0x10000) % 0x400]

structure Eligible where
  entry : AgentEntry
  pane : String
  status : String

def parsePinnedPaneIds (value : Option (List (Option String))) : List String :=
  match value with
  | none => []
  | some entries => if entries.all Option.isSome then entries.filterMap id else []

/-- Whether an agent may come before another: pinned ones in the order of their pins, by status,
then by pane. -/
def comesBefore (pins : List String) (left right : Eligible) : Bool :=
  if left.pane ∈ pins ∧ right.pane ∈ pins then
    decide (pins.idxOf left.pane ≤ pins.idxOf right.pane)
  else if left.pane ∈ pins ∨ right.pane ∈ pins then decide (left.pane ∈ pins)
  else if statusRank left.status ≠ statusRank right.status then
    decide (statusRank left.status < statusRank right.status)
  else !List.lex (codeUnits right.pane) (codeUnits left.pane) (fun a b => decide (a < b))

def wireAgent (workspaceLabels : HashMap String String) (eligible : Eligible) : WireAgent where
  kind := (optionalText eligible.entry.agent).getD "unknown"
  name := forDisplay
    ((optionalText eligible.entry.displayAgent).or (optionalText eligible.entry.name))
  pane := eligible.pane
  status := eligible.status
  title := forDisplay ((optionalText eligible.entry.terminalTitleStripped).or
    (optionalText eligible.entry.terminalTitle))
  workspace := forDisplay
    ((optionalText eligible.entry.workspaceId).bind workspaceLabels.get)

section

variable (toLowerCase : String → String)

def eligibleOf (entry : AgentEntry) : Option Eligible :=
  (parseEligible toLowerCase entry.toAgent).map fun found => ⟨entry, found.1, found.2⟩

def buildActivityState (agents : List AgentEntry) (hostName : String)
    (pinnedPaneIds : Option (List (Option String))) (workspaceLabels : HashMap String String) :
    Counts × Plaintext :=
  let eligible := agents.filterMap (eligibleOf toLowerCase)
  let counts := eligible.foldl (fun counts found => counts.add found.status) ⟨0, 0, 0⟩
  let sorted := eligible.mergeSort (comesBefore (parsePinnedPaneIds pinnedPaneIds))
  (counts,
    { agents := (sorted.take agentCap).map (wireAgent workspaceLabels)
      host := (forDisplay (some hostName)).getD ""
      v := 1 })

end

/-! ### The envelope -/

def envelopeVersion : Nat := 1

def keyBytes : Nat := 32

def nonceBytes : Nat := 12

def keyIdBytes : Nat := 8

def activityAad : Bytes := Text.utf8 "HERDR-ACTIVITY:1".toList

/-- `node:crypto`: SHA-256, and AES-256 in Galois counter mode with its tag of 16 bytes. -/
structure Crypto where
  sha256 : Bytes → Bytes
  sha256_length : ∀ bytes, (sha256 bytes).length = 32
  encrypt : (key nonce aad plaintext : Bytes) → Bytes
  encrypt_length : ∀ key nonce aad plaintext,
    (encrypt key nonce aad plaintext).length = plaintext.length
  authTag : (key nonce aad plaintext : Bytes) → Bytes
  authTag_length : ∀ key nonce aad plaintext, (authTag key nonce aad plaintext).length = 16

/-- `randomBytes(NONCE_BYTES)`. -/
structure Nonce where
  bytes : Bytes
  length : bytes.length = nonceBytes

/-- A raw Notification Key. -/
structure Key where
  bytes : Bytes
  length : bytes.length = keyBytes

def base64url (bytes : Bytes) : String :=
  String.ofList ((Base64.encodeChars bytes).map fun c =>
    if c = '+' then '-' else if c = '/' then '_' else c)

def deriveKeyId (crypto : Crypto) (key : Key) : String :=
  base64url ((crypto.sha256 key.bytes).take keyIdBytes)

/-- The envelope as a value. -/
def envelopeJson (kid n ct : String) : Json :=
  .obj [("v", .nat envelopeVersion), ("kid", .str kid), ("n", .str n), ("ct", .str ct)]

def sealEnvelope (crypto : Crypto) (plaintext : Text) (key : Key) (aad : Bytes) (nonce : Nonce) :
    Text :=
  let bytes := Text.utf8 plaintext
  let ciphertext := crypto.encrypt key.bytes nonce.bytes aad bytes
    ++ crypto.authTag key.bytes nonce.bytes aad bytes
  Json.stringify (envelopeJson (deriveKeyId crypto key) (base64url nonce.bytes)
    (base64url ciphertext))

/-- A member that is left out when it is empty. -/
def optionalMember (key : String) (value : Option String) : List (String × Json) :=
  match optionalText value with
  | some text => [(key, .str text)]
  | none => []

def WireAgent.json (agent : WireAgent) : Json :=
  .obj ([("kind", .str agent.kind)] ++ optionalMember "name" agent.name
    ++ [("pane", .str agent.pane), ("status", .str agent.status)]
    ++ optionalMember "title" agent.title ++ optionalMember "workspace" agent.workspace)

def canonicalActivityPlaintext (plaintext : Plaintext) : Text :=
  Json.stringify (.obj [("agents", .arr (plaintext.agents.map WireAgent.json)),
    ("host", .str plaintext.host), ("v", .nat plaintext.v)])

def encryptActivityEnvelope (crypto : Crypto) (plaintext : Plaintext) (key : Key) (nonce : Nonce) :
    Text :=
  sealEnvelope crypto (canonicalActivityPlaintext plaintext) key activityAad nonce

/-! ### The devices -/

/-- `live_activity` of a registration. -/
structure LiveActivity where
  token : Option String
  env : Option String
  pinnedPaneIds : Option (List (Option String))

/-- An entry of `notifications.json`. -/
structure Registration where
  liveActivity : Option LiveActivity
  env : Option String
  key : Option String

structure Device where
  token : String
  env : String
  key : Key
  pinnedPaneIds : Option (List (Option String))

/-- `/^[0-9a-f]{16,200}$/`. -/
def matchesTokenPattern (token : String) : Bool :=
  16 ≤ token.length && token.length ≤ 200
    && token.toList.all fun c => c.isDigit || ('a' ≤ c && c ≤ 'f')

def isApnsEnvironment (env : String) : Bool := env = "production" || env = "sandbox"

section

variable (fromBase64url : String → Bytes)

def readActivityDevice (entry : Registration) : Option Device := do
  let live ← entry.liveActivity
  let token ← live.token.filter matchesTokenPattern
  let env ← ((live.env.filter isApnsEnvironment).or entry.env).filter isApnsEnvironment
  let key ← entry.key.map fromBase64url
  if h : key.length = keyBytes then some ⟨token, env, ⟨key, h⟩, live.pinnedPaneIds⟩ else none

/-- The devices of a file with version 1, `none` for any other. -/
def readActivityDevices (file : Option (List Registration)) : List Device :=
  (file.getD []).filterMap (readActivityDevice fromBase64url)

end

/-! ### The request -/

def ctBudget : Nat := 2800

def apnsPayloadBudget : Nat := 4096

def relayRequestBudget : Nat := 8192

def staleAfterSeconds : Nat := 900

def eventText : PushEvent → String
  | .update => "update"
  | .ended => "end"

structure Request where
  event : PushEvent
  priority : Nat
  timestamp : Nat
  counts : Counts

def Counts.json (counts : Counts) : Json :=
  .obj [("working", .nat counts.working), ("blocked", .nat counts.blocked),
    ("done", .nat counts.done)]

def dropTitles (plaintext : Plaintext) : Plaintext :=
  { plaintext with
    agents := plaintext.agents.map fun agent =>
      { agent with name := none, title := none, workspace := optionalText agent.workspace } }

def emptyAgents (plaintext : Plaintext) : Plaintext := { plaintext with agents := [] }

def plaintextAtStep (plaintext : Plaintext) (step : Nat) : Plaintext :=
  if step = 0 then plaintext else if step = 1 then dropTitles plaintext else emptyAgents plaintext

/-- Apple's date for the event: when an update gets stale, or when an ended activity goes. -/
def dateMember (stale dismissal : String) (event : PushEvent) (timestamp : Nat) : String × Json :=
  match event with
  | .update => (stale, .nat (timestamp + staleAfterSeconds))
  | .ended => (dismissal, .nat timestamp)

def apnsJson (envelope : Json) (request : Request) : Json :=
  .obj [("aps", .obj [("timestamp", .nat request.timestamp),
    ("event", .str (eventText request.event)),
    ("content-state", .obj [("counts", request.counts.json), ("envelope", envelope)]),
    dateMember "stale-date" "dismissal-date" request.event request.timestamp])]

/-- `none` where `JSON.parse` throws. -/
def projectedApnsBytes (envelope : Text) (request : Request) : Option Nat :=
  (Json.parse envelope).map fun parsed => byteLength (Json.stringify (apnsJson parsed request))

def relayBody (device : Device) (request : Request) (envelope : Text) : Json :=
  .obj [("kind", .str "liveactivity"), ("token", .str device.token), ("env", .str device.env),
    ("event", .str (eventText request.event)), ("priority", .nat request.priority),
    ("timestamp", .nat request.timestamp), ("counts", request.counts.json),
    ("envelope", .str (String.ofList envelope)),
    dateMember "stale_date" "dismissal_date" request.event request.timestamp]

def envelopeFits (device : Device) (request : Request) (envelope : Text) : Bool :=
  match Json.parse envelope with
  | none => false
  | some parsed =>
      (parsed.getStr "ct").all (fun ct => decide (utf16Length ct ≤ ctBudget))
        && (projectedApnsBytes envelope request).any
            (fun bytes => decide (bytes ≤ apnsPayloadBudget))
        && decide (byteLength (Json.stringify (relayBody device request envelope))
          ≤ relayRequestBudget)

section

variable (crypto : Crypto) (nonces : Nat → Nonce)

/-- The envelope of a step, sealed with the next nonce. -/
def sealAtStep (plaintext : Plaintext) (device : Device) (step : Nat) : Text :=
  encryptActivityEnvelope crypto (plaintextAtStep plaintext step) device.key (nonces step)

/-- The loop of `sealFitting`, with so many steps left. -/
def sealFittingFrom (plaintext : Plaintext) (device : Device) (request : Request) :
    (remaining step : Nat) → Text × Nat
  | 0, step => (sealAtStep crypto nonces plaintext device step, step)
  | remaining + 1, step =>
      let envelope := sealAtStep crypto nonces plaintext device step
      if envelopeFits device request envelope then (envelope, step)
      else sealFittingFrom plaintext device request remaining (step + 1)

def sealFitting (plaintext : Plaintext) (device : Device) (request : Request) : Text × Nat :=
  sealFittingFrom crypto nonces plaintext device request 2 0

end

/-! ### Putting it together -/

section

variable (toLowerCase : String → String)

/-- What `main` is about to send to a device. -/
def contentFor (agents : List AgentEntry) (previous : Option StatusMap) (timestamp : Nat)
    (hostname : String) (workspaceLabels : HashMap String String) (device : Device) :
    Request × Plaintext :=
  let statuses := eligibleStatusMap toLowerCase (agents.map AgentEntry.toAgent)
  let event : PushEvent := if statuses.entries.isEmpty then .ended else .update
  let priority := if hasNewlyBlocked statuses previous then 10 else 5
  let hostName := shortHostName hostname
  let (counts, plaintext) :=
    buildActivityState toLowerCase agents hostName device.pinnedPaneIds workspaceLabels
  match event with
  | .ended => (⟨event, priority, timestamp, ⟨0, 0, 0⟩⟩, ⟨[], plaintext.host, 1⟩)
  | .update => (⟨event, priority, timestamp, counts⟩, plaintext)

end

/-- The envelope of the first body `deliver` posts. -/
def firstEnvelope (crypto : Crypto) (nonces : Nat → Nonce) (device : Device)
    (content : Request × Plaintext) : Text :=
  (sealFitting crypto nonces content.2 device content.1).1

/-- The first body `deliver` posts. -/
def firstBody (crypto : Crypto) (nonces : Nat → Nonce) (device : Device)
    (content : Request × Plaintext) : Text :=
  Json.stringify (relayBody device content.1 (firstEnvelope crypto nonces device content))

end Herden.Plugin.ActivityRequest
