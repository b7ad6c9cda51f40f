import Herden.Plugin.ActivityRequest
import Herden.Relay.Worker

/-!
# `Herden.Proofs.ActivityRequest`: the relay takes what the Live Activity hook posts

The hook and the relay check one request in two programs. Whatever the agents are, the first body the
hook posts for a device passes the relay's checks, and the hook's forecast of the payload's size is
exact (`receive_firstBody`).

The forecast is exact because both programs write the same text: the envelope is compact JSON, so
reading it and writing it again gives it back. The limits hold because `sealFitting` tries them on
every step but the last, and at the last step, without agents, only the host name is left.
-/

namespace Herden.Proofs.ActivityRequest

open Herden.Lib
open Herden.Plugin.ActivityHook (PushEvent StatusMap)
open Herden.Plugin.ActivityRequest
open Herden.Relay.Worker (receive validateActivity buildLiveActivityApnsBody)

/-! ### Sizes -/

theorem byteLength_eq_utf8Len (text : Text) : byteLength text = String.utf8Len text := by
  rw [← String.utf8ByteSize_ofList]
  simp [byteLength, Text.utf8, String.utf8ByteSize]

@[simp] theorem byteLength_nil : byteLength [] = 0 := by
  rw [byteLength_eq_utf8Len]
  rfl

theorem byteLength_append (left right : Text) :
    byteLength (left ++ right) = byteLength left + byteLength right := by
  simp only [byteLength_eq_utf8Len, String.utf8Len_append]

theorem byteLength_cons (c : Char) (rest : Text) :
    byteLength (c :: rest) = c.utf8Size + byteLength rest := by
  rw [byteLength_eq_utf8Len, byteLength_eq_utf8Len, String.utf8Len_cons, Nat.add_comm]

theorem byteLength_escape_le (c : Char) : byteLength (Json.escape c) ≤ 6 := by
  have hsize := c.utf8Size_le_four
  have hhex : ∀ d < 16, (Json.hexDigit d).utf8Size = 1 := by decide
  unfold Json.escape
  repeat' split
  all_goals simp only [byteLength_cons, byteLength_nil]
  all_goals try decide
  · rename_i hcontrol
    rw [hhex (c.toNat / 16) (by omega), hhex (c.toNat % 16) (by omega)]
    decide
  · omega

theorem byteLength_quote_le (text : String) :
    byteLength (Json.quote text) ≤ 6 * text.toList.length + 2 := by
  have hescaped : ∀ chars : Text, byteLength (chars.flatMap Json.escape) ≤ 6 * chars.length := by
    intro chars
    induction chars with
    | nil => rfl
    | cons c chars ih =>
      have hc := byteLength_escape_le c
      rw [List.flatMap_cons, byteLength_append, List.length_cons]
      omega
  have hmarks : '"'.utf8Size = 1 := rfl
  have htext := hescaped text.toList
  unfold Json.quote
  rw [byteLength_cons, byteLength_append, byteLength_cons, byteLength_nil, hmarks]
  omega

theorem byteLength_decimal_le {n digits : Nat} (hpos : 0 < digits) (h : n < 10 ^ digits) :
    byteLength (Json.decimal n) ≤ digits := by
  have hlength : (Json.decimal n).length ≤ digits :=
    (Nat.length_toDigits_le_iff (by omega) hpos).mpr h
  have hdigit : ∀ c ∈ Json.decimal n, c.utf8Size = 1 :=
    IpAddr.forall_mem_toDigits (by omega) (by decide) n
  have hsize : ∀ text : Text, (∀ c ∈ text, c.utf8Size = 1) → byteLength text = text.length := by
    intro text htext
    induction text with
    | nil => rfl
    | cons c text ih =>
      rw [byteLength_cons, htext c List.mem_cons_self,
        ih (fun other hother => htext other (List.mem_cons_of_mem _ hother)), List.length_cons,
        Nat.add_comm]
  rw [hsize _ hdigit]
  exact hlength

theorem length_le_byteLength (text : Text) : text.length ≤ byteLength text := by
  induction text with
  | nil => rfl
  | cons c rest ih =>
    have hsize := c.utf8Size_pos
    rw [byteLength_cons, List.length_cons]
    omega

/-- The size of an object, with room for the marks between its members. -/
def membersSize (members : List (String × Json)) : Nat :=
  (members.map fun member =>
    byteLength (Json.quote member.1) + byteLength (Json.stringify member.2) + 2).sum

theorem membersSize_nil : membersSize [] = 0 := rfl

theorem membersSize_cons (key : String) (value : Json) (members : List (String × Json)) :
    membersSize ((key, value) :: members)
      = byteLength (Json.quote key) + byteLength (Json.stringify value) + 2 + membersSize members :=
  rfl

theorem stringify_str (text : String) : Json.stringify (.str text) = Json.quote text := by
  rw [Json.stringify]

theorem stringify_nat (n : Nat) : Json.stringify (.nat n) = Json.decimal n := by
  rw [Json.nat, Json.stringify, Json.numberText, if_pos rfl]
  rfl

theorem byteLength_membersText (members : List (String × Json)) :
    byteLength (Json.membersText members) = membersSize members + 1 := by
  induction members with
  | nil => rfl
  | cons member members ih =>
    obtain ⟨key, value⟩ := member
    have hmarks : ','.utf8Size = 1 ∧ ':'.utf8Size = 1 := ⟨rfl, rfl⟩
    rw [Json.membersText, byteLength_cons, byteLength_append, byteLength_cons, byteLength_append,
      ih,
      hmarks.1, hmarks.2, membersSize_cons]
    omega

theorem byteLength_stringify_obj_le (members : List (String × Json)) :
    byteLength (Json.stringify (.obj members)) ≤ membersSize members + 2 := by
  cases members with
  | nil => exact Nat.le_refl _
  | cons member members =>
    obtain ⟨key, value⟩ := member
    have hmarks : '\x7b'.utf8Size = 1 ∧ ':'.utf8Size = 1 := ⟨rfl, rfl⟩
    rw [Json.stringify, byteLength_cons, byteLength_append, byteLength_cons, byteLength_append,
      byteLength_membersText, hmarks.1, hmarks.2, membersSize_cons]
    omega

/-! ### The envelope -/

theorem reads_envelopeJson (kid n ct : String) : Json.Reads (envelopeJson kid n ct) := by
  refine Json.reads_obj (show ["v", "kid", "n", "ct"].Nodup by decide) ?_
  intro member hmember
  simp only [List.mem_cons, List.not_mem_nil, or_false] at hmember
  rcases hmember with rfl | rfl | rfl | rfl
  · exact Json.reads_nat _
  · exact Json.reads_str _
  · exact Json.reads_str _
  · exact Json.reads_str _

/-- A sealed envelope is the text of a value that holds the ciphertext. -/
theorem exists_sealEnvelope (crypto : Crypto) (plaintext : Text) (key : Key) (aad : Bytes)
    (nonce : Nonce) :
    ∃ kid n ct : Bytes, sealEnvelope crypto plaintext key aad nonce
        = Json.stringify (envelopeJson (base64url kid) (base64url n) (base64url ct))
      ∧ kid.length = 8 ∧ n.length = 12 ∧ ct.length = byteLength plaintext + 16 := by
  refine ⟨(crypto.sha256 key.bytes).take keyIdBytes, nonce.bytes, _, rfl, ?_, nonce.length, ?_⟩
  · rw [List.length_take, crypto.sha256_length]
    rfl
  · rw [List.length_append, crypto.encrypt_length, crypto.authTag_length]
    rfl

theorem escape_of_mem_base64url (bytes : Bytes) :
    ∀ c ∈ (base64url bytes).toList, Json.escape c = [c] ∧ c.toNat < 0x80 := by
  have halphabet : Base64.alphabet.all (fun c =>
      let c := if c = '+' then '-' else if c = '/' then '_' else c
      Json.escape c = [c] ∧ c.toNat < 0x80) = true := by decide
  intro c hc
  unfold base64url at hc
  rw [String.toList_ofList] at hc
  obtain ⟨symbol, hsymbol, rfl⟩ := List.mem_map.mp hc
  exact of_decide_eq_true (List.all_eq_true.mp halphabet symbol
    (Base64.mem_alphabet_of_mem_encodeChars bytes symbol hsymbol))

theorem length_base64url_le (bytes : Bytes) :
    (base64url bytes).toList.length ≤ bytes.length / 3 * 4 + 3 := by
  unfold base64url
  rw [String.toList_ofList, List.length_map, Base64.length_encodeChars]
  split <;> omega

theorem byteLength_quote_base64url_le (bytes : Bytes) :
    byteLength (Json.quote (base64url bytes)) ≤ bytes.length / 3 * 4 + 5 := by
  have hescaped : ∀ chars : Text, (∀ c ∈ chars, Json.escape c = [c] ∧ c.toNat < 0x80) →
      byteLength (chars.flatMap Json.escape) = chars.length := by
    intro chars hchars
    induction chars with
    | nil => rfl
    | cons c chars ih =>
      obtain ⟨hescape, hascii⟩ := hchars c List.mem_cons_self
      have hsize : c.utf8Size = 1 := 
        Char.utf8Size_eq_one_iff.mpr (UInt32.le_iff_toNat_le.mpr (Nat.le_of_lt_succ hascii))
      rw [List.flatMap_cons, hescape, byteLength_append, byteLength_cons, byteLength_nil, hsize,
        ih (fun other hother => hchars other (List.mem_cons_of_mem _ hother)), List.length_cons,
        Nat.add_zero, Nat.add_comm]
  have hmark : '"'.utf8Size = 1 := rfl
  have hlength := length_base64url_le bytes
  unfold Json.quote
  rw [byteLength_cons, byteLength_append, byteLength_cons, byteLength_nil, hmark,
    hescaped _ (escape_of_mem_base64url bytes)]
  omega

theorem utf16Length_base64url_le (bytes : Bytes) :
    utf16Length (base64url bytes) ≤ bytes.length / 3 * 4 + 3 := by
  have hunits : ∀ chars : Text, (∀ c ∈ chars, Json.escape c = [c] ∧ c.toNat < 0x80) →
      (chars.map fun c => if c.toNat < 0x10000 then 1 else 2).sum = chars.length := by
    intro chars hchars
    induction chars with
    | nil => rfl
    | cons c chars ih =>
      have hascii := (hchars c List.mem_cons_self).2
      rw [List.map_cons, List.sum_cons, if_pos (by omega),
        ih (fun other hother => hchars other (List.mem_cons_of_mem _ hother)), List.length_cons,
        Nat.add_comm]
  unfold utf16Length
  rw [hunits _ (escape_of_mem_base64url bytes)]
  exact length_base64url_le bytes

/-! ### Host names -/

theorem length_forDisplay {value : Option String} {text : String}
    (h : forDisplay value = some text) :
    text.toList.length ≤ displayLimit := by
  unfold forDisplay at h
  obtain ⟨given, -, hgiven⟩ := Option.map_eq_some_iff.mp h
  dsimp only at hgiven
  split at hgiven
  · rename_i hshort
    rw [← hgiven]
    exact hshort
  · have htrim : (trimEnd (given.toList.take (displayLimit - 1))).length ≤ displayLimit - 1 := by
      have hsublist :=
          (List.rdropWhile_prefix isSpace (given.toList.take (displayLimit - 1))).length_le
      have htake := List.length_take_le (displayLimit - 1) given.toList
      unfold trimEnd
      omega
    have hlimit : displayLimit = 80 := rfl
    rw [← hgiven, String.toList_ofList, List.length_append, List.length_singleton]
    omega

theorem length_host (value : Option String) :
    ((forDisplay value).getD "").toList.length ≤ displayLimit := by
  cases h : forDisplay value with
  | none => exact Nat.zero_le _
  | some text => exact length_forDisplay h

/-! ### The last step -/

/-- Without agents little more than the host name is left. -/
theorem byteLength_canonical_emptyAgents {plaintext : Plaintext}
    (hhost : plaintext.host.toList.length ≤ displayLimit) (hv : plaintext.v = 1) :
    byteLength (canonicalActivityPlaintext (emptyAgents plaintext)) ≤ 570 := by
  have hlimit : displayLimit = 80 := rfl
  have hsize := byteLength_stringify_obj_le [("agents", .arr []), ("host", .str plaintext.host),
    ("v", .nat 1)]
  have hquote := byteLength_quote_le plaintext.host
  have hagents : byteLength (Json.quote "agents") ≤ 38 := byteLength_quote_le "agents"
  have hkey : byteLength (Json.quote "host") ≤ 26 := byteLength_quote_le "host"
  have hversion : byteLength (Json.quote "v") ≤ 8 := byteLength_quote_le "v"
  have hone : byteLength (Json.decimal 1) ≤ 1 := byteLength_decimal_le (by omega) (by omega)
  have hempty : byteLength (Json.stringify (.arr [])) = 2 := rfl
  simp only [membersSize_cons, membersSize_nil, hempty, stringify_str, stringify_nat] at hsize
  unfold canonicalActivityPlaintext emptyAgents
  rw [hv, List.map_nil]
  dsimp only
  omega

/-- The size of an envelope, from that of its ciphertext. -/
theorem byteLength_envelopeJson_le {kid n ct : Bytes} (hkid : kid.length = 8) (hn : n.length = 12) :
    byteLength (Json.stringify (envelopeJson (base64url kid) (base64url n) (base64url ct)))
      ≤ ct.length / 3 * 4 + 100 := by
  have hsize := byteLength_stringify_obj_le [("v", .nat envelopeVersion),
    ("kid", .str (base64url kid)), ("n", .str (base64url n)), ("ct", .str (base64url ct))]
  have hkidSize := byteLength_quote_base64url_le kid
  have hnSize := byteLength_quote_base64url_le n
  have hctSize := byteLength_quote_base64url_le ct
  have hkeys : byteLength (Json.quote "v") ≤ 8 ∧ byteLength (Json.quote "kid") ≤ 20
      ∧ byteLength (Json.quote "n") ≤ 8 ∧ byteLength (Json.quote "ct") ≤ 14 :=
    ⟨byteLength_quote_le "v", byteLength_quote_le "kid", byteLength_quote_le "n",
      byteLength_quote_le "ct"⟩
  have hone : byteLength (Json.decimal envelopeVersion) ≤ 1 :=
    byteLength_decimal_le (by omega) (by decide)
  simp only [membersSize_cons, membersSize_nil, stringify_str, stringify_nat] at hsize
  unfold envelopeJson
  omega

/-- A request with numbers of a size that the hook and the relay can have. -/
structure Request.Bounded (request : Request) : Prop where
  priority : request.priority < 10 ^ 2
  timestamp : request.timestamp + staleAfterSeconds < 10 ^ 13
  working : request.counts.working < 10 ^ 3
  blocked : request.counts.blocked < 10 ^ 3
  done : request.counts.done < 10 ^ 3

variable {request : Request}

theorem byteLength_counts_le (h : Request.Bounded request) :
    byteLength (Json.stringify request.counts.json) ≤ 131 := by
  have hsize := byteLength_stringify_obj_le [("working", .nat request.counts.working),
    ("blocked", .nat request.counts.blocked), ("done", .nat request.counts.done)]
  have hworking := byteLength_decimal_le (by omega) h.working
  have hblocked := byteLength_decimal_le (by omega) h.blocked
  have hdone := byteLength_decimal_le (by omega) h.done
  have hkeys : byteLength (Json.quote "working") ≤ 44 ∧ byteLength (Json.quote "blocked") ≤ 44
      ∧ byteLength (Json.quote "done") ≤ 26 :=
    ⟨byteLength_quote_le "working", byteLength_quote_le "blocked", byteLength_quote_le "done"⟩
  simp only [membersSize_cons, membersSize_nil, stringify_nat] at hsize
  unfold Counts.json
  omega

theorem byteLength_eventText_le (event : PushEvent) :
    byteLength (Json.quote (eventText event)) ≤ 38 := by
  cases event with
  | update => exact byteLength_quote_le "update"
  | ended =>
    have hsize : byteLength (Json.quote "end") ≤ 20 := byteLength_quote_le "end"
    show byteLength (Json.quote "end") ≤ 38
    omega

theorem dateMember_size (h : Request.Bounded request) {stale dismissal : String} {bound : Nat}
    (hstale : byteLength (Json.quote stale) ≤ bound)
    (hdismissal : byteLength (Json.quote dismissal) ≤ bound) :
    membersSize [dateMember stale dismissal request.event request.timestamp] ≤ bound + 15 := by
  have hbound := h.timestamp
  cases request.event with
  | update =>
    have hdate := byteLength_decimal_le (by omega) hbound
    show membersSize [(stale, .nat (request.timestamp + staleAfterSeconds))] ≤ _
    simp only [membersSize_cons, membersSize_nil, stringify_nat]
    omega
  | ended =>
    have hdate : byteLength (Json.decimal request.timestamp) ≤ 13 :=
      byteLength_decimal_le (by omega) (by omega)
    show membersSize [(dismissal, .nat request.timestamp)] ≤ _
    simp only [membersSize_cons, membersSize_nil, stringify_nat]
    omega

theorem byteLength_apnsJson_le (h : Request.Bounded request) (envelope : Json) :
    byteLength (Json.stringify (apnsJson envelope request))
      ≤ byteLength (Json.stringify envelope) + 700 := by
  have hkeys : byteLength (Json.quote "aps") ≤ 20 ∧ byteLength (Json.quote "timestamp") ≤ 56
      ∧ byteLength (Json.quote "event") ≤ 32 ∧ byteLength (Json.quote "content-state") ≤ 80
      ∧ byteLength (Json.quote "counts") ≤ 38 ∧ byteLength (Json.quote "envelope") ≤ 50 :=
    ⟨byteLength_quote_le "aps", byteLength_quote_le "timestamp", byteLength_quote_le "event",
      byteLength_quote_le "content-state", byteLength_quote_le "counts",
      byteLength_quote_le "envelope"⟩
  have hcounts := byteLength_counts_le h
  have hevent := byteLength_eventText_le request.event
  have htimestamp : byteLength (Json.decimal request.timestamp) ≤ 13 :=
    byteLength_decimal_le (by omega) (by have := h.timestamp; omega)
  have hdate : membersSize [dateMember "stale-date" "dismissal-date" request.event
      request.timestamp] ≤ 101 :=
    dateMember_size h (by have : _ ≤ 62 := byteLength_quote_le "stale-date"; omega)
      (byteLength_quote_le "dismissal-date")
  have hstate := byteLength_stringify_obj_le [("counts", request.counts.json),
    ("envelope", envelope)]
  have haps := byteLength_stringify_obj_le [("timestamp", .nat request.timestamp),
    ("event", .str (eventText request.event)),
    ("content-state", .obj [("counts", request.counts.json), ("envelope", envelope)]),
    dateMember "stale-date" "dismissal-date" request.event request.timestamp]
  have hwhole := byteLength_stringify_obj_le [("aps", .obj [("timestamp", .nat request.timestamp),
    ("event", .str (eventText request.event)),
    ("content-state", .obj [("counts", request.counts.json), ("envelope", envelope)]),
    dateMember "stale-date" "dismissal-date" request.event request.timestamp])]
  rw [membersSize_cons, membersSize_cons, membersSize_cons, stringify_nat, stringify_str] at haps
  rw [membersSize_cons, membersSize_cons, membersSize_nil] at hstate
  rw [membersSize_cons, membersSize_nil] at hwhole
  unfold apnsJson
  omega

theorem byteLength_relayBody_le (h : Request.Bounded request) {device : Device}
    (htoken : device.token.toList.length ≤ 200) (henv : device.env.toList.length ≤ 10)
    (envelope : Text) : byteLength (Json.stringify (relayBody device request envelope))
      ≤ 6 * byteLength envelope + 2000 := by
  have hkeys : byteLength (Json.quote "kind") ≤ 26 ∧ byteLength (Json.quote "token") ≤ 32
      ∧ byteLength (Json.quote "env") ≤ 20 ∧ byteLength (Json.quote "event") ≤ 32
      ∧ byteLength (Json.quote "priority") ≤ 50 ∧ byteLength (Json.quote "timestamp") ≤ 56
      ∧ byteLength (Json.quote "counts") ≤ 38 ∧ byteLength (Json.quote "envelope") ≤ 50 :=
    ⟨byteLength_quote_le "kind", byteLength_quote_le "token", byteLength_quote_le "env",
      byteLength_quote_le "event", byteLength_quote_le "priority", byteLength_quote_le "timestamp",
      byteLength_quote_le "counts", byteLength_quote_le "envelope"⟩
  have hkind : byteLength (Json.quote "liveactivity") ≤ 74 := byteLength_quote_le "liveactivity"
  have htokenSize := byteLength_quote_le device.token
  have henvSize := byteLength_quote_le device.env
  have hcounts := byteLength_counts_le h
  have hevent := byteLength_eventText_le request.event
  have hpriority := byteLength_decimal_le (by omega) h.priority
  have htimestamp : byteLength (Json.decimal request.timestamp) ≤ 13 :=
    byteLength_decimal_le (by omega) (by have := h.timestamp; omega)
  have henvelope := byteLength_quote_le (String.ofList envelope)
  rw [String.toList_ofList] at henvelope
  have hlength := length_le_byteLength envelope
  have hdate : membersSize [dateMember "stale_date" "dismissal_date" request.event
      request.timestamp] ≤ 101 :=
    dateMember_size h (by have : _ ≤ 62 := byteLength_quote_le "stale_date"; omega)
      (byteLength_quote_le "dismissal_date")
  have hbody := byteLength_stringify_obj_le [("kind", .str "liveactivity"),
    ("token", .str device.token), ("env", .str device.env),
    ("event", .str (eventText request.event)), ("priority", .nat request.priority),
    ("timestamp", .nat request.timestamp), ("counts", request.counts.json),
    ("envelope", .str (String.ofList envelope)),
    dateMember "stale_date" "dismissal_date" request.event request.timestamp]
  rw [membersSize_cons, membersSize_cons, membersSize_cons, membersSize_cons, membersSize_cons,
    membersSize_cons, membersSize_cons, membersSize_cons, stringify_nat, stringify_nat] at hbody
  simp only [stringify_str] at hbody
  unfold relayBody
  omega

/-! ### Every envelope fits -/

variable {crypto : Crypto} {nonces : Nat → Nonce} {device : Device} {request : Request}
  {plaintext : Plaintext}

/-- A device as `readActivityDevices` gives it. -/
structure Device.Registered (device : Device) : Prop where
  token : matchesTokenPattern device.token = true
  env : isApnsEnvironment device.env = true

theorem registered_of_mem {fromBase64url : String → Bytes} {file : Option (List Registration)}
    (h : device ∈ readActivityDevices fromBase64url file) : Device.Registered device := by
  obtain ⟨entry, -, hentry⟩ := List.mem_filterMap.mp h
  unfold readActivityDevice at hentry
  obtain ⟨live, -, hentry⟩ := Option.bind_eq_some_iff.mp hentry
  obtain ⟨token, htoken, hentry⟩ := Option.bind_eq_some_iff.mp hentry
  obtain ⟨env, henv, hentry⟩ := Option.bind_eq_some_iff.mp hentry
  obtain ⟨key, -, hentry⟩ := Option.bind_eq_some_iff.mp hentry
  split at hentry
  · cases hentry
    exact ⟨(Option.filter_eq_some_iff.mp htoken).2, (Option.filter_eq_some_iff.mp henv).2⟩
  · cases hentry

theorem Device.Registered.length_token (h : Device.Registered device) :
    16 ≤ device.token.toList.length ∧ device.token.toList.length ≤ 200 := by
  have htoken := h.token
  unfold matchesTokenPattern at htoken
  simp only [Bool.and_eq_true, decide_eq_true_eq] at htoken
  rw [String.length_toList]
  exact htoken.1

theorem Device.Registered.env_eq (h : Device.Registered device) :
    device.env = "production" ∨ device.env = "sandbox" := by
  have henv := h.env
  unfold isApnsEnvironment at henv
  simpa using henv

theorem Device.Registered.length_env (h : Device.Registered device) :
    device.env.toList.length ≤ 10 := by
  rcases h.env_eq with henv | henv <;> · rw [henv]; decide

/-- Every sealed envelope is read back. -/
theorem parse_sealAtStep (step : Nat) :
    ∃ kid n ct : Bytes, sealAtStep crypto nonces plaintext device step
        = Json.stringify (envelopeJson (base64url kid) (base64url n) (base64url ct))
      ∧ Json.parse (sealAtStep crypto nonces plaintext device step)
        = some (envelopeJson (base64url kid) (base64url n) (base64url ct))
      ∧ kid.length = 8 ∧ n.length = 12
      ∧ ct.length = byteLength (canonicalActivityPlaintext (plaintextAtStep plaintext step)) + 16
    := by
  obtain ⟨kid, n, ct, hseal, hkid, hn, hct⟩ := exists_sealEnvelope crypto
    (canonicalActivityPlaintext (plaintextAtStep plaintext step)) device.key activityAad
    (nonces step)
  refine ⟨kid, n, ct, hseal, ?_, hkid, hn, hct⟩
  rw [show sealAtStep crypto nonces plaintext device step = _ from hseal]
  exact Json.parse_stringify (reads_envelopeJson _ _ _)

/-- The last step fits. -/
theorem envelopeFits_lastStep (hdevice : Device.Registered device)
    (hrequest : Request.Bounded request) (hhost : plaintext.host.toList.length ≤ displayLimit)
    (hv : plaintext.v = 1) :
    envelopeFits device request (sealAtStep crypto nonces plaintext device 2) = true := by
  obtain ⟨kid, n, ct, hseal, hparse, hkid, hn, hct⟩ : ∃ kid n ct : Bytes,
      sealAtStep crypto nonces plaintext device 2
        = Json.stringify (envelopeJson (base64url kid) (base64url n) (base64url ct))
      ∧ Json.parse (sealAtStep crypto nonces plaintext device 2)
        = some (envelopeJson (base64url kid) (base64url n) (base64url ct))
      ∧ kid.length = 8 ∧ n.length = 12
      ∧ ct.length = byteLength (canonicalActivityPlaintext (plaintextAtStep plaintext 2)) + 16 :=
    parse_sealAtStep 2
  have hplain : byteLength (canonicalActivityPlaintext (plaintextAtStep plaintext 2)) ≤ 570 :=
    byteLength_canonical_emptyAgents hhost hv
  have hsize : byteLength (sealAtStep crypto nonces plaintext device 2) ≤ 900 := by
    have hbound : byteLength (Json.stringify (envelopeJson (base64url kid) (base64url n)
        (base64url ct))) ≤ ct.length / 3 * 4 + 100 := byteLength_envelopeJson_le hkid hn
    rw [hseal]
    omega
  have hct' := utf16Length_base64url_le ct
  have hapns := byteLength_apnsJson_le hrequest
    (envelopeJson (base64url kid) (base64url n) (base64url ct))
  have hbody := byteLength_relayBody_le hrequest hdevice.length_token.2 hdevice.length_env
    (sealAtStep crypto nonces plaintext device 2)
  rw [← hseal] at hapns
  have hbudgets : ctBudget = 2800 ∧ apnsPayloadBudget = 4096 ∧ relayRequestBudget = 8192 :=
    ⟨rfl, rfl, rfl⟩
  unfold envelopeFits projectedApnsBytes
  rw [hparse]
  have hgetStr : (envelopeJson (base64url kid) (base64url n) (base64url ct)).getStr "ct"
      = some (base64url ct) := rfl
  simp only [hgetStr, Option.all_some, Option.map_some, Option.any_some, Bool.and_eq_true,
    decide_eq_true_eq]
  omega

/-- Whatever step `sealFitting` ends at, the envelope fits. -/
theorem envelopeFits_sealFitting (hdevice : Device.Registered device)
    (hrequest : Request.Bounded request) (hhost : plaintext.host.toList.length ≤ displayLimit)
    (hv : plaintext.v = 1) :
    ∃ step, (sealFitting crypto nonces plaintext device request).1
        = sealAtStep crypto nonces plaintext device step
      ∧ envelopeFits device request (sealAtStep crypto nonces plaintext device step) = true := by
  have hfrom : ∀ remaining step, remaining + step = 2 →
      ∃ last, (sealFittingFrom crypto nonces plaintext device request remaining step).1
          = sealAtStep crypto nonces plaintext device last
        ∧ envelopeFits device request (sealAtStep crypto nonces plaintext device last) = true := by
    intro remaining
    induction remaining with
    | zero =>
      intro step hstep
      obtain rfl : step = 2 := by omega
      exact ⟨2, rfl, envelopeFits_lastStep hdevice hrequest hhost hv⟩
    | succ remaining ih =>
      intro step hstep
      unfold sealFittingFrom
      dsimp only
      split
      · rename_i hfits
        exact ⟨step, rfl, hfits⟩
      · exact ih (step + 1) (by omega)
  exact hfrom 2 0 rfl

/-! ### The relay's checks -/

/-- What the relay takes from a body. -/
def activityOf (device : Device) (request : Request) (envelope : Text) : Relay.Worker.Activity where
  token := device.token
  environment := device.env
  event := eventText request.event
  priority := request.priority
  timestamp := request.timestamp
  staleDate := match request.event with
    | .update => some (request.timestamp + staleAfterSeconds : Nat)
    | .ended => none
  dismissalDate := match request.event with
    | .update => none
    | .ended => some request.timestamp
  counts := ⟨request.counts.working, request.counts.blocked, request.counts.done⟩
  envelope := String.ofList envelope

theorem validCounts_json {counts : Counts} (hworking : counts.working ≤ 999)
    (hblocked : counts.blocked ≤ 999) (hdone : counts.done ≤ 999) :
    Relay.Worker.validCounts counts.json
      = some ⟨counts.working, counts.blocked, counts.done⟩ := by
  have hcount : ∀ n : Nat, n ≤ 999 →
      (some (n : Int)).filter
          (fun value => decide (0 ≤ value) && decide (value ≤ Relay.Worker.countMax))
        = some (n : Int) := by
    intro n hn
    have hmax : Relay.Worker.countMax = 999 := rfl
    rw [Option.filter_some, if_pos]
    simp only [Bool.and_eq_true, decide_eq_true_eq, hmax]
    omega
  have hgets : counts.json.get "working" = some (.nat counts.working)
      ∧ counts.json.get "blocked" = some (.nat counts.blocked)
      ∧ counts.json.get "done" = some (.nat counts.done) := by
    simp [Counts.json, Json.get]
  have hvalues : Relay.Worker.validCount counts.json "working" = some (counts.working : Int)
      ∧ Relay.Worker.validCount counts.json "blocked" = some (counts.blocked : Int)
      ∧ Relay.Worker.validCount counts.json "done" = some (counts.done : Int) := by
    unfold Relay.Worker.validCount
    rw [hgets.1, hgets.2.1, hgets.2.2, Option.bind_some, Option.bind_some, Option.bind_some,
      Json.toInt_nat, Json.toInt_nat, Json.toInt_nat, hcount _ hworking, hcount _ hblocked,
      hcount _ hdone]
    exact ⟨rfl, rfl, rfl⟩
  show (do
    let working ← Relay.Worker.validCount counts.json "working"
    let blocked ← Relay.Worker.validCount counts.json "blocked"
    let done ← Relay.Worker.validCount counts.json "done"
    some (⟨working, blocked, done⟩ : Relay.Worker.Counts)) = _
  rw [hvalues.1, hvalues.2.1, hvalues.2.2]
  rfl

/-- The members of a body as the relay reads them. -/
theorem get_relayBody (device : Device) (request : Request) (envelope : Text) :
    let body := relayBody device request envelope
    body.getStr "kind" = some "liveactivity" ∧ body.getStr "token" = some device.token
      ∧ body.getStr "env" = some device.env ∧ body.getStr "event" = some (eventText request.event)
      ∧ body.get "priority" = some (.nat request.priority)
      ∧ body.get "timestamp" = some (.nat request.timestamp)
      ∧ body.get "counts" = some request.counts.json
      ∧ body.getStr "envelope" = some (String.ofList envelope)
      ∧ body.get "stale_date" = (match request.event with
          | .update => some (.nat (request.timestamp + staleAfterSeconds))
          | .ended => none)
      ∧ body.get "dismissal_date" = (match request.event with
          | .update => none
          | .ended => some (.nat request.timestamp))
      ∧ body.get "collapse" = none := by
  cases hevent : request.event with
  | update => simp [relayBody, Json.getStr, Json.get, dateMember, hevent]
  | ended => simp [relayBody, Json.getStr, Json.get, dateMember, hevent]

/-- A request that the relay has nothing against, at its time. -/
structure Request.Valid (request : Request) (nowSeconds : Int) : Prop where
  priority : request.priority = 5 ∨ request.priority = 10 ∧ 1 ≤ request.counts.blocked
  timestamp : Relay.Worker.validTimestamp nowSeconds request.timestamp = true
  working : request.counts.working ≤ 999
  blocked : request.counts.blocked ≤ 999
  done : request.counts.done ≤ 999

theorem tokenPattern_of_registered (h : Device.Registered device) :
    Relay.Worker.tokenPattern device.token = true := by
  have htoken := h.token
  unfold matchesTokenPattern at htoken
  unfold Relay.Worker.tokenPattern
  rw [Bool.and_comm]
  exact htoken

theorem ok_bind {α β : Type} (value : α) (next : α → Except String β) :
    (Except.ok value >>= next) = next value := rfl

theorem validateActivity_relayBody (hdevice : Device.Registered device) {nowSeconds : Int}
    (hrequest : Request.Valid request nowSeconds) {envelope : Text} (henvelope : envelope ≠ []) :
    validateActivity (relayBody device request envelope) nowSeconds
      = .ok (activityOf device request envelope) := by
  obtain ⟨-, htoken, henv, hevent, hpriority, htimestamp, hcounts, hsealed, hstale, hdismissal,
    hcollapse⟩ := get_relayBody device request envelope
  have henvFilter : (some device.env).filter (fun env => env = "production" || env = "sandbox")
      = some device.env := by
    rcases hdevice.env_eq with heq | heq <;> · rw [heq]; rfl
  have heventFilter : (some (eventText request.event)).filter
      (fun event => event = "update" || event = "end") = some (eventText request.event) := by
    cases request.event <;> rfl
  have hpriorityFilter : (some (request.priority : Int)).filter
      (fun priority => priority = 5 || priority = 10) = some (request.priority : Int) := by
    rcases hrequest.priority with heq | ⟨heq, -⟩ <;> · rw [heq]; rfl
  have htextFilter : (some (String.ofList envelope)).filter (· ≠ "")
      = some (String.ofList envelope) := by
    rw [Option.filter_some, if_pos]
    simpa using henvelope
  have hstaleOk : Relay.Worker.optionalDate ((relayBody device request envelope).get "stale_date")
      (fun date => (request.timestamp : Int) < date) "bad_stale_date"
      = .ok (activityOf device request envelope).staleDate := by
    rw [hstale]
    unfold activityOf
    cases request.event with
    | update =>
      simp only [Relay.Worker.optionalDate, Json.toInt_nat]
      rw [Option.filter_some, if_pos]
      have hlater : staleAfterSeconds = 900 := rfl
      simp only [decide_eq_true_eq]
      omega
    | ended => rfl
  have hdismissalOk : Relay.Worker.optionalDate
      ((relayBody device request envelope).get "dismissal_date")
      (fun _ => eventText request.event = "end") "bad_dismissal_date"
      = .ok (activityOf device request envelope).dismissalDate := by
    rw [hdismissal]
    unfold activityOf
    cases request.event with
    | update => rfl
    | ended =>
      simp only [Relay.Worker.optionalDate, Json.toInt_nat]
      rfl
  have hblocked : ¬ ((request.priority : Int) = 10 ∧ (request.counts.blocked : Int) < 1) := by
    rcases hrequest.priority with heq | ⟨-, hsome⟩ <;> omega
  unfold validateActivity
  simp only [show Relay.Worker.isObject (relayBody device request envelope) = true from rfl, htoken,
    henv, hevent, hpriority, htimestamp, hcounts, hsealed, hcollapse, Option.bind_some,
    Json.toInt_nat, henvFilter, heventFilter, hpriorityFilter, htextFilter, hstaleOk, hdismissalOk,
    validCounts_json hrequest.working hrequest.blocked hrequest.done,
    Option.filter_some, tokenPattern_of_registered hdevice, hrequest.timestamp, if_neg hblocked,
    if_pos, Relay.Worker.require, ok_bind]
  rfl

/-! ### The same text -/

theorem integerText_natCast (n : Nat) : Json.integerText (n : Int) = Json.decimal n := rfl

theorem stringify_obj_cons (key : String) (value : Json) (members : List (String × Json)) :
    Json.stringify (.obj ((key, value) :: members))
      = '\x7b' ::
          (Json.quote key ++ ':' :: (Json.stringify value ++ Json.membersText members)) := by
  rw [Json.stringify]

theorem membersText_cons (key : String) (value : Json) (members : List (String × Json)) :
    Json.membersText ((key, value) :: members)
      = ',' :: (Json.quote key ++ ':' :: (Json.stringify value ++ Json.membersText members)) := by
  rw [Json.membersText]

theorem membersText_nil : Json.membersText [] = ['\x7d'] := by
  rw [Json.membersText]

/-- The relay writes the text whose size the hook has predicted. -/
theorem buildLiveActivityApnsBody_activityOf (envelope : Json) :
    buildLiveActivityApnsBody (activityOf device request (Json.stringify envelope))
      = Json.stringify (apnsJson envelope request) := by
  have haps : "\x7b\"aps\":\x7b".toList = '\x7b' :: (Json.quote "aps" ++ [':', '\x7b']) := by
    decide
  have htimestamp : "\"timestamp\":".toList = Json.quote "timestamp" ++ [':'] := by
    decide
  have hevent : ",\"event\":".toList = ',' :: (Json.quote "event" ++ [':']) := by
    decide
  have hstate : ",\"content-state\":\x7b\"counts\":".toList
      = ',' :: (Json.quote "content-state" ++ ':' :: '\x7b' :: (Json.quote "counts" ++ [':'])) := by
    decide
  have henvelope : ",\"envelope\":".toList = ',' :: (Json.quote "envelope" ++ [':']) := by
    decide
  have hstale : ",\"stale-date\":".toList = ',' :: (Json.quote "stale-date" ++ [':']) := by
    decide
  have hdismissal : ",\"dismissal-date\":".toList
      = ',' :: (Json.quote "dismissal-date" ++ [':']) := by
    decide
  have hend : "\x7d".toList = ['\x7d'] ∧ "\x7d\x7d".toList = ['\x7d', '\x7d'] := by decide
  have hcounts : Relay.Worker.Counts.json
      ⟨request.counts.working, request.counts.blocked, request.counts.done⟩
      = request.counts.json := rfl
  unfold buildLiveActivityApnsBody activityOf apnsJson dateMember
  cases request.event with
  | update =>
    simp only [haps, htimestamp, hevent, hstate, henvelope, hstale, hend.1, hend.2, hcounts,
      stringify_obj_cons, membersText_cons, membersText_nil, stringify_nat, stringify_str,
      Relay.Worker.dateText, integerText_natCast, String.toList_ofList, List.append_assoc,
      List.cons_append, List.nil_append]
  | ended =>
    simp only [haps, htimestamp, hevent, hstate, henvelope, hdismissal, hend.1, hend.2, hcounts,
      stringify_obj_cons, membersText_cons, membersText_nil, stringify_nat, stringify_str,
      Relay.Worker.dateText, integerText_natCast, String.toList_ofList, List.append_assoc,
      List.cons_append, List.nil_append]

/-! ### Bodies are read back -/

theorem reads_counts (counts : Counts) : Json.Reads counts.json := by
  refine Json.reads_obj (show ["working", "blocked", "done"].Nodup by decide) ?_
  intro member hmember
  simp only [List.mem_cons, List.not_mem_nil, or_false] at hmember
  rcases hmember with rfl | rfl | rfl <;> exact Json.reads_nat _

theorem reads_relayBody (device : Device) (request : Request) (envelope : Text) :
    Json.Reads (relayBody device request envelope) := by
  have hdate : (dateMember "stale_date" "dismissal_date" request.event request.timestamp).1
        ∈ ["stale_date", "dismissal_date"]
      ∧ Json.Reads
        (dateMember "stale_date" "dismissal_date" request.event request.timestamp).2 := by
    cases request.event with
    | update => exact ⟨List.mem_cons_self, Json.reads_nat _⟩
    | ended => exact ⟨List.mem_cons_of_mem _ List.mem_cons_self, Json.reads_nat _⟩
  refine Json.reads_obj ?_ ?_
  · show (["kind", "token", "env", "event", "priority", "timestamp", "counts", "envelope",
      (dateMember "stale_date" "dismissal_date" request.event request.timestamp).1]).Nodup
    generalize (dateMember "stale_date" "dismissal_date" request.event request.timestamp).1 = key
      at hdate
    have hkey := hdate.1
    simp only [List.mem_cons, List.not_mem_nil, or_false] at hkey
    rcases hkey with rfl | rfl <;> decide
  · intro member hmember
    simp only [List.mem_cons, List.not_mem_nil, or_false] at hmember
    rcases hmember with rfl | rfl | rfl | rfl | rfl | rfl | rfl | rfl | rfl
    · exact Json.reads_str _
    · exact Json.reads_str _
    · exact Json.reads_str _
    · exact Json.reads_str _
    · exact Json.reads_nat _
    · exact Json.reads_nat _
    · exact reads_counts _
    · exact Json.reads_str _
    · exact hdate.2

/-! ### Counting agents -/

theorem Counts.add_le (counts : Counts) (status : String) :
    let after := counts.add status
    after.working ≤ counts.working + 1 ∧ after.blocked ≤ counts.blocked + 1
      ∧ after.done ≤ counts.done + 1 ∧ counts.blocked ≤ after.blocked
      ∧ (status = "blocked" → after.blocked = counts.blocked + 1) := by
  unfold Counts.add
  dsimp only
  split
  · rename_i hworking
    refine ⟨by simp, by simp, by simp, by simp, ?_⟩
    rw [hworking]
    intro h
    exact absurd h (by decide)
  · split
    · refine ⟨by simp, by simp, by simp, by simp, fun _ => rfl⟩
    · rename_i hblocked
      split
      · exact ⟨by simp, by simp, by simp, by simp, fun h => absurd h hblocked⟩
      · exact ⟨by simp, by simp, by simp, by simp, fun h => absurd h hblocked⟩

/-- No count is more than the number of agents, and a blocked one is counted. -/
theorem foldl_add_le (eligible : List Eligible) (counts : Counts) :
    let after := eligible.foldl (fun counts found => counts.add found.status) counts
    after.working ≤ counts.working + eligible.length
      ∧ after.blocked ≤ counts.blocked + eligible.length
      ∧ after.done ≤ counts.done + eligible.length ∧ counts.blocked ≤ after.blocked
      ∧ ((∃ found ∈ eligible, found.status = "blocked") → counts.blocked + 1 ≤ after.blocked) := by
  induction eligible generalizing counts with
  | nil => simp
  | cons found eligible ih =>
    obtain ⟨hworking, hblocked, hdone, hmono, hcounted⟩ := Counts.add_le counts found.status
    obtain ⟨hworking', hblocked', hdone', hmono', hcounted'⟩ := ih (counts.add found.status)
    dsimp only
    rw [List.foldl_cons, List.length_cons]
    refine ⟨by omega, by omega, by omega, by omega, ?_⟩
    rintro ⟨other, hother, hstatus⟩
    rcases List.mem_cons.mp hother with rfl | hother
    · have := hcounted hstatus
      omega
    · have := hcounted' ⟨other, hother, hstatus⟩
      omega

variable {toLowerCase : String → String}

/-- Each status of the map is that of an agent. -/
theorem exists_agent_of_get {agents : List Plugin.ActivityHook.Agent} {pane status : String}
    (h : (Plugin.ActivityHook.eligibleStatusMap toLowerCase agents).get pane = some status) :
    ∃ agent ∈ agents, Plugin.ActivityHook.parseEligible toLowerCase agent = some
        (pane, status) := by
  have hfold : ∀ (step : StatusMap → Plugin.ActivityHook.Agent → StatusMap),
      (∀ map agent, step map agent = map
        ∨ ∃ found, Plugin.ActivityHook.parseEligible toLowerCase agent = some found
          ∧ step map agent = map.insert found.1 found.2) →
      ∀ (agents : List Plugin.ActivityHook.Agent) (map : StatusMap),
        (agents.foldl step map).get pane = some status →
        map.get pane = some status ∨ ∃ agent ∈ agents,
          Plugin.ActivityHook.parseEligible toLowerCase agent = some (pane, status) := by
    intro step hstep agents
    induction agents with
    | nil => exact fun map hget => .inl hget
    | cons agent agents ih =>
      intro map hget
      rw [List.foldl_cons] at hget
      rcases ih _ hget with hmap | ⟨other, hother, hparse⟩
      · rcases hstep map agent with hsame | ⟨found, hparse, hinsert⟩
        · rw [hsame] at hmap
          exact .inl hmap
        · rw [hinsert, HashMap.get_insert] at hmap
          split at hmap
          · rename_i hpane
            cases hmap
            exact .inr ⟨agent, List.mem_cons_self, by rw [hparse, hpane]⟩
          · exact .inl hmap
      · exact .inr ⟨other, List.mem_cons_of_mem _ hother, hparse⟩
  refine (hfold _ (fun map agent => ?_) agents ∅ h).resolve_left fun hempty => ?_
  · cases hparse : Plugin.ActivityHook.parseEligible toLowerCase agent with
    | none => exact .inl rfl
    | some found => exact .inr ⟨found, rfl, rfl⟩
  · rw [HashMap.get_empty] at hempty
    cases hempty

/-- A newly blocked pane is an agent that is blocked. -/
theorem exists_blocked_of_hasNewlyBlocked {agents : List AgentEntry} {previous : Option StatusMap}
    (h : Plugin.ActivityHook.hasNewlyBlocked (Plugin.ActivityHook.eligibleStatusMap toLowerCase
      (agents.map AgentEntry.toAgent)) previous = true) :
    ∃ found ∈ agents.filterMap (eligibleOf toLowerCase), found.status = "blocked" := by
  unfold Plugin.ActivityHook.hasNewlyBlocked at h
  obtain ⟨entry, hentry, htest⟩ := List.any_eq_true.mp h
  have hstatus : entry.2 = "blocked" := by
    simp only [Bool.and_eq_true, decide_eq_true_eq] at htest
    exact htest.1
  obtain ⟨agent, hagent, hparse⟩ := exists_agent_of_get (HashMap.get_eq_some_iff.mpr hentry)
  obtain ⟨source, hsource, rfl⟩ := List.mem_map.mp hagent
  refine ⟨⟨source, entry.1, entry.2⟩, List.mem_filterMap.mpr ⟨source, hsource, ?_⟩, hstatus⟩
  unfold eligibleOf
  rw [hparse]
  rfl

/-! ### What the hook is about to send -/

/-- A request counts no more than the agents, and it is urgent only with a blocked one. -/
theorem contentFor_spec (agents : List AgentEntry) (previous : Option StatusMap) (timestamp : Nat)
    (hostname : String) (workspaceLabels : HashMap String String) (device : Device) :
    let content :=
      contentFor toLowerCase agents previous timestamp hostname workspaceLabels device
    content.1.timestamp = timestamp ∧ content.1.counts.working ≤ agents.length
      ∧ content.1.counts.blocked ≤ agents.length ∧ content.1.counts.done ≤ agents.length
      ∧ (content.1.priority = 5 ∨ content.1.priority = 10 ∧ 1 ≤ content.1.counts.blocked)
      ∧ content.2.host.toList.length ≤ displayLimit ∧ content.2.v = 1 := by
  have hhost := length_host (some (shortHostName hostname))
  have hlength : (agents.filterMap (eligibleOf toLowerCase)).length ≤ agents.length :=
    List.length_filterMap_le _ _
  obtain ⟨hworking, hblocked, hdone, -, hcounted⟩ :=
    foldl_add_le (agents.filterMap (eligibleOf toLowerCase)) ⟨0, 0, 0⟩
  unfold contentFor
  dsimp only
  cases hempty : (Plugin.ActivityHook.eligibleStatusMap toLowerCase
      (agents.map AgentEntry.toAgent)).entries.isEmpty with
  | true =>
    have hnone : Plugin.ActivityHook.hasNewlyBlocked (Plugin.ActivityHook.eligibleStatusMap
        toLowerCase (agents.map AgentEntry.toAgent)) previous = false := by
      unfold Plugin.ActivityHook.hasNewlyBlocked
      rw [List.isEmpty_iff.mp hempty]
      rfl
    rw [if_pos rfl, hnone]
    exact ⟨rfl, Nat.zero_le _, Nat.zero_le _, Nat.zero_le _, .inl rfl, hhost, rfl⟩
  | false =>
    rw [if_neg (by simp)]
    refine ⟨rfl, ?_, ?_, ?_, ?_, hhost, rfl⟩
    · exact Nat.le_trans hworking (by rw [Nat.zero_add]; exact hlength)
    · exact Nat.le_trans hblocked (by rw [Nat.zero_add]; exact hlength)
    · exact Nat.le_trans hdone (by rw [Nat.zero_add]; exact hlength)
    · cases hnewly : Plugin.ActivityHook.hasNewlyBlocked (Plugin.ActivityHook.eligibleStatusMap
          toLowerCase (agents.map AgentEntry.toAgent)) previous with
      | false => exact .inl rfl
      | true => exact .inr ⟨rfl, hcounted (exists_blocked_of_hasNewlyBlocked hnewly)⟩

/-- The relay accepts the first body for a device, and its payload is as long as predicted. -/
theorem receive_firstBody (crypto : Crypto) (nonces : Nat → Nonce) (toLowerCase : String → String)
    (fromBase64url : String → Bytes) {file : Option (List Registration)} {device : Device}
    (hdevice : device ∈ readActivityDevices fromBase64url file) {agents : List AgentEntry}
    (hagents : agents.length ≤ 999) (previous : Option StatusMap) (hostname : String)
    (workspaceLabels : HashMap String String) {timestamp nowMs : Nat}
    (hnow : nowMs ≤ 8640000000000000) (hpositive : 0 < timestamp)
    (hpast : nowMs / 1000 ≤ timestamp + 86400) (hfuture : timestamp ≤ nowMs / 1000 + 300) :
    let content :=
      contentFor toLowerCase agents previous timestamp hostname workspaceLabels device
    let envelope := firstEnvelope crypto nonces device content
    ∃ activity,
      validateActivity (relayBody device content.1 envelope) (nowMs / 1000 : Nat) = .ok activity
        ∧ receive (firstBody crypto nonces device content) nowMs
          = .forwarded activity (buildLiveActivityApnsBody activity)
        ∧ (activity.priority = 10 → 1 ≤ activity.counts.blocked)
        ∧ projectedApnsBytes envelope content.1
          = some (Relay.Worker.encodedLength (buildLiveActivityApnsBody activity)) := by
  intro content envelope
  obtain ⟨htimestamp, hworking, hblocked, hdone, hpriority, hhost, hv⟩ :
      content.1.timestamp = timestamp ∧ content.1.counts.working ≤ agents.length
        ∧ content.1.counts.blocked ≤ agents.length ∧ content.1.counts.done ≤ agents.length
        ∧ (content.1.priority = 5 ∨ content.1.priority = 10 ∧ 1 ≤ content.1.counts.blocked)
        ∧ content.2.host.toList.length ≤ displayLimit ∧ content.2.v = 1 :=
    contentFor_spec agents previous timestamp hostname workspaceLabels device
  have hregistered := registered_of_mem hdevice
  have hvalid : Request.Valid content.1 (nowMs / 1000 : Nat) := by
    refine ⟨hpriority, ?_, by omega, by omega, by omega⟩
    unfold Relay.Worker.validTimestamp Relay.Worker.timestampPastSeconds
      Relay.Worker.timestampFutureSeconds
    rw [htimestamp, Bool.and_eq_true, Bool.and_eq_true]
    exact ⟨⟨decide_eq_true (by omega), decide_eq_true (by omega)⟩, decide_eq_true (by omega)⟩
  have hbounded : Request.Bounded content.1 := by
    have hstale : staleAfterSeconds = 900 := rfl
    refine ⟨?_, by omega, by omega, by omega, by omega⟩
    rcases hpriority with h | ⟨h, -⟩ <;> omega
  obtain ⟨step, hstep, hfits⟩ : ∃ step, envelope
        = sealAtStep crypto nonces content.2 device step
      ∧ envelopeFits device content.1 (sealAtStep crypto nonces content.2 device step) = true :=
    envelopeFits_sealFitting hregistered hbounded hhost hv
  obtain ⟨kid, n, ct, hseal, hparse, -⟩ : ∃ kid n ct : Bytes,
      sealAtStep crypto nonces content.2 device step
        = Json.stringify (envelopeJson (base64url kid) (base64url n) (base64url ct))
      ∧ Json.parse (sealAtStep crypto nonces content.2 device step)
        = some (envelopeJson (base64url kid) (base64url n) (base64url ct)) ∧ _ :=
    parse_sealAtStep step
  rw [← hstep] at hfits hseal hparse
  have hne : envelope ≠ [] := by
    rw [hseal, envelopeJson, stringify_obj_cons]
    exact List.cons_ne_nil _ _
  have hactivity := validateActivity_relayBody hregistered hvalid hne
  have htext : buildLiveActivityApnsBody (activityOf device content.1 envelope)
      = Json.stringify (apnsJson (envelopeJson (base64url kid) (base64url n) (base64url ct))
          content.1) := by
    rw [hseal]
    exact buildLiveActivityApnsBody_activityOf _
  have hprojected : projectedApnsBytes envelope content.1
      = some (Relay.Worker.encodedLength
          (buildLiveActivityApnsBody (activityOf device content.1 envelope))) := by
    unfold projectedApnsBytes
    rw [hparse, htext]
    rfl
  -- What `envelopeFits` has tried is what the relay tries.
  unfold envelopeFits at hfits
  rw [hparse, hprojected] at hfits
  simp only [Bool.and_eq_true, Option.any_some, decide_eq_true_eq] at hfits
  obtain ⟨⟨-, hpayload⟩, hrequest⟩ := hfits
  refine ⟨activityOf device content.1 envelope, hactivity, ?_, ?_, hprojected⟩
  · have hbody : firstBody crypto nonces device content
        = Json.stringify (relayBody device content.1 envelope) := rfl
    have hlimit : ¬ Relay.Worker.maxRequestBytes
        < Relay.Worker.encodedLength (firstBody crypto nonces device content) :=
      Nat.not_lt.mpr hrequest
    unfold receive
    rw [if_neg hlimit, hbody, Json.parse_stringify (reads_relayBody device content.1 envelope)]
    dsimp only
    rw [if_pos (get_relayBody device content.1 envelope).1, hactivity]
    dsimp only
    have hpayload' : ¬ Relay.Worker.maxApnsPayloadBytes < Relay.Worker.encodedLength
        (buildLiveActivityApnsBody (activityOf device content.1 envelope)) :=
      Nat.not_lt.mpr hpayload
    rw [if_neg hpayload']
  · intro hten
    rcases hpriority with hfive | ⟨-, hsome⟩
    · have hten' : (content.1.priority : Int) = 10 := hten
      omega
    · show (1 : Int) ≤ (content.1.counts.blocked : Int)
      omega

/-! ### A host without agents

The end state of the shared vectors, as a device under the second key gets it. -/

def vectorCiphertext : Bytes :=
  [0x55, 0xd8, 0xab, 0xb7, 0x68, 0x4d, 0x6f, 0x20, 0xdf, 0xa2, 0xf8, 0x29, 0x9d, 0xf4, 0xe8, 0x1f,
    0x55, 0xa3, 0x13, 0x78, 0xbb, 0x3d, 0x6b, 0xe2, 0x61, 0xd7, 0x60, 0xdd, 0xb4, 0xfc, 0x55, 0x5d]

def vectorTag : Bytes :=
  [0xec, 0x63, 0xd6, 0xc1, 0xaa, 0xd0, 0xa2, 0x65, 0x2d, 0x24, 0xac, 0x28, 0x45, 0xdd, 0x88, 0xba]

def vectorDigest : Bytes :=
  [0x18, 0x65, 0xc0, 0x08, 0x31, 0xe7, 0x3f, 0x7e, 0xe2, 0x3f, 0xc1, 0x3c, 0xb2, 0xd0, 0xf5, 0x88,
    0xb9, 0xc3, 0x41, 0x83, 0x5c, 0xa7, 0x47, 0x2f, 0x8e, 0xc0, 0x35, 0xab, 0xa4, 0xb7, 0x89, 0xd6]

/-- `node:crypto` on the key, the nonce and the plaintext of the vector. -/
def vectorCrypto : Crypto where
  sha256 := fun _ => vectorDigest
  sha256_length := fun _ => rfl
  encrypt := fun _ _ _ plaintext => if plaintext.length = 32 then vectorCiphertext else plaintext
  encrypt_length := by
    intro key nonce aad plaintext
    split
    · rename_i hlength
      rw [hlength]
      rfl
    · rfl
  authTag := fun _ _ _ _ => vectorTag
  authTag_length := fun _ _ _ _ => rfl

def vectorNonce : Nonce :=
  ⟨[0x30, 0x31, 0x32, 0x33, 0x34, 0x35, 0x36, 0x37, 0x38, 0x39, 0x3a, 0x3b], rfl⟩

/-- `Buffer.from` on unpadded base64url. -/
def vectorDecode (text : String) : Bytes :=
  (Base64.decodeChars (text.toList.map fun c =>
    if c = '-' then '+' else if c = '_' then '/' else c)).getD []

def vectorFile : List Registration :=
  [⟨some ⟨some "0123456789abcdef", none, none⟩, some "sandbox",
    some "__79_Pv6-fj39vX08_Lx8O_u7ezr6uno5-bl5OPi4eA"⟩]

theorem receive_firstBody_empty :
    ∃ device ∈ readActivityDevices vectorDecode (some vectorFile),
      let content := contentFor String.toLower [] none 1700000000 "mbp.local" ∅ device
      let envelope := firstEnvelope vectorCrypto (fun _ => vectorNonce) device content
      ∃ activity,
        validateActivity (relayBody device content.1 envelope) (1700000000123 / 1000 : Nat)
          = .ok activity
        ∧ receive (firstBody vectorCrypto (fun _ => vectorNonce) device content) 1700000000123
          = .forwarded activity (buildLiveActivityApnsBody activity)
        ∧ (activity.priority = 10 → 1 ≤ activity.counts.blocked)
        ∧ projectedApnsBytes envelope content.1
          = some (Relay.Worker.encodedLength (buildLiveActivityApnsBody activity)) := by
  have hlength : (readActivityDevices vectorDecode (some vectorFile)).length = 1 := by
    decide +kernel
  obtain ⟨device, hdevice⟩ := List.exists_mem_of_length_pos (by rw [hlength]; omega)
  exact ⟨device, hdevice, receive_firstBody vectorCrypto (fun _ => vectorNonce) String.toLower
    vectorDecode hdevice (Nat.zero_le _) none "mbp.local" ∅ (by omega) (by omega) (by omega)
    (by omega)⟩

end Herden.Proofs.ActivityRequest
