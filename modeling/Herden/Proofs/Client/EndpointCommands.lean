import Herden.Lib.Run
import Herden.Runtime.Client.EndpointCommands
import Mathlib.Algebra.Order.Group.Multiset
import Mathlib.Tactic.Abel

/-!
# `Herden.Proofs.Client.EndpointCommands`: every request is resolved once

A request leaves its lane in one of six ways, and each reports it: it is cancelled by `send_next`,
by `retire_lane` or by `disconnect`, it expires, or its last chunk completes it. `Traced` keeps what
was enqueued, sent, received and reported. The requests that are queued, in flight or reported are
those that were enqueued, each of them once (`Resolves.placed`): every operation takes the ids
that it reports out of one lane (`outstanding`). A tombstone is always of a request that was
reported, so it never hides a chunk of the request in flight.
-/

namespace Herden.Proofs.Client.EndpointCommands

open Herden.Lib
open Herden.Runtime.Client.EndpointCommands

/-! ### Runs -/

structure Chunk (ι : Type) where
  endpoint : ι
  generation : Nat
  bootId : String
  requestId : String
  data : List UInt8

/-- The generation, boot id and request id of a command. -/
def nameOf {β : Type} (command : QueuedCommand β) : Tombstone :=
  (command.generation, command.bootId, command.request.id)

def flightName (command : InFlightCommand) : Tombstone :=
  (command.generation, command.bootId, command.requestId)

/-- A request that went out, over the connection of this generation, when so many chunks had
arrived. -/
structure Shipment (ι : Type) where
  endpoint : ι
  name : Tombstone
  connection : Option Nat
  start : Nat

/-- How a request ends. A completed one has the number of chunks that had arrived by then. -/
inductive Resolution (ρ : Type) where
  | completed (result : Except ClientShellEndpointError ρ) (finish : Nat)
  | timedOut
  | cancelled

structure Traced (ι β ρ : Type) [DecidableEq ι] where
  lanes : Lanes ι β
  connections : HashMap ι Nat
  enqueued : List (ι × QueuedCommand β)
  resolved : List (String × Resolution ρ)
  sent : List (Shipment ι)
  arrived : List (Chunk ι)

inductive Op (ι β : Type) where
  | connect (endpoint : ι) (generation : Nat)
  | lose (endpoint : ι)
  | enqueue (endpoint : ι) (command : QueuedCommand β)
  | sendNext (endpoint : ι) (now : Nat) (goesOut : Bool)
  | receive (chunk : Chunk ι) (finalChunk : Bool)
  | expire (now : Nat)
  | retireLane (endpoint : ι)
  | disconnect (endpoint : ι)

section

variable {ι β ρ : Type} [DecidableEq ι]

/-- The lane of an endpoint, if only in the making. -/
def laneOf (lanes : Lanes ι β) (endpoint : ι) : EndpointCommandLane β :=
  (lanes.get endpoint).getD .default

def cancel (ids : List String) : List (String × Resolution ρ) := ids.map fun id => (id, .cancelled)

variable (encode : Request β → Option String)
  (parse : String → List UInt8 → Except ClientShellEndpointError ρ)

/-- The request that `send_next` has put on the wire, if the lane was free. -/
def shipped (endpoint : ι) (before after : Lanes ι β) (connection : Option Nat) (start : Nat) :
    List (Shipment ι) :=
  if (laneOf before endpoint).inFlight.isSome then []
  else (laneOf after endpoint).inFlight.toList.map fun command =>
    ⟨endpoint, flightName command, connection, start⟩

def step (traced : Traced ι β ρ) : Op ι β → Option (Traced ι β ρ × Unit)
  | .connect endpoint generation =>
      some ({ traced with connections := traced.connections.insert endpoint generation }, ())
  | .lose endpoint =>
      some ({ traced with connections := traced.connections.remove endpoint }, ())
  | .enqueue endpoint command =>
      some ({ traced with
        lanes := enqueue endpoint command.generation command.bootId command.request traced.lanes
        enqueued := traced.enqueued ++ [(endpoint, command)] }, ())
  | .sendNext endpoint now goesOut =>
      let (cancelled, connections, lanes) :=
        sendNext encode goesOut endpoint now traced.connections traced.lanes
      some ({ traced with
        lanes := lanes
        connections := connections
        resolved := traced.resolved ++ cancel cancelled
        sent := traced.sent ++ shipped endpoint traced.lanes lanes (traced.connections.get endpoint)
          traced.arrived.length }, ())
  | .receive chunk finalChunk =>
      let (result, lanes) := receiveChunk parse chunk.endpoint chunk.generation chunk.bootId
        chunk.requestId finalChunk chunk.data traced.lanes
      some ({ traced with
        lanes := lanes
        resolved := traced.resolved ++ result.toList.map fun result =>
          (result.requestId, .completed result.result (traced.arrived.length + 1))
        arrived := traced.arrived ++ [chunk] }, ())
  | .expire now =>
      let (results, lanes) := expire (ρ := ρ) now traced.lanes
      some ({ traced with
        lanes := lanes
        resolved := traced.resolved ++ results.map fun result => (result.requestId, .timedOut) },
            ())
  | .retireLane endpoint =>
      let (ids, lanes) := retireLane endpoint traced.lanes
      some ({ traced with lanes := lanes, resolved := traced.resolved ++ cancel ids }, ())
  | .disconnect endpoint =>
      let (ids, lanes) := disconnect endpoint traced.lanes
      some ({ traced with lanes := lanes, resolved := traced.resolved ++ cancel ids }, ())

/-- Request ids are distinct. -/
def Allowed (traced : Traced ι β ρ) : Op ι β → Prop
  | .enqueue _ command => command.request.id ∉ traced.enqueued.map fun entry => entry.2.request.id
  | _ => True

structure Init (traced : Traced ι β ρ) : Prop where
  lanes : traced.lanes = ∅
  enqueued : traced.enqueued = []
  resolved : traced.resolved = []
  sent : traced.sent = []
  arrived : traced.arrived = []

/-! ### The property -/

def queuedIds (lanes : Lanes ι β) : List String :=
  lanes.entries.flatMap fun entry => entry.2.queued.map (·.request.id)

def inFlightIds (lanes : Lanes ι β) : List String :=
  lanes.entries.flatMap fun entry => entry.2.inFlight.toList.map (·.requestId)

/-- The chunk carries the generation, boot id and request id of the shipment. -/
def Answers (shipment : Shipment ι) (chunk : Chunk ι) : Bool :=
  chunk.endpoint = shipment.endpoint &&
    (chunk.generation, chunk.bootId, chunk.requestId) = shipment.name

/-- The bytes of the chunks that answer a shipment, in the order of arrival. -/
def collect (shipment : Shipment ι) (chunks : List (Chunk ι)) : List UInt8 :=
  (chunks.filter (Answers shipment)).flatMap (·.data)

/-- Every enqueued request is queued, in flight or resolved, and only once. At most one request of
an endpoint was sent and is not resolved. The requests of an endpoint are sent in the order in which
they were enqueued, each over a connection of its generation. What is parsed for a completed request
is the data of the chunks that arrived for it since it was sent. -/
structure Resolves (parse : String → List UInt8 → Except ClientShellEndpointError ρ)
    (traced : Traced ι β ρ) : Prop where
  distinct : (traced.enqueued.map fun entry => entry.2.request.id).Nodup
  placed : (traced.enqueued.map fun entry => entry.2.request.id).Perm
    (queuedIds traced.lanes ++ inFlightIds traced.lanes ++ traced.resolved.map Prod.fst)
  single : ∀ first ∈ traced.sent, ∀ second ∈ traced.sent, first.endpoint = second.endpoint →
    first.name.2.2 ∉ traced.resolved.map Prod.fst → second.name.2.2 ∉ traced.resolved.map Prod.fst →
      first.name.2.2 = second.name.2.2
  order : ∀ endpoint, ((traced.sent.filter (·.endpoint = endpoint)).map (·.name)).Sublist
    ((traced.enqueued.filter (·.1 = endpoint)).map fun entry => nameOf entry.2)
  generation : ∀ shipment ∈ traced.sent, shipment.connection = some shipment.name.1
  parsed : ∀ id result finish, (id, .completed result finish) ∈ traced.resolved →
    ∃ shipment ∈ traced.sent, shipment.name.2.2 = id ∧
      result = parse id (collect shipment ((traced.arrived.take finish).drop shipment.start))

/-! ### The ids in the lanes -/

def laneIds (lane : EndpointCommandLane β) : List String :=
  lane.inFlight.toList.map (·.requestId) ++ lane.queued.map (·.request.id)

def outstanding (lanes : Lanes ι β) : List String :=
  lanes.entries.flatMap fun entry => laneIds entry.2

theorem outstanding_perm (lanes : Lanes ι β) :
    (outstanding lanes).Perm (queuedIds lanes ++ inFlightIds lanes) := by
  unfold outstanding queuedIds inFlightIds laneIds
  induction lanes.entries with
  | nil => exact List.Perm.nil
  | cons entry rest ih =>
    simp only [List.flatMap_cons]
    rw [← Multiset.coe_eq_coe] at ih ⊢
    simp only [← Multiset.coe_add] at ih ⊢
    rw [ih]
    abel

theorem laneOf_insert (lanes : Lanes ι β) (endpoint other : ι) (lane : EndpointCommandLane β) :
    laneOf (lanes.insert endpoint lane) other
      = if other = endpoint then lane else laneOf lanes other := by
  rw [laneOf, HashMap.get_insert]
  split
  · rfl
  · rfl

theorem laneOf_remove (lanes : Lanes ι β) (endpoint other : ι) :
    laneOf (lanes.remove endpoint) other
      = if other = endpoint then .default else laneOf lanes other := by
  rw [laneOf, HashMap.get_remove]
  split
  · rfl
  · rfl

theorem outstanding_remove (lanes : Lanes ι β) (endpoint : ι) :
    (outstanding lanes).Perm
      (laneIds (laneOf lanes endpoint) ++ outstanding (lanes.remove endpoint)) := by
  unfold laneOf
  cases h : lanes.get endpoint with
  | none =>
    rw [outstanding, outstanding, HashMap.entries_remove_of_get_eq_none h]
    exact List.Perm.refl _
  | some lane => exact (HashMap.perm_entries_of_get h).flatMap_right _

theorem outstanding_insert_eq (lanes : Lanes ι β) (endpoint : ι) (lane : EndpointCommandLane β) :
    outstanding (lanes.insert endpoint lane)
      = laneIds lane ++ outstanding (lanes.remove endpoint) := by
  rw [outstanding, HashMap.entries_insert, List.flatMap_cons]
  rfl

variable {lanes : Lanes ι β} {endpoint : ι} {lane : EndpointCommandLane β} {shipment : Shipment ι}
  {request : Tombstone} {connection : Option Nat} {now : Nat} {chunk : Chunk ι}
  {command : InFlightCommand} {finalChunk : Bool}

variable {id : String} {chunks : List (Chunk ι)} {ids : List String} {sent : Sent β}
  {before : Lanes ι β} {start : Nat} {after : EndpointCommandLane β}

theorem mem_outstanding (endpoint : ι) (h : id ∈ laneIds (laneOf lanes endpoint)) :
    id ∈ outstanding lanes := by
  rw [(outstanding_remove lanes endpoint).mem_iff]
  exact List.mem_append_left _ h

/-- The ids that a lane gives up are those that are missing afterwards. -/
theorem outstanding_insert {left : List String}
    (h : (laneIds (laneOf lanes endpoint)).Perm (laneIds lane ++ left)) :
    (outstanding lanes).Perm (outstanding (lanes.insert endpoint lane) ++ left) := by
  have hbefore := outstanding_remove lanes endpoint
  rw [outstanding_insert_eq]
  rw [← Multiset.coe_eq_coe] at h hbefore ⊢
  simp only [← Multiset.coe_add] at h hbefore ⊢
  rw [hbefore, h]
  abel

/-! ### The invariant -/

section

variable (parse : String → List UInt8 → Except ClientShellEndpointError ρ)

/-- The request in flight is this shipment, and its response is what has arrived for it. -/
structure Carries (endpoint : ι) (command : InFlightCommand) (arrived : List (Chunk ι))
    (shipment : Shipment ι) : Prop where
  endpoint : shipment.endpoint = endpoint
  name : shipment.name = flightName command
  start : shipment.start ≤ arrived.length
  response : command.response = collect shipment (arrived.drop shipment.start)

/-- The result of a completed request comes from the chunks of its shipment. -/
def Parsed (sent : List (Shipment ι)) (arrived : List (Chunk ι)) (id : String)
    (result : Except ClientShellEndpointError ρ) (finish : Nat) : Prop :=
  ∃ shipment ∈ sent, shipment.name.2.2 = id ∧ finish ≤ arrived.length ∧
    result = parse id (collect shipment ((arrived.take finish).drop shipment.start))

def enqueuedAt (traced : Traced ι β ρ) (endpoint : ι) : List (QueuedCommand β) :=
  (traced.enqueued.filter (·.1 = endpoint)).map Prod.snd

def namesAt (sent : List (Shipment ι)) (endpoint : ι) : List Tombstone :=
  (sent.filter (·.endpoint = endpoint)).map (·.name)

structure Inv (traced : Traced ι β ρ) : Prop where
  distinct : (traced.enqueued.map fun entry => entry.2.request.id).Nodup
  placed : (traced.enqueued.map fun entry => entry.2.request.id).Perm
    (outstanding traced.lanes ++ traced.resolved.map Prod.fst)
  queue : ∀ endpoint, ∃ past,
    enqueuedAt traced endpoint = past ++ (laneOf traced.lanes endpoint).queued ∧
      (namesAt traced.sent endpoint).Sublist (past.map nameOf)
  unresolved : ∀ shipment ∈ traced.sent, shipment.name.2.2 ∉ traced.resolved.map Prod.fst →
    (laneOf traced.lanes shipment.endpoint).inFlight.map (·.requestId) = some shipment.name.2.2
  flight : ∀ endpoint command, (laneOf traced.lanes endpoint).inFlight = some command →
    ∃ shipment ∈ traced.sent, Carries endpoint command traced.arrived shipment
  generation : ∀ shipment ∈ traced.sent, shipment.connection = some shipment.name.1
  retired : ∀ endpoint, ∀ name ∈ (laneOf traced.lanes endpoint).retired,
    name.2.2 ∈ traced.resolved.map Prod.fst
  parsed : ∀ id result finish, (id, .completed result finish) ∈ traced.resolved →
    Parsed parse traced.sent traced.arrived id result finish

end

variable {parse : String → List UInt8 → Except ClientShellEndpointError ρ} {traced : Traced ι β ρ}

theorem Inv.init (h : Init traced) : Inv parse traced := by
  have hlane : ∀ endpoint, laneOf traced.lanes endpoint = .default := by
    intro endpoint
    rw [laneOf, h.lanes, HashMap.get_empty]
    rfl
  constructor
  · rw [h.enqueued]
    exact List.nodup_nil
  · rw [h.enqueued, h.resolved, h.lanes]
    exact List.Perm.nil
  · intro endpoint
    refine ⟨[], ?_, ?_⟩
    · rw [hlane, enqueuedAt, h.enqueued]
      rfl
    · rw [namesAt, h.sent]
      exact List.Sublist.refl _
  · rw [h.sent]
    intro shipment hmem
    cases hmem
  · intro endpoint command hcommand
    rw [hlane] at hcommand
    cases hcommand
  · rw [h.sent]
    intro shipment hmem
    cases hmem
  · intro endpoint name hname
    rw [hlane] at hname
    cases hname
  · rw [h.resolved]
    intro id result finish hmem
    cases hmem

theorem Inv.resolves (h : Inv parse traced) : Resolves parse traced where
  distinct := h.distinct
  placed := h.placed.trans ((outstanding_perm traced.lanes).append_right _)
  single first hfirst second hsecond hendpoint hnot hnot' := by
    have hone := h.unresolved first hfirst hnot
    have htwo := h.unresolved second hsecond hnot'
    rw [hendpoint, htwo] at hone
    exact (Option.some.inj hone).symm
  order endpoint := by
    obtain ⟨past, hpast, hsublist⟩ := h.queue endpoint
    have hnames : (traced.enqueued.filter (·.1 = endpoint)).map (fun entry => nameOf entry.2)
        = (enqueuedAt traced endpoint).map nameOf := by
      rw [enqueuedAt, List.map_map]
      rfl
    rw [hnames, hpast, List.map_append]
    exact hsublist.trans (List.sublist_append_left _ _)
  generation := h.generation
  parsed id result finish hmem := by
    obtain ⟨shipment, hsent, hid, _, hresult⟩ := h.parsed id result finish hmem
    exact ⟨shipment, hsent, hid, hresult⟩

/-- The chunks of one endpoint say nothing about the shipments of another. -/
theorem collect_append {extra : List (Chunk ι)}
    (h : ∀ chunk ∈ extra, Answers shipment chunk = false) :
    collect shipment (chunks ++ extra) = collect shipment chunks := by
  have hnone : extra.filter (Answers shipment) = [] := by
    rw [List.filter_eq_nil_iff]
    intro chunk hchunk
    rw [h chunk hchunk]
    exact Bool.false_ne_true
  rw [collect, collect, List.filter_append, hnone, List.append_nil]

/-- An operation that takes ids out of the lanes and reports them. -/
theorem Inv.change (connections : HashMap ι Nat) (left : List (String × Resolution ρ))
    (sent : List (Shipment ι)) (extra : List (Chunk ι)) (h : Inv parse traced)
    (houtstanding : (outstanding traced.lanes).Perm (outstanding lanes ++ left.map Prod.fst))
    (hqueue : ∀ endpoint, ∃ dropped,
      (laneOf traced.lanes endpoint).queued = dropped ++ (laneOf lanes endpoint).queued ∧
        (namesAt sent endpoint).Sublist (dropped.map nameOf))
    (hunresolved : ∀ shipment ∈ traced.sent ++ sent,
      shipment.name.2.2 ∉ (traced.resolved ++ left).map Prod.fst →
        (laneOf lanes shipment.endpoint).inFlight.map (·.requestId) = some shipment.name.2.2)
    (hflight : ∀ endpoint command, (laneOf lanes endpoint).inFlight = some command →
      ∃ shipment ∈ traced.sent ++ sent, Carries endpoint command (traced.arrived ++ extra) shipment)
    (hgeneration : ∀ shipment ∈ sent, shipment.connection = some shipment.name.1)
    (hretired : ∀ endpoint, ∀ name ∈ (laneOf lanes endpoint).retired,
      name.2.2 ∈ (traced.resolved ++ left).map Prod.fst)
    (hparsed : ∀ id result finish, (id, .completed result finish) ∈ left →
      Parsed parse (traced.sent ++ sent) (traced.arrived ++ extra) id result finish) :
    Inv parse ⟨lanes, connections, traced.enqueued, traced.resolved ++ left, traced.sent ++ sent,
      traced.arrived ++ extra⟩ where
  distinct := h.distinct
  placed := by
    have hplaced := h.placed
    show (traced.enqueued.map _).Perm (outstanding lanes ++ (traced.resolved ++ left).map Prod.fst)
    rw [List.map_append]
    rw [← Multiset.coe_eq_coe] at hplaced houtstanding ⊢
    simp only [← Multiset.coe_add] at hplaced houtstanding ⊢
    rw [hplaced, houtstanding]
    abel
  queue endpoint := by
    obtain ⟨past, hpast, hsublist⟩ := h.queue endpoint
    obtain ⟨dropped, hdropped, hnames⟩ := hqueue endpoint
    refine ⟨past ++ dropped, ?_, ?_⟩
    · show enqueuedAt traced endpoint = past ++ dropped ++ (laneOf lanes endpoint).queued
      rw [hpast, hdropped, List.append_assoc]
    · show (namesAt (traced.sent ++ sent) endpoint).Sublist ((past ++ dropped).map nameOf)
      rw [namesAt, List.filter_append, List.map_append, List.map_append]
      exact hsublist.append hnames
  unresolved := hunresolved
  flight := hflight
  generation shipment hmem := by
    cases List.mem_append.mp hmem with
    | inl hold => exact h.generation shipment hold
    | inr hnew => exact hgeneration shipment hnew
  retired := hretired
  parsed id result finish hmem := by
    cases List.mem_append.mp hmem with
    | inl hold =>
      obtain ⟨shipment, hsent, hid, hfinish, hresult⟩ := h.parsed id result finish hold
      refine ⟨shipment, List.mem_append_left _ hsent, hid, ?_, ?_⟩
      · rw [List.length_append]
        omega
      · rw [List.take_append_of_le_length hfinish]
        exact hresult
    | inr hnew => exact hparsed id result finish hnew

/-- An operation on the lane of one endpoint. -/
theorem Inv.edit (connections : HashMap ι Nat) (left : List (String × Resolution ρ))
    (sent : List (Shipment ι)) (extra : List (Chunk ι)) (h : Inv parse traced)
    (hlane : ∀ other, laneOf lanes other
      = if other = endpoint then lane else laneOf traced.lanes other)
    (houtstanding : (outstanding traced.lanes).Perm (outstanding lanes ++ left.map Prod.fst))
    (hqueue : ∃ dropped, (laneOf traced.lanes endpoint).queued = dropped ++ lane.queued ∧
      (sent.map (·.name)).Sublist (dropped.map nameOf))
    (hsent : ∀ shipment ∈ sent, shipment.endpoint = endpoint ∧
      shipment.connection = some shipment.name.1)
    (hextra : ∀ chunk ∈ extra, chunk.endpoint = endpoint)
    (hunresolved : ∀ shipment ∈ traced.sent ++ sent, shipment.endpoint = endpoint →
      shipment.name.2.2 ∉ (traced.resolved ++ left).map Prod.fst →
        lane.inFlight.map (·.requestId) = some shipment.name.2.2)
    (hflight : ∀ command, lane.inFlight = some command →
      ∃ shipment ∈ traced.sent ++ sent, Carries endpoint command (traced.arrived ++ extra) shipment)
    (hretired : ∀ name ∈ lane.retired, name.2.2 ∈ (traced.resolved ++ left).map Prod.fst)
    (hparsed : ∀ id result finish, (id, .completed result finish) ∈ left →
      Parsed parse (traced.sent ++ sent) (traced.arrived ++ extra) id result finish) :
    Inv parse ⟨lanes, connections, traced.enqueued, traced.resolved ++ left, traced.sent ++ sent,
      traced.arrived ++ extra⟩ := by
  have hold : ∀ id, id ∈ traced.resolved.map Prod.fst →
      id ∈ (traced.resolved ++ left).map Prod.fst := by
    intro id hid
    rw [List.map_append]
    exact List.mem_append_left _ hid
  apply h.change connections left sent extra houtstanding
  · intro other
    rw [hlane]
    split
    next heq =>
      obtain ⟨dropped, hdropped, hnames⟩ := hqueue
      refine ⟨dropped, by rw [heq]; exact hdropped, ?_⟩
      have hall : sent.filter (·.endpoint = other) = sent := by
        rw [List.filter_eq_self]
        intro shipment hmem
        rw [heq]
        exact decide_eq_true (hsent shipment hmem).1
      rw [namesAt, hall]
      exact hnames
    next hne =>
      refine ⟨[], rfl, ?_⟩
      have hnone : sent.filter (·.endpoint = other) = [] := by
        rw [List.filter_eq_nil_iff]
        intro shipment hmem htrue
        exact hne (of_decide_eq_true htrue ▸ (hsent shipment hmem).1)
      rw [namesAt, hnone]
      exact List.Sublist.refl _
  · intro shipment hmem hnot
    rw [hlane]
    split
    next heq => exact hunresolved shipment hmem heq hnot
    next hne =>
      cases List.mem_append.mp hmem with
      | inl hbefore => exact h.unresolved shipment hbefore fun hid => hnot (hold _ hid)
      | inr hnew => exact absurd (hsent shipment hnew).1 hne
  · intro other command hcommand
    rw [hlane] at hcommand
    split at hcommand
    next heq =>
      rw [heq]
      exact hflight command hcommand
    next hne =>
      -- the new chunks are of the other endpoint
      obtain ⟨shipment, hmem, hcarries⟩ := h.flight other command hcommand
      refine ⟨shipment, List.mem_append_left _ hmem, hcarries.endpoint, hcarries.name, ?_, ?_⟩
      · rw [List.length_append]
        have := hcarries.start
        omega
      · rw [List.drop_append_of_le_length hcarries.start, collect_append]
        · exact hcarries.response
        · intro chunk hchunk
          have hdiffer : chunk.endpoint ≠ shipment.endpoint := by
            rw [hextra chunk hchunk, hcarries.endpoint]
            exact fun heq => hne heq.symm
          simp [Answers, hdiffer]
  · exact fun shipment hmem => (hsent shipment hmem).2
  · intro other name hname
    rw [hlane] at hname
    split at hname
    · exact hretired name hname
    · exact hold _ (h.retired other name hname)
  · exact hparsed

/-! ### The operations -/

theorem mem_retire {name : Tombstone} (h : name ∈ (lane.retire request).retired) :
    name ∈ lane.retired ∨ name = request := by
  unfold EndpointCommandLane.retire at h
  split at h
  · exact Or.inl h
  · cases List.mem_append.mp h with
    | inl hold =>
      split at hold
      · exact Or.inl (List.mem_of_mem_tail hold)
      · exact Or.inl hold
    | inr hnew => exact Or.inr (List.mem_singleton.mp hnew)

theorem retire_queued (lane : EndpointCommandLane β) (request : Tombstone) :
    (lane.retire request).queued = lane.queued := by
  unfold EndpointCommandLane.retire
  split
  · rfl
  · rfl

theorem map_fst_cancel (ids : List String) :
    (cancel ids : List (String × Resolution ρ)).map Prod.fst = ids := by
  rw [cancel, List.map_map]
  exact List.map_id ids

theorem not_completed_cancel {result : Except ClientShellEndpointError ρ} {finish : Nat}
    (h : (id, Resolution.completed result finish) ∈ cancel ids) : False := by
  obtain ⟨other, _, heq⟩ := List.mem_map.mp h
  cases heq

/-- The request that was in flight is among the ids that are reported. -/
theorem Inv.reported {left : List (String × Resolution ρ)} (h : Inv parse traced)
    (hmem : shipment ∈ traced.sent)
    (hleft : ∀ command, (laneOf traced.lanes shipment.endpoint).inFlight = some command →
      command.requestId ∈ left.map Prod.fst) :
    shipment.name.2.2 ∈ (traced.resolved ++ left).map Prod.fst := by
  rw [List.map_append, List.mem_append]
  by_cases hdone : shipment.name.2.2 ∈ traced.resolved.map Prod.fst
  · exact Or.inl hdone
  · have hflight := h.unresolved shipment hmem hdone
    obtain ⟨command, hcommand, hid⟩ := Option.map_eq_some_iff.mp hflight
    rw [← hid]
    exact Or.inr (hleft command hcommand)

/-- A lane gives up all its requests, which are cancelled. -/
theorem Inv.clear (h : Inv parse traced) (hlane : ∀ other, laneOf lanes other
      = if other = endpoint then lane else laneOf traced.lanes other)
    (houtstanding : (outstanding traced.lanes).Perm (outstanding lanes ++ ids))
    (hqueued : lane.queued = []) (hinFlight : lane.inFlight = none)
    (hids : ∀ command, (laneOf traced.lanes endpoint).inFlight = some command →
      command.requestId ∈ ids) (hretired : ∀ name ∈ lane.retired,
      name ∈ (laneOf traced.lanes endpoint).retired ∨ name.2.2 ∈ ids) :
    Inv parse { traced with lanes := lanes, resolved := traced.resolved ++ cancel ids } := by
  have hnext := h.edit traced.connections (cancel ids) [] [] hlane
    (by rw [map_fst_cancel]; exact houtstanding)
    ⟨(laneOf traced.lanes endpoint).queued, by rw [hqueued, List.append_nil], List.nil_sublist _⟩
    (fun _ hmem => (by cases hmem)) (fun _ hmem => (by cases hmem))
    (by
      intro shipment hmem hendpoint hnot
      rw [List.append_nil] at hmem
      refine absurd (h.reported hmem fun command hcommand => ?_) hnot
      rw [hendpoint] at hcommand
      rw [map_fst_cancel]
      exact hids command hcommand)
    (by
      intro command hcommand
      rw [hinFlight] at hcommand
      cases hcommand)
    (by
      intro name hname
      rw [List.map_append, List.mem_append, map_fst_cancel]
      cases hretired name hname with
      | inl hold => exact Or.inl (h.retired endpoint name hold)
      | inr hnew => exact Or.inr hnew)
    (fun _ _ _ hmem => (not_completed_cancel hmem).elim)
  rw [List.append_nil, List.append_nil] at hnext
  exact hnext

theorem Inv.retireLane (h : Inv parse traced) : Inv parse { traced with
      lanes := (retireLane endpoint traced.lanes).2
      resolved := traced.resolved ++ cancel (retireLane endpoint traced.lanes).1 } := by
  unfold Herden.Runtime.Client.EndpointCommands.retireLane
  cases hget : traced.lanes.get endpoint with
  | none =>
    show Inv parse { traced with resolved := traced.resolved ++ [] }
    rw [List.append_nil]
    exact h
  | some lane =>
    have hbefore : laneOf traced.lanes endpoint = lane := by
      rw [laneOf, hget]
      rfl
    dsimp only
    cases hcommand : lane.inFlight with
    | none =>
      show Inv parse { traced with
        lanes := traced.lanes.insert endpoint { lane with queued := [], inFlight := none }
        resolved := traced.resolved ++ cancel (lane.queued.map (·.request.id)) }
      apply h.clear (laneOf_insert _ _ · _) (outstanding_insert ?_) rfl rfl
      · intro command hflight
        rw [hbefore, hcommand] at hflight
        cases hflight
      · intro name hname
        rw [hbefore]
        exact Or.inl hname
      · rw [hbefore, laneIds, laneIds, hcommand]
        exact List.Perm.refl _
    | some command =>
      apply h.clear (laneOf_insert _ _ · _) (outstanding_insert ?_) rfl rfl
      · intro other hflight
        rw [hbefore, hcommand] at hflight
        cases hflight
        exact List.mem_cons_self
      · intro name hname
        rw [hbefore]
        cases mem_retire hname with
        | inl hold => exact Or.inl hold
        | inr hnew =>
          rw [hnew]
          exact Or.inr List.mem_cons_self
      · rw [hbefore, laneIds, laneIds, hcommand]
        exact List.Perm.refl _

theorem Inv.disconnect (h : Inv parse traced) : Inv parse { traced with
      lanes := (disconnect endpoint traced.lanes).2
      resolved := traced.resolved ++ cancel (disconnect endpoint traced.lanes).1 } := by
  unfold Herden.Runtime.Client.EndpointCommands.disconnect
  cases hget : traced.lanes.get endpoint with
  | none =>
    show Inv parse { traced with resolved := traced.resolved ++ [] }
    rw [List.append_nil]
    exact h
  | some lane =>
    have hbefore : laneOf traced.lanes endpoint = lane := by
      rw [laneOf, hget]
      rfl
    dsimp only
    refine h.clear (laneOf_remove _ _) ?_ rfl rfl ?_ (fun _ hname => (by cases hname))
    · have hperm := outstanding_remove traced.lanes endpoint
      rw [hbefore, laneIds] at hperm
      rw [← Multiset.coe_eq_coe] at hperm ⊢
      simp only [← Multiset.coe_add] at hperm ⊢
      rw [hperm]
      abel
    · intro command hcommand
      rw [hbefore] at hcommand
      rw [hcommand]
      exact List.mem_append_right _ List.mem_cons_self

/-! ### Enqueueing -/

theorem laneOf_enqueue (lanes : Lanes ι β) (endpoint other : ι) (command : QueuedCommand β) :
    laneOf (enqueue endpoint command.generation command.bootId command.request lanes) other
      = if other = endpoint then
          { laneOf lanes endpoint with queued := (laneOf lanes endpoint).queued ++ [command] }
        else laneOf lanes other :=
  laneOf_insert lanes endpoint other _

theorem outstanding_enqueue (lanes : Lanes ι β) (endpoint : ι) (command : QueuedCommand β) :
    (outstanding (enqueue endpoint command.generation command.bootId command.request lanes)).Perm
      (command.request.id :: outstanding lanes) := by
  have hbefore := outstanding_remove lanes endpoint
  have hlane : laneIds { laneOf lanes endpoint with
      queued := (laneOf lanes endpoint).queued ++ [command] }
      = laneIds (laneOf lanes endpoint) ++ [command.request.id] := by
    rw [laneIds, laneIds, List.map_append, ← List.append_assoc]
    rfl
  rw [enqueue, outstanding_insert_eq]
  change (laneIds { laneOf lanes endpoint with
    queued := (laneOf lanes endpoint).queued ++ [command] } ++ _).Perm _
  rw [hlane, List.append_assoc]
  exact List.perm_middle.trans (hbefore.symm.cons _)

/-- A lane that differs only in its queue. -/
theorem Inv.enqueue {command : QueuedCommand β} (h : Inv parse traced)
    (hfresh : command.request.id ∉ traced.enqueued.map fun entry => entry.2.request.id) :
    Inv parse { traced with
      lanes := enqueue endpoint command.generation command.bootId command.request traced.lanes
      enqueued := traced.enqueued ++ [(endpoint, command)] } := by
  have hinFlight : ∀ other, (laneOf (Herden.Runtime.Client.EndpointCommands.enqueue endpoint
      command.generation command.bootId command.request traced.lanes) other).inFlight
        = (laneOf traced.lanes other).inFlight := by
    intro other
    rw [laneOf_enqueue]
    split
    next heq => rw [heq]
    · rfl
  have hretired : ∀ other, (laneOf (Herden.Runtime.Client.EndpointCommands.enqueue endpoint
      command.generation command.bootId command.request traced.lanes) other).retired
        = (laneOf traced.lanes other).retired := by
    intro other
    rw [laneOf_enqueue]
    split
    next heq => rw [heq]
    · rfl
  constructor
  · show ((traced.enqueued ++ [(endpoint, command)]).map _).Nodup
    rw [List.map_append]
    refine List.nodup_append.mpr ⟨h.distinct, List.nodup_singleton _, ?_⟩
    intro id hid other hother heq
    have hsame : other = command.request.id := List.mem_singleton.mp hother
    rw [heq, hsame] at hid
    exact hfresh hid
  · show ((traced.enqueued ++ [(endpoint, command)]).map _).Perm (_ ++ traced.resolved.map Prod.fst)
    rw [List.map_append]
    have hplaced := h.placed.cons command.request.id
    have houtstanding := (outstanding_enqueue traced.lanes endpoint command).append_right
      (traced.resolved.map Prod.fst)
    exact (List.perm_append_comm.trans hplaced).trans houtstanding.symm
  · intro other
    obtain ⟨past, hpast, hsublist⟩ := h.queue other
    refine ⟨past, ?_, hsublist⟩
    show ((traced.enqueued ++ [(endpoint, command)]).filter (·.1 = other)).map Prod.snd = _
    rw [laneOf_enqueue, List.filter_append, List.map_append]
    change enqueuedAt traced other ++ _ = _
    rw [hpast]
    split
    next heq =>
      have hone : [(endpoint, command)].filter (·.1 = endpoint) = [(endpoint, command)] := by simp
      rw [heq, hone]
      exact List.append_assoc _ _ _
    next hne =>
      have hnone : [(endpoint, command)].filter (·.1 = other) = [] := by simp [Ne.symm hne]
      rw [hnone]
      exact List.append_nil _
  · intro shipment hmem hnot
    rw [hinFlight]
    exact h.unresolved shipment hmem hnot
  · intro other inFlight hsome
    rw [hinFlight] at hsome
    exact h.flight other inFlight hsome
  · exact h.generation
  · intro other name hname
    rw [hretired] at hname
    exact h.retired other name hname
  · exact h.parsed

/-! ### Sending -/

/-- What the loop leaves of a queue: its first requests are cancelled, and the one after them, if it
is taken, goes out over a connection of its generation. -/
def Drains (now : Nat) (connection : Option Nat) (queue : List (QueuedCommand β))
    (sent : Sent β) : Prop :=
  ∃ cancelled : List (QueuedCommand β), sent.cancelled = cancelled.map (·.request.id) ∧
    (sent.inFlight = none ∧ queue = cancelled ++ sent.rest ∨
      ∃ taken : QueuedCommand β,
        sent.inFlight = some ⟨taken.generation, taken.bootId, taken.request.id, [], now⟩ ∧
          queue = cancelled ++ taken :: sent.rest ∧ connection = some taken.generation)

theorem Drains.cons {now : Nat} {connection after : Option Nat} {queue : List (QueuedCommand β)}
    {sent : Sent β} (queued : QueuedCommand β) (h : Drains now after queue sent)
    (hafter : after = connection ∨ after = none) :
    Drains now connection (queued :: queue)
      { sent with cancelled := queued.request.id :: sent.cancelled } := by
  obtain ⟨cancelled, hids, hends⟩ := h
  refine ⟨queued :: cancelled, by rw [hids]; rfl, ?_⟩
  cases hends with
  | inl hnone => exact Or.inl ⟨hnone.1, congrArg _ hnone.2⟩
  | inr htaken =>
    obtain ⟨taken, hflight, hrest, hconnection⟩ := htaken
    refine Or.inr ⟨taken, hflight, congrArg _ hrest, ?_⟩
    cases hafter with
    | inl hsame => rw [← hsame, hconnection]
    | inr hlost =>
      -- nothing goes out without a connection
      rw [hlost] at hconnection
      cases hconnection

theorem drains_sendLoop (encode : Request β → Option String) (goesOut : Bool) (now : Nat)
    (connection : Option Nat) (queue : List (QueuedCommand β)) :
    Drains now connection queue (sendLoop encode goesOut now connection queue) := by
  induction queue generalizing connection with
  | nil => exact ⟨[], rfl, Or.inl ⟨rfl, rfl⟩⟩
  | cons queued rest ih =>
    rw [sendLoop]
    dsimp only
    split
    · exact (ih connection).cons queued (Or.inl rfl)
    next hconnection =>
      split
      · exact (ih connection).cons queued (Or.inl rfl)
      · split
        · exact (ih none).cons queued (Or.inr rfl)
        · exact ⟨[], rfl, Or.inr ⟨queued, rfl, rfl, not_not.mp hconnection⟩⟩

theorem Drains.laneIds (h : Drains now connection lane.queued sent) (hfree : lane.inFlight = none) :
    (laneIds lane).Perm
      (laneIds { lane with queued := sent.rest, inFlight := sent.inFlight } ++ sent.cancelled) := by
  obtain ⟨cancelled, hids, hends⟩ := h
  unfold EndpointCommands.laneIds
  rw [hids, hfree]
  cases hends with
  | inl hnone =>
    rw [hnone.1, hnone.2, List.map_append]
    show (cancelled.map (·.request.id) ++ sent.rest.map (·.request.id)).Perm
      (sent.rest.map (·.request.id) ++ cancelled.map (·.request.id))
    exact List.perm_append_comm
  | inr htaken =>
    obtain ⟨taken, hflight, hrest, _⟩ := htaken
    rw [hflight, hrest, List.map_append]
    show (cancelled.map (·.request.id) ++ taken.request.id :: sent.rest.map (·.request.id)).Perm
      (taken.request.id :: sent.rest.map (·.request.id) ++ cancelled.map (·.request.id))
    exact List.perm_append_comm

/-- `send_next` puts a busy lane back as it is, and drains a free one. -/
theorem sendNext_cases (encode : Request β → Option String) (goesOut : Bool) (endpoint : ι)
    (now : Nat) (connections : HashMap ι Nat) (lanes : Lanes ι β) :
    ((laneOf lanes endpoint).inFlight.isSome = true ∧
        sendNext encode goesOut endpoint now connections lanes
          = ([], connections, lanes.insert endpoint (laneOf lanes endpoint))) ∨
      ((laneOf lanes endpoint).inFlight = none ∧ ∃ sent left,
        Drains now (connections.get endpoint) (laneOf lanes endpoint).queued sent ∧
          sendNext encode goesOut endpoint now connections lanes
            = (sent.cancelled, left, lanes.insert endpoint
                { laneOf lanes endpoint with
                  queued := sent.rest, inFlight := sent.inFlight })) := by
  unfold sendNext
  dsimp only
  by_cases hbusy : (laneOf lanes endpoint).inFlight.isSome = true
  · exact Or.inl ⟨hbusy, if_pos hbusy⟩
  · refine Or.inr ⟨Option.not_isSome_iff_eq_none.mp hbusy, _, _, ?_, if_neg hbusy⟩
    exact drains_sendLoop encode goesOut now (connections.get endpoint) _

theorem shipped_of_busy {after : Lanes ι β} (h : (laneOf before endpoint).inFlight.isSome = true) :
    shipped endpoint before after connection start = [] :=
  if_pos h

theorem shipped_of_free (h : (laneOf before endpoint).inFlight = none) :
    shipped endpoint before (before.insert endpoint lane) connection start
      = lane.inFlight.toList.map fun command =>
          ⟨endpoint, flightName command, connection, start⟩ := by
  have hfree : ¬ (laneOf before endpoint).inFlight.isSome = true := by
    rw [h]
    exact Bool.false_ne_true
  rw [shipped, if_neg hfree, laneOf_insert, if_pos rfl]

/-- With no request in flight, what was sent is resolved. -/
theorem Inv.resolved_of_free (h : Inv parse traced) (hmem : shipment ∈ traced.sent)
    (hfree : (laneOf traced.lanes shipment.endpoint).inFlight = none) :
    shipment.name.2.2 ∈ traced.resolved.map Prod.fst := by
  have hreported : shipment.name.2.2 ∈ (traced.resolved ++ []).map Prod.fst := by
    apply h.reported hmem
    intro command hcommand
    rw [hfree] at hcommand
    cases hcommand
  rw [List.append_nil] at hreported
  exact hreported

theorem Inv.drained (connections : HashMap ι Nat) (h : Inv parse traced)
    (hfree : (laneOf traced.lanes endpoint).inFlight = none)
    (hdrains : Drains now (traced.connections.get endpoint)
      (laneOf traced.lanes endpoint).queued sent) : Inv parse { traced with
      lanes := traced.lanes.insert endpoint
        { laneOf traced.lanes endpoint with queued := sent.rest, inFlight := sent.inFlight }
      connections := connections
      resolved := traced.resolved ++ cancel sent.cancelled
      sent := traced.sent ++ sent.inFlight.toList.map fun command =>
        ⟨endpoint, flightName command, traced.connections.get endpoint,
          traced.arrived.length⟩ } := by
  have hids := hdrains.laneIds hfree
  obtain ⟨cancelled, hcancelled, hends⟩ := hdrains
  have hnext := h.edit connections (cancel sent.cancelled)
    (sent.inFlight.toList.map fun command =>
      ⟨endpoint, flightName command, traced.connections.get endpoint, traced.arrived.length⟩) []
    (laneOf_insert _ _ · _)
    (by
      rw [map_fst_cancel]
      exact outstanding_insert hids)
    (by
      cases hends with
      | inl hnone =>
        rw [hnone.1]
        exact ⟨cancelled, hnone.2, List.nil_sublist _⟩
      | inr htaken =>
        obtain ⟨taken, hflight, hrest, _⟩ := htaken
        refine ⟨cancelled ++ [taken], ?_, ?_⟩
        · rw [hrest, List.append_assoc]
          rfl
        · rw [hflight, List.map_append]
          exact List.sublist_append_right _ _)
    (by
      intro shipment hmem
      obtain ⟨command, hcommand, rfl⟩ := List.mem_map.mp hmem
      refine ⟨rfl, ?_⟩
      cases hends with
      | inl hnone =>
        rw [hnone.1] at hcommand
        cases hcommand
      | inr htaken =>
        obtain ⟨taken, hflight, _, hconnection⟩ := htaken
        rw [hflight] at hcommand
        rw [List.mem_singleton.mp hcommand]
        exact hconnection)
    (fun _ hmem => (by cases hmem))
    (by
      intro shipment hmem hendpoint hnot
      cases List.mem_append.mp hmem with
      | inl hold =>
        refine absurd ?_ hnot
        rw [List.map_append]
        exact List.mem_append_left _ (h.resolved_of_free hold (hendpoint ▸ hfree))
      | inr hnew =>
        obtain ⟨command, hcommand, rfl⟩ := List.mem_map.mp hnew
        rw [Option.mem_toList.mp hcommand]
        rfl)
    (by
      intro command hcommand
      change sent.inFlight = some command at hcommand
      cases hends with
      | inl hnone =>
        rw [hnone.1] at hcommand
        cases hcommand
      | inr htaken =>
        -- nothing has arrived since
        obtain ⟨taken, hflight, _, _⟩ := htaken
        refine ⟨_, List.mem_append_right _
          (List.mem_map.mpr ⟨command, Option.mem_toList.mpr hcommand, rfl⟩), rfl, rfl, ?_, ?_⟩
        · rw [List.append_nil]
        · rw [hflight] at hcommand
          cases hcommand
          rw [List.append_nil, List.drop_length]
          rfl)
    (by
      intro name hname
      rw [List.map_append]
      exact List.mem_append_left _ (h.retired endpoint name hname))
    (fun _ _ _ hmem => (not_completed_cancel hmem).elim)
  rw [List.append_nil] at hnext
  exact hnext

theorem Inv.putBack (h : Inv parse traced) : Inv parse { traced with
      lanes := traced.lanes.insert endpoint (laneOf traced.lanes endpoint) } := by
  have hlane : ∀ other, laneOf (traced.lanes.insert endpoint (laneOf traced.lanes endpoint)) other
      = laneOf traced.lanes other := by
    intro other
    rw [laneOf_insert]
    split
    next heq => rw [heq]
    · rfl
  have houtstanding : (outstanding traced.lanes).Perm
      (outstanding (traced.lanes.insert endpoint (laneOf traced.lanes endpoint)) ++ []) :=
    outstanding_insert (by rw [List.append_nil])
  rw [List.append_nil] at houtstanding
  constructor
  · exact h.distinct
  · exact h.placed.trans (houtstanding.append_right _)
  · intro other
    rw [hlane]
    exact h.queue other
  · intro shipment hmem hnot
    rw [hlane]
    exact h.unresolved shipment hmem hnot
  · intro other command hcommand
    rw [hlane] at hcommand
    exact h.flight other command hcommand
  · exact h.generation
  · intro other name hname
    rw [hlane] at hname
    exact h.retired other name hname
  · exact h.parsed

theorem Inv.sendNext {encode : Request β → Option String} {goesOut : Bool} (h : Inv parse traced) :
    Inv parse { traced with
      lanes := (sendNext encode goesOut endpoint now traced.connections traced.lanes).2.2
      connections := (sendNext encode goesOut endpoint now traced.connections traced.lanes).2.1
      resolved := traced.resolved ++ cancel
        (sendNext encode goesOut endpoint now traced.connections traced.lanes).1
      sent := traced.sent ++ shipped endpoint traced.lanes
        (sendNext encode goesOut endpoint now traced.connections traced.lanes).2.2
        (traced.connections.get endpoint) traced.arrived.length } := by
  cases sendNext_cases encode goesOut endpoint now traced.connections traced.lanes with
  | inl hbusy =>
    rw [hbusy.2, shipped_of_busy hbusy.1]
    show Inv parse { traced with
      lanes := traced.lanes.insert endpoint (laneOf traced.lanes endpoint)
      resolved := traced.resolved ++ []
      sent := traced.sent ++ [] }
    rw [List.append_nil, List.append_nil]
    exact h.putBack
  | inr hfree =>
    obtain ⟨hnone, sent, left, hdrains, heq⟩ := hfree
    rw [heq, shipped_of_free hnone]
    exact h.drained left hnone hdrains

/-! ### Receiving -/

theorem collect_append_answer (h : Answers shipment chunk = true) :
    collect shipment (chunks ++ [chunk]) = collect shipment chunks ++ chunk.data := by
  have hone : [chunk].filter (Answers shipment) = [chunk] := by simp [h]
  rw [collect, collect, List.filter_append, hone, List.flatMap_append, List.flatMap_singleton]

/-- A request in flight is not resolved. -/
theorem Inv.flight_not_resolved (h : Inv parse traced)
    (hcommand : (laneOf traced.lanes endpoint).inFlight = some command) :
    command.requestId ∉ traced.resolved.map Prod.fst := by
  have hnodup := h.placed.nodup_iff.mp h.distinct
  have hmem : command.requestId ∈ outstanding traced.lanes := by
    apply mem_outstanding endpoint
    rw [laneIds, hcommand]
    exact List.mem_append_left _ List.mem_cons_self
  intro hresolved
  exact (List.nodup_append.mp hnodup).2.2 _ hmem _ hresolved rfl

theorem mem_of_consumeRetired (h : lane.consumeRetired request finalChunk = (true, after)) :
    request ∈ lane.retired ∧ after.queued = lane.queued ∧ after.inFlight = lane.inFlight ∧
      ∀ name ∈ after.retired, name ∈ lane.retired := by
  unfold EndpointCommandLane.consumeRetired at h
  split at h
  · cases h
  next index hindex =>
    obtain ⟨hlt, hfound, _⟩ := List.findIdx?_eq_some_iff_getElem.mp hindex
    have hmem : request ∈ lane.retired := by
      rw [← of_decide_eq_true hfound]
      exact List.getElem_mem hlt
    split at h
    · cases h
      exact ⟨hmem, rfl, rfl, fun _ => List.mem_of_mem_eraseIdx⟩
    · cases h
      exact ⟨hmem, rfl, rfl, fun _ => id⟩

theorem eq_of_consumeRetired (h : lane.consumeRetired request finalChunk = (false, after)) :
    after = lane := by
  unfold EndpointCommandLane.consumeRetired at h
  split at h
  · cases h
    rfl
  · split at h
    · cases h
    · cases h

/-- A chunk that is not of the request in flight. At most tombstones go. -/
theorem Inv.ignored (h : Inv parse traced) (hlane : ∀ other, laneOf lanes other
      = if other = chunk.endpoint then lane else laneOf traced.lanes other)
    (houtstanding : (outstanding traced.lanes).Perm (outstanding lanes))
    (hqueued : lane.queued = (laneOf traced.lanes chunk.endpoint).queued)
    (hinFlight : lane.inFlight = (laneOf traced.lanes chunk.endpoint).inFlight)
    (hretired : ∀ name ∈ lane.retired, name ∈ (laneOf traced.lanes chunk.endpoint).retired)
    (hother : ∀ command, lane.inFlight = some command →
      flightName command ≠ (chunk.generation, chunk.bootId, chunk.requestId)) :
    Inv parse { traced with
      lanes := lanes
      arrived := traced.arrived ++ [chunk] } := by
  have hnext := h.edit traced.connections [] [] [chunk] hlane
    (by
      rw [List.map_nil, List.append_nil]
      exact houtstanding)
    ⟨[], hqueued.symm, List.Sublist.refl _⟩
    (fun _ hmem => (by cases hmem))
    (fun other hmem => by rw [List.mem_singleton.mp hmem])
    (by
      intro shipment hmem hendpoint hnot
      rw [List.append_nil] at hmem hnot
      rw [hinFlight, ← hendpoint]
      exact h.unresolved shipment hmem hnot)
    (by
      intro command hcommand
      have hdiffer := hother command hcommand
      rw [hinFlight] at hcommand
      obtain ⟨shipment, hmem, hcarries⟩ := h.flight _ command hcommand
      refine ⟨shipment, List.mem_append_left _ hmem, hcarries.endpoint, hcarries.name, ?_, ?_⟩
      · rw [List.length_append]
        have := hcarries.start
        omega
      · rw [List.drop_append_of_le_length hcarries.start, collect_append]
        · exact hcarries.response
        · intro other hchunk
          rw [List.mem_singleton.mp hchunk, Answers, hcarries.name]
          simp [Ne.symm hdiffer])
    (by
      intro name hname
      rw [List.append_nil]
      exact h.retired _ name (hretired name hname))
    (fun _ _ _ hmem => (by cases hmem))
  rw [List.append_nil, List.append_nil] at hnext
  exact hnext

/-- A chunk of the request in flight: its data are added to the response. -/
theorem Carries.receive {arrived : List (Chunk ι)} (h : Carries endpoint command arrived shipment)
    (hendpoint : chunk.endpoint = endpoint)
    (hname : flightName command = (chunk.generation, chunk.bootId, chunk.requestId)) :
    Carries endpoint { command with response := command.response ++ chunk.data }
      (arrived ++ [chunk]) shipment where
  endpoint := h.endpoint
  name := h.name
  start := by
    rw [List.length_append]
    have := h.start
    omega
  response := by
    have hanswers : Answers shipment chunk = true := by
      simp [Answers, hendpoint, h.endpoint, h.name, hname]
    rw [List.drop_append_of_le_length h.start, collect_append_answer hanswers, h.response]

theorem Inv.extended (h : Inv parse traced)
    (hcommand : (laneOf traced.lanes chunk.endpoint).inFlight = some command)
    (hname : flightName command = (chunk.generation, chunk.bootId, chunk.requestId)) :
    Inv parse { traced with
      lanes := traced.lanes.insert chunk.endpoint { laneOf traced.lanes chunk.endpoint with
        inFlight := some { command with response := command.response ++ chunk.data } }
      arrived := traced.arrived ++ [chunk] } := by
  have hlane := (laneOf_insert traced.lanes chunk.endpoint ·
    { laneOf traced.lanes chunk.endpoint with
      inFlight := some { command with response := command.response ++ chunk.data } })
  have hnext := h.edit traced.connections [] [] [chunk] hlane
    (by
      apply outstanding_insert
      rw [laneIds, laneIds, hcommand]
      exact List.Perm.of_eq (List.append_nil _).symm)
    ⟨[], rfl, List.Sublist.refl _⟩
    (fun _ hmem => (by cases hmem))
    (fun other hmem => by rw [List.mem_singleton.mp hmem])
    (by
      intro shipment hmem hendpoint hnot
      rw [List.append_nil] at hmem hnot
      have hbefore := h.unresolved shipment hmem hnot
      rw [hendpoint, hcommand] at hbefore
      exact hbefore)
    (by
      intro extended hextended
      cases hextended
      obtain ⟨shipment, hmem, hcarries⟩ := h.flight _ command hcommand
      exact ⟨shipment, List.mem_append_left _ hmem, hcarries.receive rfl hname⟩)
    (by
      intro name hretired
      rw [List.append_nil]
      exact h.retired _ name hretired)
    (fun _ _ _ hmem => (by cases hmem))
  rw [List.append_nil, List.append_nil] at hnext
  exact hnext

theorem Inv.completed (h : Inv parse traced)
    (hcommand : (laneOf traced.lanes chunk.endpoint).inFlight = some command)
    (hname : flightName command = (chunk.generation, chunk.bootId, chunk.requestId)) :
    Inv parse { traced with
      lanes := traced.lanes.insert chunk.endpoint { laneOf traced.lanes chunk.endpoint with
        inFlight := none }
      resolved := traced.resolved ++ [(command.requestId,
        .completed (parse command.requestId (command.response ++ chunk.data))
          (traced.arrived.length + 1))]
      arrived := traced.arrived ++ [chunk] } := by
  have hlane := (laneOf_insert traced.lanes chunk.endpoint ·
    { laneOf traced.lanes chunk.endpoint with inFlight := none })
  have hnext := h.edit traced.connections [(command.requestId,
      .completed (parse command.requestId (command.response ++ chunk.data))
        (traced.arrived.length + 1))] [] [chunk] hlane
    (by
      apply outstanding_insert
      rw [laneIds, laneIds, hcommand]
      exact List.perm_append_comm)
    ⟨[], rfl, List.Sublist.refl _⟩
    (fun _ hmem => (by cases hmem))
    (fun other hmem => by rw [List.mem_singleton.mp hmem])
    (by
      intro shipment hmem hendpoint hnot
      rw [List.append_nil] at hmem
      refine absurd (h.reported hmem ?_) hnot
      intro other hother
      rw [hendpoint, hcommand] at hother
      cases hother
      exact List.mem_cons_self)
    (fun _ hnone => (by cases hnone))
    (by
      intro name hretired
      rw [List.map_append]
      exact List.mem_append_left _ (h.retired _ name hretired))
    (by
      intro id result finish hmem
      cases List.mem_singleton.mp hmem
      obtain ⟨shipment, hsent, hcarries⟩ := h.flight _ command hcommand
      have hall := (hcarries.receive rfl hname).response
      refine ⟨shipment, List.mem_append_left _ hsent, ?_, ?_, ?_⟩
      · rw [hcarries.name]
        rfl
      · rw [List.length_append]
        exact Nat.le_refl _
      · have htake : (traced.arrived ++ [chunk]).take (traced.arrived.length + 1)
            = traced.arrived ++ [chunk] := by
          apply List.take_of_length_le
          rw [List.length_append]
          exact Nat.le_refl _
        rw [htake, ← hall])
  rw [List.append_nil] at hnext
  exact hnext

/-- A chunk is ignored, or it is of the request in flight. -/
theorem receiveChunk_cases (parse : String → List UInt8 → Except ClientShellEndpointError ρ)
    (chunk : Chunk ι) (finalChunk : Bool) (lanes : Lanes ι β) :
    (∃ after, receiveChunk parse chunk.endpoint chunk.generation chunk.bootId chunk.requestId
        finalChunk chunk.data lanes = (none, lanes.insert chunk.endpoint after) ∧
      (chunk.generation, chunk.bootId, chunk.requestId)
        ∈ (laneOf lanes chunk.endpoint).retired ∧
      after.queued = (laneOf lanes chunk.endpoint).queued ∧
      after.inFlight = (laneOf lanes chunk.endpoint).inFlight ∧
      ∀ name ∈ after.retired, name ∈ (laneOf lanes chunk.endpoint).retired) ∨
    (receiveChunk parse chunk.endpoint chunk.generation chunk.bootId chunk.requestId
        finalChunk chunk.data lanes = (none, lanes) ∧
      ∀ command, (laneOf lanes chunk.endpoint).inFlight = some command →
        flightName command ≠ (chunk.generation, chunk.bootId, chunk.requestId)) ∨
    (∃ command, (laneOf lanes chunk.endpoint).inFlight = some command ∧
      flightName command = (chunk.generation, chunk.bootId, chunk.requestId) ∧
      receiveChunk parse chunk.endpoint chunk.generation chunk.bootId chunk.requestId
        finalChunk chunk.data lanes
        = if finalChunk then
            (some ⟨chunk.endpoint, command.generation, command.bootId, command.requestId,
                parse command.requestId (command.response ++ chunk.data)⟩,
              lanes.insert chunk.endpoint
                { laneOf lanes chunk.endpoint with inFlight := none })
          else (none, lanes.insert chunk.endpoint { laneOf lanes chunk.endpoint with
            inFlight := some { command with response := command.response ++ chunk.data } })) := by
  unfold receiveChunk
  cases hget : lanes.get chunk.endpoint with
  | none =>
    refine Or.inr (Or.inl ⟨rfl, ?_⟩)
    intro command hcommand
    rw [laneOf, hget] at hcommand
    cases hcommand
  | some lane =>
    have hlane : laneOf lanes chunk.endpoint = lane := by
      rw [laneOf, hget]
      rfl
    rw [hlane]
    dsimp only
    split
    next after hconsumed =>
      obtain ⟨hmem, hqueued, hinFlight, hretired⟩ := mem_of_consumeRetired hconsumed
      exact Or.inl ⟨after, rfl, hmem, hqueued, hinFlight, hretired⟩
    next after hconsumed =>
      rw [eq_of_consumeRetired hconsumed]
      right
      split
      next hnone =>
        refine Or.inl ⟨rfl, ?_⟩
        intro command hcommand
        rw [hnone] at hcommand
        cases hcommand
      next command hcommand =>
        split
        next hdiffer =>
          refine Or.inl ⟨rfl, ?_⟩
          intro other hother hname
          rw [hcommand] at hother
          cases hother
          simp only [flightName, Prod.mk.injEq] at hname
          simp [hname] at hdiffer
        next hsame =>
          refine Or.inr ⟨command, hcommand, ?_, rfl⟩
          simp only [Bool.or_eq_true, decide_eq_true_eq, not_or, not_not] at hsame
          rw [flightName, hsame.1.1, hsame.1.2, hsame.2]

theorem Inv.receive (h : Inv parse traced) : Inv parse { traced with
      lanes := (receiveChunk parse chunk.endpoint chunk.generation chunk.bootId chunk.requestId
        finalChunk chunk.data traced.lanes).2
      resolved := traced.resolved ++ (receiveChunk parse chunk.endpoint chunk.generation
          chunk.bootId chunk.requestId finalChunk chunk.data traced.lanes).1.toList.map
        fun result => (result.requestId, .completed result.result (traced.arrived.length + 1))
      arrived := traced.arrived ++ [chunk] } := by
  rcases receiveChunk_cases parse chunk finalChunk traced.lanes with
    ⟨after, heq, hretired, hqueued, hinFlight, hfewer⟩ | ⟨heq, hother⟩ |
      ⟨command, hcommand, hname, heq⟩
  · -- a tombstone is of a request that was reported, so it is not the one in flight
    rw [heq]
    show Inv parse { traced with
      lanes := traced.lanes.insert chunk.endpoint after
      resolved := traced.resolved ++ []
      arrived := traced.arrived ++ [chunk] }
    rw [List.append_nil]
    apply h.ignored (laneOf_insert _ _ · _) ?_ hqueued hinFlight hfewer
    · intro command hcommand hname
      rw [hinFlight] at hcommand
      have hresolved := h.retired _ _ hretired
      rw [← hname] at hresolved
      exact h.flight_not_resolved hcommand hresolved
    · have hperm : (outstanding traced.lanes).Perm
          (outstanding (traced.lanes.insert chunk.endpoint after) ++ []) := by
        apply outstanding_insert
        rw [laneIds, laneIds, hqueued, hinFlight, List.append_nil]
      rw [List.append_nil] at hperm
      exact hperm
  · rw [heq]
    show Inv parse { traced with
      resolved := traced.resolved ++ []
      arrived := traced.arrived ++ [chunk] }
    rw [List.append_nil]
    apply h.ignored ?_ (List.Perm.refl _) rfl rfl (fun _ => id) hother
    intro other
    split
    next hsame => rw [hsame]
    · rfl
  · rw [heq]
    cases finalChunk with
    | true => exact h.completed hcommand hname
    | false =>
      show Inv parse { traced with
        lanes := traced.lanes.insert chunk.endpoint { laneOf traced.lanes chunk.endpoint with
          inFlight := some { command with response := command.response ++ chunk.data } }
        resolved := traced.resolved ++ []
        arrived := traced.arrived ++ [chunk] }
      rw [List.append_nil]
      exact h.extended hcommand hname

/-! ### Expiry -/

theorem hasExpired_eq_some (h : hasExpired now lane = some command) :
    lane.inFlight = some command :=
  (Option.filter_eq_some_iff.mp h).1

/-- An expired request leaves its lane, and its tombstone comes in. -/
theorem expireLane_cases (now : Nat) (lane : EndpointCommandLane β) :
    (hasExpired now lane = none ∧ expireLane now lane = lane) ∨
      ∃ command, hasExpired now lane = some command ∧ (expireLane now lane).inFlight = none ∧
        ∀ name ∈ (expireLane now lane).retired,
          name ∈ lane.retired ∨ name = flightName command := by
  unfold expireLane
  cases h : hasExpired now lane with
  | none => exact Or.inl ⟨rfl, rfl⟩
  | some command => exact Or.inr ⟨command, rfl, rfl, fun _ hname => mem_retire hname⟩

theorem expireLane_queued (now : Nat) (lane : EndpointCommandLane β) :
    (expireLane now lane).queued = lane.queued := by
  unfold expireLane
  split
  · rfl
  · exact retire_queued lane _

theorem laneIds_expireLane (now : Nat) (lane : EndpointCommandLane β) :
    (laneIds lane).Perm
      (laneIds (expireLane now lane) ++ (hasExpired now lane).toList.map (·.requestId)) := by
  cases expireLane_cases now lane with
  | inl hkept =>
    rw [hkept.1, hkept.2]
    exact List.Perm.of_eq (List.append_nil _).symm
  | inr hexpired =>
    obtain ⟨command, hsome, hnone, _⟩ := hexpired
    rw [laneIds, laneIds, hnone, expireLane_queued, hasExpired_eq_some hsome, hsome]
    exact List.perm_append_comm

theorem laneOf_expire (lanes : Lanes ι β) (now : Nat) (endpoint : ι) :
    laneOf (lanes.mapValues fun _ => expireLane now) endpoint
      = expireLane now (laneOf lanes endpoint) := by
  rw [laneOf, laneOf, HashMap.get_mapValues]
  cases lanes.get endpoint with
  | none => rfl
  | some lane => rfl

/-- The requests that `expire` reports. -/
def expiredIds (now : Nat) (lanes : Lanes ι β) : List String :=
  lanes.entries.flatMap fun entry => (hasExpired now entry.2).toList.map (·.requestId)

theorem expire_results (now : Nat) (lanes : Lanes ι β) :
    (expire now lanes : List (EndpointCommandResult ι ρ) × Lanes ι β).1.map (·.requestId)
      = expiredIds now lanes := by
  unfold expire expiredIds
  dsimp only
  induction lanes.entries with
  | nil => rfl
  | cons entry rest ih =>
    rw [List.flatMap_cons, ← ih]
    cases h : hasExpired now entry.2 with
    | none =>
      rw [List.filterMap_cons_none (by rw [h]; rfl)]
      rfl
    | some command =>
      rw [List.filterMap_cons_some (by rw [h]; rfl)]
      rfl

theorem outstanding_expire (now : Nat) (lanes : Lanes ι β) :
    (outstanding lanes).Perm
      (outstanding (lanes.mapValues fun _ => expireLane now) ++ expiredIds now lanes) := by
  unfold outstanding expiredIds HashMap.mapValues
  dsimp only
  induction lanes.entries with
  | nil => exact List.Perm.nil
  | cons entry rest ih =>
    have hlane := laneIds_expireLane now entry.2
    rw [List.map_cons]
    simp only [List.flatMap_cons]
    rw [← Multiset.coe_eq_coe] at ih hlane ⊢
    simp only [← Multiset.coe_add] at ih hlane ⊢
    rw [ih, hlane]
    abel

theorem mem_expiredIds (h : hasExpired now (laneOf lanes endpoint) = some command) :
    command.requestId ∈ expiredIds now lanes := by
  unfold laneOf at h
  cases hget : lanes.get endpoint with
  | none =>
    rw [hget] at h
    cases h
  | some lane =>
    rw [hget] at h
    refine List.mem_flatMap.mpr ⟨_, HashMap.get_eq_some_iff.mp hget, ?_⟩
    exact List.mem_map.mpr ⟨command, Option.mem_toList.mpr h, rfl⟩

theorem Inv.expire (h : Inv parse traced) : Inv parse { traced with
      lanes := (expire (ρ := ρ) now traced.lanes).2
      resolved := traced.resolved ++ (expire (ρ := ρ) now traced.lanes).1.map
        fun result => (result.requestId, .timedOut) } := by
  have hfst : ((Herden.Runtime.Client.EndpointCommands.expire (ρ := ρ) now traced.lanes).1.map
      fun result => (result.requestId, (.timedOut : Resolution ρ))).map Prod.fst
        = expiredIds now traced.lanes := by
    rw [← expire_results, List.map_map]
    rfl
  have hnext := h.change traced.connections _ [] []
    (by
      rw [hfst]
      exact outstanding_expire now traced.lanes)
    (by
      intro endpoint
      refine ⟨[], ?_, List.Sublist.refl _⟩
      rw [laneOf_expire, expireLane_queued]
      rfl)
    (by
      intro shipment hmem hnot
      rw [List.append_nil] at hmem
      rw [laneOf_expire]
      rw [List.map_append, List.mem_append, hfst, not_or] at hnot
      have hbefore := h.unresolved shipment hmem hnot.1
      cases expireLane_cases now (laneOf traced.lanes shipment.endpoint) with
      | inl hkept =>
        rw [hkept.2]
        exact hbefore
      | inr hexpired =>
        obtain ⟨command, hsome, _⟩ := hexpired
        rw [hasExpired_eq_some hsome] at hbefore
        have hid : command.requestId = shipment.name.2.2 := Option.some.inj hbefore
        exact absurd (hid ▸ mem_expiredIds hsome) hnot.2)
    (by
      intro endpoint command hcommand
      rw [laneOf_expire] at hcommand
      rw [List.append_nil, List.append_nil]
      cases expireLane_cases now (laneOf traced.lanes endpoint) with
      | inl hkept =>
        rw [hkept.2] at hcommand
        exact h.flight endpoint command hcommand
      | inr hexpired =>
        obtain ⟨_, _, hnone, _⟩ := hexpired
        rw [hnone] at hcommand
        cases hcommand)
    (fun _ hmem => (by cases hmem))
    (by
      intro endpoint name hname
      rw [laneOf_expire] at hname
      rw [List.map_append, List.mem_append, hfst]
      cases expireLane_cases now (laneOf traced.lanes endpoint) with
      | inl hkept =>
        rw [hkept.2] at hname
        exact Or.inl (h.retired endpoint name hname)
      | inr hexpired =>
        obtain ⟨command, hsome, _, hretired⟩ := hexpired
        cases hretired name hname with
        | inl hold => exact Or.inl (h.retired endpoint name hold)
        | inr hnew =>
          rw [hnew]
          exact Or.inr (mem_expiredIds hsome))
    (by
      intro id result finish hmem
      obtain ⟨_, _, heq⟩ := List.mem_map.mp hmem
      cases heq)
  rw [List.append_nil, List.append_nil] at hnext
  exact hnext

/-! ### Every run -/

theorem Inv.step {encode : Request β → Option String} {op : Op ι β} {after : Traced ι β ρ}
    {output : Unit} (h : Inv parse traced) (hallowed : Allowed traced op)
    (hstep : step encode parse traced op = some (after, output)) : Inv parse after := by
  cases op with
  | connect endpoint generation =>
    cases hstep
    exact ⟨h.distinct, h.placed, h.queue, h.unresolved, h.flight, h.generation, h.retired, h.parsed⟩
  | lose endpoint =>
    cases hstep
    exact ⟨h.distinct, h.placed, h.queue, h.unresolved, h.flight, h.generation, h.retired, h.parsed⟩
  | enqueue endpoint command =>
    cases hstep
    exact h.enqueue hallowed
  | sendNext endpoint now goesOut =>
    cases hstep
    exact h.sendNext
  | receive chunk finalChunk =>
    cases hstep
    exact h.receive
  | expire now =>
    cases hstep
    exact h.expire
  | retireLane endpoint =>
    cases hstep
    exact h.retireLane
  | disconnect endpoint =>
    cases hstep
    exact h.disconnect

theorem resolves_once (encode : Request β → Option String)
    (parse : String → List UInt8 → Except ClientShellEndpointError ρ) (traced : Traced ι β ρ)
    (h : Reachable Init Allowed (step encode parse) traced) : Resolves parse traced := by
  have hinv : Inv parse traced :=
    h.invariant (Inv parse) (fun _ hinit => Inv.init hinit)
      fun _ _ _ _ hallowed hstep hbefore => hbefore.step hallowed hstep
  exact hinv.resolves

end

/-! ### A reply in two chunks, and one that comes too late -/

def replyText : List UInt8 :=
  "\x7b\"id\":\"request-a\",\"result\":\x7b\"type\":\"ok\"\x7d\x7d".toUTF8.toList

/-- Reads the one reply of the run. -/
def readReply (response : List UInt8) : Except String (Reply Unit) :=
  if response = replyText then .ok (.success "request-a" ())
  else .error "expected value at line 1 column 1"

def parseReply : String → List UInt8 → Except ClientShellEndpointError Unit :=
  parseResponse readReply fun text => "\"" ++ text ++ "\""

/-- Two requests for one endpoint: the first is answered, the second is retired. -/
def twoRequests : List (Op Nat Unit) :=
  [.connect 0 1, .enqueue 0 ⟨1, "boot-a", ⟨"request-a", ()⟩⟩,
    .enqueue 0 ⟨1, "boot-a", ⟨"request-b", ()⟩⟩, .sendNext 0 0 true,
    .receive ⟨0, 1, "boot-a", "request-a", replyText.take 10⟩ false,
    .receive ⟨0, 1, "boot-a", "request-a", replyText.drop 10⟩ true, .sendNext 0 5 true,
    .retireLane 0, .receive ⟨0, 1, "boot-a", "request-b", replyText⟩ true]

def allowedTest (traced : Traced Nat Unit Unit) : Op Nat Unit → Bool
  | .enqueue _ command =>
      !(traced.enqueued.map fun entry => entry.2.request.id).contains command.request.id
  | _ => true

theorem allowed_of_allowedTest (traced : Traced Nat Unit Unit) (op : Op Nat Unit)
    (h : allowedTest traced op = true) : Allowed traced op := by
  cases op with
  | enqueue endpoint command => simpa [allowedTest, Allowed] using h
  | _ => trivial

/-- What was answered is complete, and what was retired stays cancelled. -/
theorem resolves_once_two_requests : ∃ traced : Traced Nat Unit Unit,
    traced.resolved.map Prod.fst = ["request-a", "request-b"] ∧ Resolves parseReply traced := by
  have hrun : (runAll (guarded allowedTest (step (fun request => some request.id) parseReply))
      ⟨∅, ∅, [], [], [], []⟩ twoRequests).any (fun traced =>
        traced.resolved.map Prod.fst = ["request-a", "request-b"]) = true := by
    decide +kernel
  obtain ⟨traced, hsome, hends⟩ := (Option.any_eq_true _ _).mp hrun
  have hinit : Init (⟨∅, ∅, [], [], [], []⟩ : Traced Nat Unit Unit) := ⟨rfl, rfl, rfl, rfl, rfl⟩
  exact ⟨traced, of_decide_eq_true hends, resolves_once _ _ _
    (Reachable.runAll allowed_of_allowedTest (.start hinit) hsome)⟩

end Herden.Proofs.Client.EndpointCommands
