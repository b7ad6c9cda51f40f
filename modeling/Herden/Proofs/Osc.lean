import Herden.Runtime.Osc

/-!
# `Herden.Proofs.Osc`: the trackers do not see where the output is cut

Each tracker is a scanner of `Lib.Scan` with a reading of its results, so feeding it in pieces is
one run of its machine (`observeAll_eq`), and so is feeding it byte by byte
(`observe_independent_of_cuts`). The bound on the body is an invariant of the steps.
-/

namespace Herden.Proofs.Osc

open Herden.Lib
open Herden.Runtime.Osc

/-- The pieces of one byte. -/
def bytewise (bytes : Bytes) : List Bytes := bytes.map fun byte => [byte]

theorem flatten_bytewise (bytes : Bytes) : (bytewise bytes).flatten = bytes := by
  induction bytes with
  | nil => rfl
  | cons byte rest ih => exact congrArg (byte :: ·) ih

/-! ### Set colors -/

/-- Whether a default color was set in any of the pieces. -/
def DefaultColorOscTracker.observeAll (self : DefaultColorOscTracker) :
    List Bytes → DefaultColorOscTracker × Bool
  | [] => (self, false)
  | bytes :: rest =>
      let (self, seen) := self.observe bytes
      let (self, later) := observeAll self rest
      (self, seen || later)

/-- Whether a default color was set, by the results of the machine. -/
def setAmong (bodies : List (Nat × Bytes)) : Bool :=
  bodies.any fun body => isDefaultColorSetOsc body.2

theorem DefaultColorOscTracker.observeAll_eq (self : DefaultColorOscTracker)
    (pieces : List Bytes) (cursor : Nat) :
    DefaultColorOscTracker.observeAll self pieces
      = ((DefaultColorOscTracker.scanner.feed cursor self pieces).1,
        setAmong (DefaultColorOscTracker.scanner.feed cursor self pieces).2) := by
  induction pieces generalizing self cursor with
  | nil => rfl
  | cons bytes rest ih =>
    have hplaces : ∀ bodies : List (Nat × Bytes),
        setAmong (bodies.map fun body => (body.1 + cursor, body.2)) = setAmong bodies := by
      intro bodies
      unfold setAmong
      rw [List.any_map]
      rfl
    unfold DefaultColorOscTracker.observeAll
    rw [Scanner.feed_cons]
    dsimp only
    rw [ih _ (cursor + bytes.length)]
    refine Prod.ext rfl ?_
    change (setAmong _ || setAmong _) = setAmong (_ ++ _)
    rw [setAmong.eq_def (_ ++ _), List.any_append]
    exact congrArg (· || _) (hplaces _).symm

/-! ### Events -/

/-- An event at its place in the whole output, `start` being the place of the piece. -/
def shifted (start : Nat) (event : DefaultColorTrackedEvent) : DefaultColorTrackedEvent :=
  { event with endOffset := event.endOffset + start }

/-- The events of all pieces, drained after each and put at their places in the whole output. -/
def DefaultColorEventTracker.observeAll (start : Nat) (self : DefaultColorEventTracker) :
    List Bytes → DefaultColorEventTracker × List DefaultColorTrackedEvent
  | [] => (self, [])
  | bytes :: rest =>
      let (events, self) := (self.observe bytes).drainPending
      let (self, later) := observeAll (start + bytes.length) self rest
      (self, events.map (shifted start) ++ later)

/-- The events of the results of the machine. -/
def eventsOf (bodies : List (Nat × Bytes)) : List DefaultColorTrackedEvent :=
  bodies.flatMap fun (index, body) => DefaultColorEventTracker.finalize (index + 1) body

theorem eventsOf_shifted (start : Nat) (bodies : List (Nat × Bytes)) :
    eventsOf (bodies.map fun body => (body.1 + start, body.2))
      = (eventsOf bodies).map (shifted start) := by
  unfold eventsOf
  rw [List.flatMap_map, List.map_flatMap]
  congr 1
  funext body
  unfold DefaultColorEventTracker.finalize
  rw [List.map_map]
  apply List.map_congr_left
  intro event _
  change (⟨body.1 + start + 1, event⟩ : DefaultColorTrackedEvent) = ⟨body.1 + 1 + start, event⟩
  rw [Nat.add_right_comm]

theorem DefaultColorEventTracker.observeAll_eq (framing : DefaultColorOscTracker)
    (pieces : List Bytes) (start : Nat) :
    DefaultColorEventTracker.observeAll start ⟨framing, []⟩ pieces
      = (⟨(DefaultColorOscTracker.scanner.feed start framing pieces).1, []⟩,
        eventsOf (DefaultColorOscTracker.scanner.feed start framing pieces).2) := by
  induction pieces generalizing framing start with
  | nil => rfl
  | cons bytes rest ih =>
    unfold DefaultColorEventTracker.observeAll
    rw [Scanner.feed_cons]
    unfold DefaultColorEventTracker.observe DefaultColorEventTracker.drainPending
    dsimp only
    rw [ih, List.nil_append]
    refine Prod.ext rfl ?_
    change List.map (shifted start) (eventsOf _) ++ eventsOf _ = eventsOf (_ ++ _)
    rw [eventsOf.eq_def (_ ++ _), List.flatMap_append]
    exact congrArg (· ++ _) (eventsOf_shifted start _).symm

/-! ### Bodies -/

/-- The bodies of all pieces. -/
def OscStreamCollector.observeAll (self : OscStreamCollector) :
    List Bytes → OscStreamCollector × List Bytes
  | [] => (self, [])
  | bytes :: rest =>
      let (self, bodies) := self.observe bytes
      let (self, later) := observeAll self rest
      (self, bodies ++ later)

theorem OscStreamCollector.observeAll_eq (self : OscStreamCollector) (pieces : List Bytes)
    (cursor : Nat) :
    OscStreamCollector.observeAll self pieces
      = ((OscStreamCollector.scanner.feed cursor self pieces).1,
        (OscStreamCollector.scanner.feed cursor self pieces).2.map Prod.snd) := by
  induction pieces generalizing self cursor with
  | nil => rfl
  | cons bytes rest ih =>
    unfold OscStreamCollector.observeAll
    rw [Scanner.feed_cons]
    dsimp only
    rw [ih _ (cursor + bytes.length), List.map_append, List.map_map]
    rfl

/-! ### Bounds -/

theorem DefaultColorOscTracker.step_body (self : DefaultColorOscTracker) (byte : UInt8) :
    (self.step byte).1.body.length ≤ DefaultColorOscTracker.maxBodyBytes := by
  unfold DefaultColorOscTracker.step
  dsimp only
  split
  · exact Nat.zero_le _
  next hlength => exact Nat.not_lt.mp hlength

/-- A collector within its bound. -/
def Bounded (self : OscStreamCollector) : Prop :=
  self.body.length ≤ OscStreamCollector.maxBodyBytes

theorem bounded_ite {p : Prop} [Decidable p] {a b : OscStreamCollector × Option Bytes}
    (ha : Bounded a.1) (hb : Bounded b.1) : Bounded (if p then a else b).1 := by
  split
  · exact ha
  · exact hb

theorem bounded_finish (self : OscStreamCollector) : Bounded self.finish.1 := Nat.zero_le _

theorem bounded_push (self : OscStreamCollector) (byte : UInt8) : Bounded (self.push byte) := by
  unfold OscStreamCollector.push
  dsimp only
  split
  · exact Nat.zero_le _
  next hlength => exact Nat.not_lt.mp hlength

variable {self : OscStreamCollector}

theorem bounded_step (h : Bounded self) (byte : UInt8) : Bounded (self.step byte).1 := by
  have hpush := bounded_push self
  have hpushed := bounded_push (self.push esc) byte
  unfold OscStreamCollector.step
  cases self.state with
  | ground => exact bounded_ite h h
  | escape => exact bounded_ite (Nat.zero_le _) (bounded_ite h (bounded_ite h h))
  | body => exact bounded_ite (bounded_finish self) (bounded_ite h (hpush byte))
  | bodyEscape =>
    exact bounded_ite (bounded_finish self) (bounded_ite
      (bounded_ite (bounded_finish _) (hpush esc)) (bounded_ite (hpush esc)
        (bounded_ite hpushed (hpush esc))))
  | ignoringString => exact bounded_ite h h
  | ignoringStringEscape => exact bounded_ite h (bounded_ite h h)
  | discarding => exact bounded_ite h (bounded_ite h h)
  | discardingEscape => exact bounded_ite h (bounded_ite h h)

theorem body_observe_color (self : DefaultColorOscTracker) {bytes : Bytes}
    (h : self.body.length ≤ DefaultColorOscTracker.maxBodyBytes) :
    (DefaultColorOscTracker.scanner.scan self bytes).1.body.length
      ≤ DefaultColorOscTracker.maxBodyBytes := by
  rw [Scanner.scan_eq_run]
  exact DefaultColorOscTracker.scanner.run_invariant
    (fun self => self.body.length ≤ DefaultColorOscTracker.maxBodyBytes)
    (fun self byte _ => DefaultColorOscTracker.step_body self byte) 0 h bytes

theorem bounded_observe (h : Bounded self) (bytes : Bytes) :
    Bounded (OscStreamCollector.scanner.scan self bytes).1 := by
  rw [Scanner.scan_eq_run]
  exact OscStreamCollector.scanner.run_invariant Bounded (fun _ byte h => bounded_step h byte) 0 h
    bytes

/-! ### Cuts -/

/-- Each tracker ends in the same state with the same results however its input is cut, as if it
were fed byte by byte, and keeps its bound. -/
theorem observe_independent_of_cuts :
    (∀ (self : DefaultColorOscTracker) (pieces : List Bytes),
        DefaultColorOscTracker.observeAll self pieces
          = DefaultColorOscTracker.observeAll self (bytewise pieces.flatten))
      ∧ (∀ (framing : DefaultColorOscTracker) (pieces : List Bytes) (start : Nat),
        DefaultColorEventTracker.observeAll start ⟨framing, []⟩ pieces
          = DefaultColorEventTracker.observeAll start ⟨framing, []⟩ (bytewise pieces.flatten))
      ∧ (∀ (self : OscStreamCollector) (pieces : List Bytes),
        OscStreamCollector.observeAll self pieces
          = OscStreamCollector.observeAll self (bytewise pieces.flatten))
      ∧ (∀ (self : DefaultColorOscTracker) (bytes : Bytes),
        self.body.length ≤ DefaultColorOscTracker.maxBodyBytes →
        (self.observe bytes).1.body.length ≤ DefaultColorOscTracker.maxBodyBytes)
      ∧ (∀ (self : DefaultColorEventTracker) (bytes : Bytes),
        self.framing.body.length ≤ DefaultColorOscTracker.maxBodyBytes →
        (self.observe bytes).framing.body.length ≤ DefaultColorOscTracker.maxBodyBytes)
      ∧ (∀ (self : OscStreamCollector) (bytes : Bytes),
        self.body.length ≤ OscStreamCollector.maxBodyBytes →
        (self.observe bytes).1.body.length ≤ OscStreamCollector.maxBodyBytes) := by
  refine ⟨?_, ?_, ?_, ?_, ?_, ?_⟩
  · intro self pieces
    rw [DefaultColorOscTracker.observeAll_eq self pieces 0,
      DefaultColorOscTracker.observeAll_eq self (bytewise pieces.flatten) 0, Scanner.feed_eq_run,
      Scanner.feed_eq_run, flatten_bytewise]
  · intro framing pieces start
    rw [DefaultColorEventTracker.observeAll_eq, DefaultColorEventTracker.observeAll_eq,
      Scanner.feed_eq_run, Scanner.feed_eq_run, flatten_bytewise]
  · intro self pieces
    rw [OscStreamCollector.observeAll_eq self pieces 0,
      OscStreamCollector.observeAll_eq self (bytewise pieces.flatten) 0, Scanner.feed_eq_run,
      Scanner.feed_eq_run, flatten_bytewise]
  · intro self bytes h
    exact body_observe_color self h
  · intro self bytes h
    exact body_observe_color self.framing h
  · intro self bytes h
    exact bounded_observe h bytes

/-- A query in three pieces, the last behind a byte of text. -/
theorem observe_independent_of_cuts_query :
    DefaultColorEventTracker.observeAll 0 ⟨.initial, []⟩
        [[esc, 0x5d, 0x31], [0x30, 0x3b], [0x3f, bel, 0x78]]
      = (⟨.initial, []⟩, [⟨7, .query .foreground⟩])
      ∧ ((DefaultColorOscTracker.initial.observe [esc, 0x5d, 0x31]).1).body.length ≤ 1024 := by
  obtain ⟨-, hevents, -, hbound, -, -⟩ := observe_independent_of_cuts
  refine ⟨?_, hbound _ _ (Nat.zero_le _)⟩
  rw [hevents]
  decide +kernel

end Herden.Proofs.Osc
