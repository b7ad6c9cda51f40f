import Mathlib.Data.List.Basic
import Herden.Lib.Run
import Herden.Glasses.MicrophoneService

/-!
# `Herden.Proofs.MicrophoneService`: the microphone follows the last intent

`reachable_followsIntent` is about every run of the service: calls of `start` and `stop` at any
moment, and any answer to every `audioControl` call, as late as it likes.

`Change` says once what a step can do, and each part of the invariant is kept by it on its own.
`Intent` ties the three variables to the calls: the generation counts them, so a start whose
generation is still the newest is the last call, and then it is wanted. `Asked` is about the calls
on the bridge, `Opened` about what `#open` remembers, `Closed` about the close a stop leaves behind
and `Device` about the microphone itself.

"Since the previous stop" is counted in operations, which run in the order of their calls: an open
that is answered late belongs to the stop that waits behind it, and that stop closes it.
-/

namespace Herden.Proofs.MicrophoneService

open Herden.Lib (Reachable runAll guarded)
open Herden.Glasses.MicrophoneService
open Herden.Glasses.MicrophoneService.Service (Op)

/-! ### The operations in the order of their calls -/

/-- The operation of every call of `start` and `stop` so far, in order. -/
def operations (s : Service) : List Operation :=
  s.settled.map (·.operation) ++ (s.running.map Running.operation).toList ++ s.queued

theorem operations_start (s : Service) :
    operations s.start = operations s ++ [.start (s.generation + 1)] := by
  simp [operations, Service.start]

theorem operations_stop (s : Service) : operations s.stop = operations s ++ [.stop] := by
  simp [operations, Service.stop]

variable {s t : Service}

/-- The next operation is at the place after those that have settled. -/
theorem operations_queued {operation : Operation} {rest : List Operation}
    (hrunning : s.running = none) (hqueued : s.queued = operation :: rest) :
    (operations s)[s.settled.length]? = some operation := by
  simp [operations, hrunning, hqueued]

theorem operations_running {running : Running} (hrunning : s.running = some running) :
    (operations s)[s.settled.length]? = some running.operation := by
  simp [operations, hrunning]

/-! ### What a step does -/

/-- How an answer ends an operation: the outcome, and whether the microphone counts as open from
then on. -/
inductive Ends (s : Service) : Running → Answer → Outcome → Bool → Prop
  | opened {g : Nat} : Ends s (.opening g) .yes (.started (s.live g)) true
  | notOpened {g : Nat} {answer : Answer} {message : String} : answer ≠ .yes →
      Ends s (.opening g) answer (.rejected message) s.isOpen
  | closed {running : Running} : running.operation = .stop → Ends s running .yes .stopped false
  | alreadyOff : Ends s (.closing false) .no .stopped false
  | notClosed {running : Running} {answer : Answer} {message : String} :
      running.operation = .stop → answer ≠ .yes → Ends s running answer (.rejected message) false

/-- Everything a step can do. -/
inductive Change (s : Service) : Service → Prop
  | start : Change s s.start
  | stop : Change s s.stop
  /-- A start that has nothing to do. -/
  | skip {g : Nat} {rest : List Operation} {live : Bool} : s.running = none →
      s.queued = .start g :: rest → live = s.live g → (live = true → s.isOpen = true) →
      Change s ({ s with queued := rest }.settle (.start g) (.started live))
  | open_ {g : Nat} {rest : List Operation} : s.running = none → s.queued = .start g :: rest →
      s.live g = true → s.isOpen = false →
      Change s ({ s with queued := rest }.audioControl (.opening g))
  | close {rest : List Operation} : s.running = none → s.queued = .stop :: rest →
      Change s ({ s with queued := rest }.audioControl (.closing s.isOpen))
  | retry : s.running = some (.closing true) →
      Change s ((s.note false .no).audioControl .retrying)
  | end_ {running : Running} {answer : Answer} {outcome : Outcome} {isOpen : Bool} :
      s.running = some running → Ends s running answer outcome isOpen →
      Change s ({ s.note running.enable answer with isOpen := isOpen }.settle running.operation
        outcome)

theorem begin_change (h : s.begin_ = some t) : Change s t := by
  unfold Service.begin_ at h
  split at h
  · rename_i operation rest hrunning hqueued
    dsimp only at h
    split at h
    · rename_i g
      have hlive : Service.live { s with queued := rest } g = s.live g := rfl
      split at h
      · rename_i hdead
        cases h
        simp only [hlive, Bool.not_eq_true'] at hdead
        exact .skip hrunning hqueued hdead.symm (fun htrue => by cases htrue)
      · rename_i hgo
        simp only [hlive, Bool.not_eq_true', Bool.not_eq_false] at hgo
        split at h
        · rename_i hclosed
          cases h
          exact .open_ hrunning hqueued hgo (by simpa using hclosed)
        · rename_i hopened
          cases h
          exact .skip hrunning hqueued rfl (fun _ => by simpa using hopened)
    · cases h
      exact .close hrunning hqueued
  · cases h

theorem answer_change {running : Running} (hrunning : s.running = some running) (answer : Answer) :
    Change s ((s.note running.enable answer).resume running answer) := by
  cases running with
  | opening g =>
    cases answer with
    | yes => exact .end_ hrunning .opened
    | no => exact .end_ hrunning (.notOpened (by decide))
    | rejected message => exact .end_ hrunning (.notOpened (by intro h; cases h))
  | closing wasOpen =>
    cases answer with
    | yes => cases wasOpen <;> exact .end_ hrunning (.closed rfl)
    | no =>
      cases wasOpen with
      | false => exact .end_ hrunning .alreadyOff
      | true => exact .retry hrunning
    | rejected message =>
      cases wasOpen <;> exact .end_ hrunning (.notClosed rfl (by intro h; cases h))
  | retrying =>
    cases answer with
    | yes => exact .end_ hrunning (.closed rfl)
    | no => exact .end_ hrunning (.notClosed rfl (by decide))
    | rejected message => exact .end_ hrunning (.notClosed rfl (by intro h; cases h))

theorem step_change {op : Op} (h : s.step op = some t) : Change s t := by
  cases op with
  | start =>
    cases h
    exact .start
  | stop =>
    cases h
    exact .stop
  | begin_ => exact begin_change h
  | answer answer =>
    simp only [Service.step] at h
    split at h
    · cases h
    · rename_i running hrunning
      cases h
      exact answer_change hrunning answer

/-! ### Intent -/

/-- Only a call changes the operations and what is wanted. -/
theorem Change.frame {s t : Service} (h : Change s t) :
    (t = s.start ∨ t = s.stop) ∨
      operations t = operations s ∧ t.generation = s.generation ∧ t.wanted = s.wanted := by
  cases h with
  | start => exact .inl (.inl rfl)
  | stop => exact .inl (.inr rfl)
  | skip hrunning hqueued => exact .inr ⟨by simp [operations, Service.settle, hrunning, hqueued],
      rfl, rfl⟩
  | open_ hrunning hqueued => exact .inr ⟨by
      simp [operations, Service.audioControl, hrunning, hqueued, Running.operation], rfl, rfl⟩
  | close hrunning hqueued => exact .inr ⟨by
      simp [operations, Service.audioControl, hrunning, hqueued, Running.operation], rfl, rfl⟩
  | retry hrunning => exact .inr ⟨by
      simp [operations, Service.audioControl, Service.note, hrunning, Running.operation], rfl, rfl⟩
  | end_ hrunning => exact .inr ⟨by
      simp [operations, Service.settle, Service.note, hrunning], rfl, rfl⟩

/-- The operation that settles is the next one in order. A start resolves to `true` only if nothing
has superseded it by then. -/
theorem Change.settled (h : Change s t) :
    t.settled = s.settled ∨ ∃ entry, t.settled = s.settled ++ [entry] ∧
      entry.made = s.generation ∧
      (operations s)[s.settled.length]? = some entry.operation ∧
      (entry.outcome = .started true → ∃ g, entry.operation = .start g ∧ s.live g = true) := by
  cases h with
  | start => exact .inl rfl
  | stop => exact .inl rfl
  | skip hrunning hqueued hlive =>
    refine .inr ⟨_, rfl, rfl, operations_queued hrunning hqueued, fun htrue => ⟨_, rfl, ?_⟩⟩
    cases htrue
    exact hlive.symm
  | open_ => exact .inl rfl
  | close => exact .inl rfl
  | retry => exact .inl rfl
  | end_ hrunning hends =>
    refine .inr ⟨_, rfl, rfl, operations_running hrunning, fun htrue => ?_⟩
    cases hends with
    | @opened g => exact ⟨g, rfl, Outcome.started.inj htrue⟩
    | notOpened => cases htrue
    | closed => cases htrue
    | alreadyOff => cases htrue
    | notClosed => cases htrue

/-- The intent of the callers: calls are counted, a start knows its place, the last call decides
what is wanted, and a start that resolved to `true` was then the last call. -/
structure Intent (s : Service) : Prop where
  length : (operations s).length = s.generation
  numbered : ∀ i g, (operations s)[i]? = some (.start g) → g = i + 1
  wanted : s.wanted = true ↔ ∃ g, (operations s).getLast? = some (.start g)
  resolved : ∀ i entry, s.settled[i]? = some entry → entry.outcome = .started true →
    entry.made = i + 1

/-- A call puts one more operation at the end. -/
theorem numbered_append {earlier : List Operation} {operation : Operation}
    (h : ∀ i g, earlier[i]? = some (.start g) → g = i + 1)
    (hnew : ∀ g, operation = .start g → g = earlier.length + 1) (i g : Nat)
    (hi : (earlier ++ [operation])[i]? = some (.start g)) : g = i + 1 := by
  rw [List.getElem?_append] at hi
  split at hi
  · exact h i g hi
  · rename_i hge
    obtain ⟨hlt, hget⟩ := List.getElem?_eq_some_iff.mp hi
    rw [List.length_singleton] at hlt
    have hidx : i = earlier.length := by omega
    subst hidx
    exact hnew g (by simpa using hget)

theorem Intent.change (h : Intent s) (hchange : Change s t) : Intent t := by
  have hresolved : ∀ i entry, t.settled[i]? = some entry → entry.outcome = .started true →
      entry.made = i + 1 := by
    intro i entry hi htrue
    rcases hchange.settled with hsame | ⟨new, hnew, hmade, hplace, hlive⟩
    · rw [hsame] at hi
      exact h.resolved i entry hi htrue
    · rw [hnew, List.getElem?_append] at hi
      split at hi
      · exact h.resolved i entry hi htrue
      · rename_i hge
        obtain ⟨hlt, hget⟩ := List.getElem?_eq_some_iff.mp hi
        rw [List.length_singleton] at hlt
        have hidx : i = s.settled.length := by omega
        subst hidx
        have hentry : new = entry := by simpa using hget
        subst hentry
        -- its generation is the number of its place, and it is still the last one
        obtain ⟨g, hoperation, halive⟩ := hlive htrue
        rw [hoperation] at hplace
        have hg := h.numbered _ g hplace
        simp only [Service.live, Bool.and_eq_true, decide_eq_true_eq] at halive
        omega
  rcases hchange.frame with (rfl | rfl) | ⟨hoperations, hgeneration, hwanted⟩
  · refine ⟨?_, ?_, ?_, hresolved⟩
    · rw [operations_start, List.length_append, h.length]
      rfl
    · rw [operations_start]
      refine numbered_append h.numbered ?_
      intro g hg
      cases hg
      rw [h.length]
    · rw [operations_start]
      simp [Service.start]
  · refine ⟨?_, ?_, ?_, hresolved⟩
    · rw [operations_stop, List.length_append, h.length]
      rfl
    · rw [operations_stop]
      exact numbered_append h.numbered (fun g hg => by cases hg)
    · rw [operations_stop]
      simp [Service.stop]
  · refine ⟨?_, ?_, ?_, hresolved⟩
    · rw [hoperations, hgeneration]
      exact h.length
    · rw [hoperations]
      exact h.numbered
    · rw [hoperations, hwanted]
      exact h.wanted

/-! ### The calls on the bridge -/

/-- Every call but the one that the running operation waits for is answered. -/
structure Asked (s : Service) : Prop where
  alone : ∀ call ∈ s.calls, call.outstanding = 0
  idle : s.running = none → ∀ call ∈ s.calls, call.answer.isSome = true
  waiting : ∀ running, s.running = some running → ∃ earlier,
    s.calls = earlier ++ [⟨s.settled.length, running.enable, 0, none⟩] ∧
      ∀ call ∈ earlier, call.answer.isSome = true

theorem map_answer_of_answered {calls : List AudioCall} {answer : Answer}
    (h : ∀ call ∈ calls, call.answer.isSome = true) :
    calls.map (fun call => if call.answer.isNone then { call with answer := some answer } else call)
      = calls := by
  conv_rhs => rw [← List.map_id calls]
  refine List.map_congr_left fun call hcall => ?_
  have hsome := h call hcall
  rw [if_neg (by simp [Option.isNone_iff_eq_none, Option.ne_none_iff_isSome.mpr hsome])]
  rfl

/-- The answer goes to the call the operation waits for. -/
theorem Asked.note (h : Asked s) {running : Running} (hrunning : s.running = some running)
    (enable : Bool) (answer : Answer) : ∃ earlier, (s.note enable answer).calls
        = earlier ++ [⟨s.settled.length, running.enable, 0, some answer⟩] ∧
      s.calls = earlier ++ [⟨s.settled.length, running.enable, 0, none⟩] ∧
      ∀ call ∈ earlier, call.answer.isSome = true := by
  obtain ⟨earlier, hcalls, hanswered⟩ := h.waiting running hrunning
  refine ⟨earlier, ?_, hcalls, hanswered⟩
  rw [Service.note, hcalls, List.map_append, map_answer_of_answered hanswered]
  rfl

theorem Asked.note_answered (h : Asked s) {running : Running} (hrunning : s.running = some running)
    (enable : Bool) (answer : Answer) :
    ∀ call ∈ (s.note enable answer).calls, call.answer.isSome = true ∧ call.outstanding = 0 := by
  obtain ⟨earlier, hnote, hcalls, hanswered⟩ := h.note hrunning enable answer
  intro call hcall
  rw [hnote, List.mem_append, List.mem_singleton] at hcall
  rcases hcall with hold | rfl
  · exact ⟨hanswered call hold, h.alone call (by rw [hcalls]; exact List.mem_append_left _ hold)⟩
  · exact ⟨rfl, rfl⟩

/-- A call made while every earlier one is answered. -/
theorem Asked.audioControl (h : ∀ call ∈ s.calls, call.answer.isSome = true ∧ call.outstanding = 0)
    (running : Running) : (s.audioControl running).calls
        = s.calls ++ [⟨s.settled.length, running.enable, 0, none⟩] ∧
      Asked (s.audioControl running) := by
  have hzero : s.calls.countP (fun call => call.answer.isNone) = 0 := by
    rw [List.countP_eq_zero]
    intro call hcall hnone
    have hsome := (h call hcall).1
    rw [Option.isNone_iff_eq_none.mp hnone] at hsome
    cases hsome
  have hcalls : (s.audioControl running).calls
      = s.calls ++ [⟨s.settled.length, running.enable, 0, none⟩] := by
    rw [Service.audioControl, hzero]
  refine ⟨hcalls, ⟨?_, fun hnone => (by cases hnone), ?_⟩⟩
  · intro call hcall
    rw [hcalls, List.mem_append, List.mem_singleton] at hcall
    rcases hcall with hold | rfl
    · exact (h call hold).2
    · rfl
  · intro other hother
    cases hother
    exact ⟨s.calls, hcalls, fun call hcall => (h call hcall).1⟩

theorem Asked.change (h : Asked s) (hchange : Change s t) : Asked t := by
  cases hchange with
  | start => exact ⟨h.alone, h.idle, h.waiting⟩
  | stop => exact ⟨h.alone, h.idle, h.waiting⟩
  | skip hrunning => exact ⟨h.alone, fun _ => h.idle hrunning, fun _ hsome => by cases hsome⟩
  | open_ hrunning =>
    refine (Asked.audioControl ?_ _).2
    exact fun call hcall => ⟨h.idle hrunning call hcall, h.alone call hcall⟩
  | close hrunning =>
    refine (Asked.audioControl ?_ _).2
    exact fun call hcall => ⟨h.idle hrunning call hcall, h.alone call hcall⟩
  | retry hrunning => exact (Asked.audioControl (h.note_answered hrunning _ _) _).2
  | @end_ running answer _ _ hrunning _ =>
    have hanswered := h.note_answered hrunning running.enable answer
    exact ⟨fun call hcall => (hanswered call hcall).2,
      fun _ call hcall => (hanswered call hcall).1, fun _ hsome => by cases hsome⟩

/-! ### What counts as open -/

/-- The call opened the microphone. -/
def confirmed (call : AudioCall) : Prop := call.enable = true ∧ call.answer = some .yes

/-- A stop after the operation at `place` has settled, and it is not at or after `bound`. -/
def StoppedAfter (s : Service) (place bound : Nat) : Prop :=
  ∃ k entry, place < k ∧ k < bound ∧ s.settled[k]? = some entry ∧ entry.operation = .stop

/-- `#open` holds exactly as long as no stop has followed a confirmed open. The running operation
found it the way it is. -/
structure Opened (s : Service) : Prop where
  found : ∀ running, s.running = some running →
    match running with
    | .opening _ => s.isOpen = false
    | .closing wasOpen => wasOpen = s.isOpen
    | .retrying => s.isOpen = true
  since : ∀ call ∈ s.calls, confirmed call → call.operation < s.settled.length ∧
    (s.isOpen = true ∨ StoppedAfter s call.operation s.settled.length)

theorem StoppedAfter.settle {place bound : Nat} (h : StoppedAfter s place bound) {entry : Settled}
    (hsettled : t.settled = s.settled ++ [entry]) {bound' : Nat} (hbound : bound ≤ bound') :
    StoppedAfter t place bound' := by
  obtain ⟨k, old, hplace, hk, hold, hstop⟩ := h
  refine ⟨k, old, hplace, hk.trans_le hbound, ?_, hstop⟩
  rw [hsettled, List.getElem?_append_left (List.getElem?_eq_some_iff.mp hold).1]
  exact hold

/-- The operation that settles now, if it is a stop. -/
theorem StoppedAfter.last {entry : Settled} (hsettled : t.settled = s.settled ++ [entry])
    (hstop : entry.operation = .stop) {place : Nat} (hplace : place < s.settled.length) :
    StoppedAfter t place t.settled.length := by
  refine ⟨s.settled.length, entry, hplace, ?_, ?_, hstop⟩
  · rw [hsettled, List.length_append, List.length_singleton]
    omega
  · rw [hsettled, List.getElem?_concat_length]

/-- The confirmed opens of a state whose last call is not answered. -/
theorem Opened.since_audioControl (h : Opened s) {call new : AudioCall}
    (hcalls : t.calls = s.calls ++ [new]) (hnew : new.answer = none) (hcall : call ∈ t.calls)
    (hconfirmed : confirmed call) : call.operation < s.settled.length ∧
      (s.isOpen = true ∨ StoppedAfter s call.operation s.settled.length) := by
  rw [hcalls, List.mem_append, List.mem_singleton] at hcall
  rcases hcall with hold | rfl
  · exact h.since call hold hconfirmed
  · rw [confirmed, hnew] at hconfirmed
    cases hconfirmed.2

/-- The confirmed opens after an answer: those before, and this one if it is one. -/
theorem Opened.since_note (h : Opened s) (hasked : Asked s) {running : Running}
    (hrunning : s.running = some running) {answer : Answer} {call : AudioCall}
    (hcall : call ∈ (s.note running.enable answer).calls) (hconfirmed : confirmed call) :
    (call.operation < s.settled.length ∧
      (s.isOpen = true ∨ StoppedAfter s call.operation s.settled.length)) ∨
    call.operation = s.settled.length ∧ running.enable = true ∧ answer = .yes := by
  obtain ⟨earlier, hnote, hcalls, -⟩ := hasked.note hrunning running.enable answer
  rw [hnote, List.mem_append, List.mem_singleton] at hcall
  rcases hcall with hold | rfl
  · exact .inl (h.since call (by rw [hcalls]; exact List.mem_append_left _ hold) hconfirmed)
  · exact .inr ⟨rfl, hconfirmed.1, Option.some.inj hconfirmed.2⟩

theorem enable_of_stop {running : Running} (h : running.operation = .stop) :
    running.enable = false := by
  cases running with
  | opening g => cases h
  | closing wasOpen => rfl
  | retrying => rfl

/-- An operation settles: a stop leaves no confirmed open behind it, and a start keeps what was
open. -/
theorem Opened.since_settle {entry : Settled} (hsettled : t.settled = s.settled ++ [entry])
    (hkeeps : entry.operation = .stop ∨ (s.isOpen = true → t.isOpen = true)) {call : AudioCall}
    (hcall : (call.operation < s.settled.length ∧
      (s.isOpen = true ∨ StoppedAfter s call.operation s.settled.length)) ∨
        call.operation = s.settled.length ∧ t.isOpen = true) : call.operation < t.settled.length ∧
      (t.isOpen = true ∨ StoppedAfter t call.operation t.settled.length) := by
  have hlength : t.settled.length = s.settled.length + 1 := by
    rw [hsettled, List.length_append, List.length_singleton]
  rcases hcall with ⟨hplace, hstate⟩ | ⟨hplace, hopen⟩
  · refine ⟨by omega, ?_⟩
    rcases hkeeps with hstop | hkeeps
    · exact .inr (StoppedAfter.last hsettled hstop hplace)
    · rcases hstate with hopen | hstopped
      · exact .inl (hkeeps hopen)
      · exact .inr (hstopped.settle hsettled (by omega))
  · exact ⟨by omega, .inl hopen⟩

theorem Opened.change (h : Opened s) (hasked : Asked s) (hchange : Change s t) : Opened t := by
  have hidle : s.running = none →
      ∀ call ∈ s.calls, call.answer.isSome = true ∧ call.outstanding = 0 :=
    fun hrunning call hcall => ⟨hasked.idle hrunning call hcall, hasked.alone call hcall⟩
  cases hchange with
  | start => exact ⟨h.found, h.since⟩
  | stop => exact ⟨h.found, h.since⟩
  | skip hrunning =>
    refine ⟨fun running hsome => (by cases hsome), fun call hcall hconfirmed => ?_⟩
    refine Opened.since_settle (s := s) rfl (.inr fun hopen => ?_)
      (.inl (h.since call hcall hconfirmed))
    exact hopen
  | open_ hrunning hqueued hlive hclosed =>
    refine ⟨fun running hsome => ?_, fun call hcall hconfirmed => ?_⟩
    · cases hsome
      exact hclosed
    · exact h.since_audioControl rfl rfl hcall hconfirmed
  | close hrunning =>
    refine ⟨fun running hsome => ?_, fun call hcall hconfirmed => ?_⟩
    · cases hsome
      rfl
    · exact h.since_audioControl rfl rfl hcall hconfirmed
  | retry hrunning =>
    have hopen : true = s.isOpen := h.found _ hrunning
    refine ⟨fun running hsome => ?_, fun call hcall hconfirmed => ?_⟩
    · cases hsome
      exact hopen.symm
    · rw [Service.audioControl, List.mem_append, List.mem_singleton] at hcall
      rcases hcall with hold | rfl
      · rcases h.since_note hasked hrunning hold hconfirmed with hsince | ⟨-, hfalse, -⟩
        · exact hsince
        · cases hfalse
      · cases hconfirmed.2
  | @end_ running answer outcome isOpen hrunning hends =>
    refine ⟨fun running hsome => (by cases hsome), fun call hcall hconfirmed => ?_⟩
    have hnote := h.since_note hasked hrunning hcall hconfirmed
    cases hends with
    | opened =>
      refine Opened.since_settle rfl (.inr fun _ => rfl) (hnote.imp_right ?_)
      exact fun hnew => ⟨hnew.1, rfl⟩
    | notOpened hanswer =>
      refine Opened.since_settle (s := s) rfl (.inr fun hopen => ?_)
        (.inl (hnote.resolve_right fun hnew => hanswer hnew.2.2))
      exact hopen
    | closed hstop =>
      refine Opened.since_settle rfl (.inl hstop) (.inl (hnote.resolve_right ?_))
      intro hnew
      rw [enable_of_stop hstop] at hnew
      cases hnew.2.1
    | alreadyOff =>
      refine Opened.since_settle rfl (.inl rfl) (.inl (hnote.resolve_right ?_))
      intro hnew
      cases hnew.2.1
    | notClosed hstop hanswer =>
      refine Opened.since_settle rfl (.inl hstop) (.inl (hnote.resolve_right ?_))
      exact fun hnew => hanswer hnew.2.2

/-! ### The last close -/

/-- What a stop leaves behind: its close is the last call, and it was answered with `true`, or the
stop rejected, or there was no confirmed open since the stop before it. -/
structure LastClose (s : Service) (entry : Settled) : Prop where
  closes : ∃ earlier call, s.calls = earlier ++ [call] ∧ call.enable = false ∧
    (call.answer = some .yes ∨ (∃ message, entry.outcome = .rejected message) ∨
      ∀ other ∈ s.calls, confirmed other →
        StoppedAfter s other.operation (s.settled.length - 1))

/-- The stop that settled last, as long as nothing else has begun. -/
def Closed (s : Service) : Prop :=
  s.running = none → ∀ entry, s.settled.getLast? = some entry → entry.operation = .stop →
    LastClose s entry

theorem LastClose.of_ends (h : Opened s) (hasked : Asked s) {running : Running} {answer : Answer}
    {outcome : Outcome} {isOpen : Bool} (hrunning : s.running = some running)
    (hstop : running.operation = .stop) (hends : Ends s running answer outcome isOpen) :
    LastClose ({ s.note running.enable answer with isOpen := isOpen }.settle running.operation
      outcome) ⟨running.operation, outcome, s.generation⟩ := by
  obtain ⟨earlier, hnote, -, -⟩ := hasked.note hrunning running.enable answer
  refine ⟨earlier, _, hnote, enable_of_stop hstop, ?_⟩
  cases hends with
  | opened => cases hstop
  | notOpened => cases hstop
  | closed => exact .inl rfl
  | notClosed => exact .inr (.inl ⟨_, rfl⟩)
  | alreadyOff =>
    refine .inr (.inr fun other hother hconfirmed => ?_)
    have hclosed : false = s.isOpen := h.found _ hrunning
    rcases h.since_note hasked hrunning hother hconfirmed with ⟨-, hstate⟩ | ⟨-, hfalse, -⟩
    · rcases hstate with hopen | hstopped
      · rw [← hclosed] at hopen
        cases hopen
      · refine hstopped.settle rfl ?_
        rw [Service.settle, List.length_append, List.length_singleton]
        exact le_rfl
    · cases hfalse

theorem Closed.change (h : Closed s) (hopened : Opened s) (hasked : Asked s)
    (hchange : Change s t) : Closed t := by
  intro hidle entry hlast hstop
  cases hchange with
  | start => exact ⟨(h hidle entry hlast hstop).closes⟩
  | stop => exact ⟨(h hidle entry hlast hstop).closes⟩
  | skip =>
    rw [Service.settle, List.getLast?_concat] at hlast
    cases hlast
    cases hstop
  | open_ => cases hidle
  | close => cases hidle
  | retry => cases hidle
  | end_ hrunning hends =>
    rw [Service.settle, List.getLast?_concat] at hlast
    cases hlast
    exact .of_ends hopened hasked hrunning hstop hends

/-! ### The device -/

/-- No call so far was refused or rejected. -/
def NoRefusal (s : Service) : Prop := ∀ call ∈ s.calls, call.answer = none ∨ call.answer = some .yes

/-- The device as it is when nothing is refused. -/
structure Device (s : Service) : Prop where
  opened : s.isOpen = true → s.device = true
  stopped : s.running = none → ∀ entry, s.settled.getLast? = some entry →
    entry.operation = .stop → s.device = false
  started : s.running = none → ∀ entry g, s.settled.getLast? = some entry →
    entry.operation = .start g → g = s.generation → s.isOpen = true

theorem NoRefusal.of_note (hasked : Asked s) {running : Running} {answer : Answer}
    (hrunning : s.running = some running) (h : ∀ call ∈ (s.note running.enable answer).calls,
      call.answer = none ∨ call.answer = some .yes) : NoRefusal s ∧ answer = .yes := by
  obtain ⟨earlier, hnote, hcalls, -⟩ := hasked.note hrunning running.enable answer
  rw [hnote] at h
  constructor
  · intro call hcall
    rw [hcalls, List.mem_append, List.mem_singleton] at hcall
    rcases hcall with hold | rfl
    · exact h call (List.mem_append_left _ hold)
    · exact .inl rfl
  · rcases h _ (List.mem_append_right _ (List.mem_singleton.mpr rfl)) with hnone | hyes
    · cases hnone
    · exact Option.some.inj hyes

/-- The generation of a start that has settled is one of those given out. -/
theorem Intent.le_generation (h : Intent s) {entry : Settled} {g : Nat}
    (hlast : s.settled.getLast? = some entry) (hstart : entry.operation = .start g) :
    g ≤ s.generation := by
  obtain ⟨earlier, hsettled⟩ := List.getLast?_eq_some_iff.mp hlast
  have hplace : (operations s)[earlier.length]? = some (.start g) := by
    simp [operations, hsettled, hstart]
  have hlt := (List.getElem?_eq_some_iff.mp hplace).1
  have hg := h.numbered _ _ hplace
  rw [h.length] at hlt
  omega

/-- A start of the newest generation is still wanted when its turn comes. -/
theorem Intent.live_of_newest (h : Intent s) {rest : List Operation} (hrunning : s.running = none)
    (hqueued : s.queued = .start s.generation :: rest) : s.live s.generation = true := by
  have hplace := operations_queued hrunning hqueued
  have hg := h.numbered _ _ hplace
  have hlength := h.length
  have hlast : (operations s).getLast? = some (.start s.generation) := by
    rw [List.getLast?_eq_getElem?, hlength]
    rw [show s.generation - 1 = s.settled.length by omega]
    exact hplace
  simp [Service.live, h.wanted.mpr ⟨_, hlast⟩]

theorem Device.change (h : NoRefusal s → Device s) (hintent : Intent s) (hasked : Asked s)
    (hchange : Change s t) (hnoRefusal : NoRefusal t) : Device t := by
  cases hchange with
  | start =>
    have hdevice := h hnoRefusal
    refine ⟨hdevice.opened, hdevice.stopped, fun _ entry g hlast hstart hnewest => ?_⟩
    have hle := hintent.le_generation hlast hstart
    have : g = s.generation + 1 := hnewest
    omega
  | stop =>
    have hdevice := h hnoRefusal
    refine ⟨hdevice.opened, hdevice.stopped, fun _ entry g hlast hstart hnewest => ?_⟩
    have hle := hintent.le_generation hlast hstart
    have : g = s.generation + 1 := hnewest
    omega
  | @skip g rest live hrunning hqueued hlive hopen =>
    have hdevice := h hnoRefusal
    refine
        ⟨hdevice.opened, fun _ entry hlast hstop => ?_, fun _ entry g' hlast hstart hnewest => ?_⟩
    · rw [Service.settle, List.getLast?_concat] at hlast
      cases hlast
      cases hstop
    · rw [Service.settle, List.getLast?_concat] at hlast
      cases hlast
      cases hstart
      have hg : g = s.generation := hnewest
      subst hg
      exact hopen (hlive.trans (hintent.live_of_newest hrunning hqueued))
  | open_ hrunning =>
    have hbefore : NoRefusal s := fun call hcall => hnoRefusal call (List.mem_append_left _ hcall)
    exact ⟨(h hbefore).opened, fun hnone => (by cases hnone), fun hnone => (by cases hnone)⟩
  | close hrunning =>
    have hbefore : NoRefusal s := fun call hcall => hnoRefusal call (List.mem_append_left _ hcall)
    exact ⟨(h hbefore).opened, fun hnone => (by cases hnone), fun hnone => (by cases hnone)⟩
  | retry hrunning =>
    have hrefused := (NoRefusal.of_note hasked hrunning
      (fun call hcall => hnoRefusal call (List.mem_append_left _ hcall))).2
    cases hrefused
  | end_ hrunning hends =>
    obtain ⟨-, rfl⟩ := NoRefusal.of_note hasked hrunning hnoRefusal
    -- an operation that ends with a `true` opened or closed the microphone
    cases hends with
    | opened =>
      refine ⟨fun _ => rfl, fun _ entry hlast hstop => ?_, fun _ _ _ _ _ _ => rfl⟩
      rw [Service.settle, List.getLast?_concat] at hlast
      cases hlast
      cases hstop
    | notOpened hanswer => exact absurd rfl hanswer
    | notClosed _ hanswer => exact absurd rfl hanswer
    | closed hstop =>
      refine ⟨fun hopen => (by cases hopen), fun _ _ _ _ => enable_of_stop hstop,
        fun _ entry g hlast hstart => ?_⟩
      rw [Service.settle, List.getLast?_concat] at hlast
      cases hlast
      rw [hstop] at hstart
      cases hstart

/-! ### The run -/

/-- What every step keeps. -/
structure Sound (s : Service) : Prop where
  intent : Intent s
  asked : Asked s
  opened : Opened s
  closed : Closed s
  device : NoRefusal s → Device s

theorem Sound.new (device : Bool) : Sound (.new device) where
  intent := ⟨rfl, by simp [operations, Service.new], by simp [operations, Service.new],
    by simp [Service.new]⟩
  asked := ⟨by simp [Service.new], by simp [Service.new], by simp [Service.new]⟩
  opened := ⟨by simp [Service.new], by simp [Service.new]⟩
  closed := by
    intro _ entry hlast
    simp [Service.new] at hlast
  device := fun _ => ⟨by simp [Service.new], by simp [Service.new], by simp [Service.new]⟩

theorem Sound.change (h : Sound s) (hchange : Change s t) : Sound t where
  intent := h.intent.change hchange
  asked := h.asked.change hchange
  opened := h.opened.change h.asked hchange
  closed := h.closed.change h.opened h.asked hchange
  device := Device.change h.device h.intent h.asked hchange

theorem reachable_sound
    (h : Reachable (fun s => ∃ device, s = .new device) (fun _ _ => True) Service.machine s) :
    Sound s := by
  refine h.invariant Sound ?_ ?_
  · rintro s ⟨device, rfl⟩
    exact .new device
  · intro s op t answer _ hstep hsound
    obtain ⟨next, hnext, heq⟩ := Option.map_eq_some_iff.mp hstep
    cases heq
    exact hsound.change (step_change hnext)

/-! ### What a run guarantees -/

/-- Every operation has settled. -/
def Quiet (s : Service) : Prop := s.running = none ∧ s.queued = []

instance (s : Service) : Decidable (Quiet s) := inferInstanceAs (Decidable (_ ∧ _))

/-- The microphone follows the last intent. -/
structure FollowsIntent (s : Service) : Prop where
  /-- At most one `audioControl` call is outstanding. -/
  oneOutstanding : s.calls.countP (fun call => call.answer.isNone) ≤ 1
  /-- After a stop the last call is a close, made when every earlier call was answered. It was
  answered with `true`, unless the stop rejected or every confirmed open was followed by an earlier
  stop. -/
  afterStop : Quiet s → (operations s).getLast? = some .stop →
    ∃ earlier call entry, s.calls = earlier ++ [call] ∧ call.enable = false ∧
      call.outstanding = 0 ∧ s.settled.getLast? = some entry ∧
      (call.answer = some .yes ∨ (∃ message, entry.outcome = .rejected message) ∨
        ∀ other ∈ s.calls, confirmed other → ∃ k, other.operation < k ∧
          k + 1 < (operations s).length ∧ (operations s)[k]? = some .stop)
  /-- No stop was called between a start and the moment it resolved to `true`. -/
  startTrue : ∀ (i : Nat) (entry : Settled), s.settled[i]? = some entry →
    entry.outcome = .started true → ∀ j, i < j → j < entry.made →
      (operations s)[j]? ≠ some .stop
  /-- When nothing was refused, the microphone is open exactly if the last call was a start. -/
  device : Quiet s → NoRefusal s → operations s ≠ [] →
    (s.device = true ↔ ∃ g, (operations s).getLast? = some (.start g))

theorem Asked.oneOutstanding (h : Asked s) :
    s.calls.countP (fun call => call.answer.isNone) ≤ 1 := by
  have hzero : ∀ {calls : List AudioCall}, (∀ call ∈ calls, call.answer.isSome = true) →
      calls.countP (fun call => call.answer.isNone) = 0 := by
    intro calls hanswered
    rw [List.countP_eq_zero]
    intro call hcall hnone
    have hsome := hanswered call hcall
    rw [Option.isNone_iff_eq_none.mp hnone] at hsome
    cases hsome
  cases hrunning : s.running with
  | none => exact (hzero (h.idle hrunning)).trans_le (Nat.zero_le 1)
  | some running =>
    obtain ⟨earlier, hcalls, hanswered⟩ := h.waiting running hrunning
    rw [hcalls, List.countP_append, hzero hanswered]
    exact le_rfl

/-- When every operation has settled, these are all there are. -/
theorem Quiet.operations_eq (h : Quiet s) : operations s = s.settled.map (·.operation) := by
  simp [operations, h.1, h.2]

theorem Quiet.getLast? (h : Quiet s) {operation : Operation}
    (hlast : (operations s).getLast? = some operation) :
    ∃ entry, s.settled.getLast? = some entry ∧ entry.operation = operation := by
  rw [h.operations_eq, List.getLast?_map] at hlast
  exact Option.map_eq_some_iff.mp hlast

theorem Sound.afterStop (h : Sound s) (hquiet : Quiet s)
    (hstop : (operations s).getLast? = some .stop) :
    ∃ earlier call entry, s.calls = earlier ++ [call] ∧ call.enable = false ∧
      call.outstanding = 0 ∧ s.settled.getLast? = some entry ∧
      (call.answer = some .yes ∨ (∃ message, entry.outcome = .rejected message) ∨
        ∀ other ∈ s.calls, confirmed other → ∃ k, other.operation < k ∧
          k + 1 < (operations s).length ∧ (operations s)[k]? = some .stop) := by
  obtain ⟨entry, hlast, hoperation⟩ := hquiet.getLast? hstop
  obtain ⟨earlier, call, hcalls, henable, hend⟩ :=
    (h.closed hquiet.1 entry hlast hoperation).closes
  have halone : call.outstanding = 0 := h.asked.alone call (by rw [hcalls]; simp)
  refine ⟨earlier, call, entry, hcalls, henable, halone, hlast, hend.imp_right ?_⟩
  refine Or.imp_right fun hstopped other hother hconfirmed => ?_
  obtain ⟨k, old, hplace, hk, hold, holdStop⟩ := hstopped other hother hconfirmed
  rw [hquiet.operations_eq]
  refine ⟨k, hplace, by rw [List.length_map]; omega, ?_⟩
  rw [List.getElem?_map, hold, Option.map_some, holdStop]

theorem Sound.device_iff (h : Sound s) (hquiet : Quiet s) (hnoRefusal : NoRefusal s)
    (hcalled : operations s ≠ []) :
    s.device = true ↔ ∃ g, (operations s).getLast? = some (.start g) := by
  have hdevice := h.device hnoRefusal
  have hlast := List.getLast?_eq_some_getLast hcalled
  generalize (operations s).getLast hcalled = operation at hlast
  obtain ⟨entry, hentry, hoperation⟩ := hquiet.getLast? hlast
  cases operation with
  | stop =>
    rw [hdevice.stopped hquiet.1 entry hentry hoperation]
    simp [hlast]
  | start g =>
    -- the last operation carries the number of all of them
    have hplace : (operations s)[s.generation - 1]? = some (.start g) := by
      rw [← h.intent.length, ← List.getLast?_eq_getElem?]
      exact hlast
    have hg := h.intent.numbered _ _ hplace
    have hpos : 0 < s.generation := by
      rw [← h.intent.length]
      exact List.length_pos_iff.mpr hcalled
    have hopen := hdevice.started hquiet.1 entry g hentry hoperation (by omega)
    simp [hdevice.opened hopen, hlast]

/-- In every run, whatever the order of calls and answers, the microphone follows the last
intent. -/
theorem reachable_followsIntent {s : Service}
    (h : Reachable (fun s => ∃ device, s = .new device) (fun _ _ => True) Service.machine s) :
    FollowsIntent s := by
  have hsound := reachable_sound h
  refine ⟨hsound.asked.oneOutstanding, hsound.afterStop, ?_, hsound.device_iff⟩
  intro i entry hentry htrue j hlow hhigh
  have hmade := hsound.intent.resolved i entry hentry htrue
  omega

/-- A stop overtakes a start whose open is on its way: the open is confirmed late, the first close
is refused and the second one succeeds. -/
theorem reachable_followsIntent_late_open :
    ∃ s, FollowsIntent s ∧ Quiet s ∧ (operations s).getLast? = some .stop ∧
      s.settled.map (·.outcome) = [.started false, .stopped] ∧
      s.calls.map (·.answer) = [some .yes, some .no, some .yes] := by
  have hrun : (runAll (guarded (fun _ _ => true) Service.machine) (.new false)
      [.start, .begin_, .stop, .answer .yes, .begin_, .answer .no, .answer .yes]).any
      (fun s => decide (Quiet s ∧ (operations s).getLast? = some .stop ∧
        s.settled.map (·.outcome) = [.started false, .stopped] ∧
        s.calls.map (·.answer) = [some .yes, some .no, some .yes])) = true := by
    decide +kernel
  obtain ⟨s, hsome, hends⟩ := (Option.any_eq_true _ _).mp hrun
  exact ⟨s, reachable_followsIntent
    (Reachable.runAll (fun _ _ _ => trivial) (.start ⟨false, rfl⟩) hsome), of_decide_eq_true hends⟩

end Herden.Proofs.MicrophoneService
