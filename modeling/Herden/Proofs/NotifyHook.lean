import Herden.Lib.Run
import Herden.Plugin.NotifyHook

/-!
# `Herden.Proofs.NotifyHook`: when no notification is missed

A process of the hook that has confirmed its status is in flight until it has cleared or written the
marker: its `target` is what it will leave there. Another process that compares its status with the
marker in the meantime, or confirms another status, works with a marker that is about to be
replaced. `Undisturbed` rules out both, step by step: processes that are in flight at one time have
one target, and a process stops at the marker only if this target is its own status.

`Progress` is the invariant: if the current status notifies, a process for it has not confirmed it
yet, or one for it is in flight, or the marker says it and nobody is in flight.
-/

namespace Herden.Proofs.NotifyHook

open Herden.Lib
open Herden.Plugin.NotifyHook

/-! ### The condition on a run -/

/-- What a process in flight will leave in the marker. -/
def target : Phase → Option (Option AgentStatus)
  | .clearing => some none
  | .confirmed status | .choosing status | .pushing status _ => some (some status)
  | _ => none

/-- Every process in flight will leave this in the marker. -/
def AllTarget (state : State) (left : Option AgentStatus) : Prop :=
  ∀ pid other, target (state.process pid) = some other → other = left

/-- No process stops at a marker that is about to be replaced, or confirms its status while another
one is on its way to the marker. -/
def Undisturbed (state : State) : Op → Prop
  | .run pid =>
      match state.process pid with
      | .started status =>
          (notifyWorthy status && state.shared.lastNotified = some status.wire) = true →
            AllTarget state (some status)
      | .sleeping status =>
          match state.shared.status with
          | none => AllTarget state none
          | some current =>
              current = status → AllTarget state (if notifyWorthy status then some status else none)
      | _ => True
  | _ => True

/-- The last push that was delivered announced this status. -/
def LastPush (shared : Shared) (status : AgentStatus) : Prop :=
  ∃ device, shared.sent.getLast? = some (device, status)

/-- If the current status notifies, the marker says it and so did the last push. -/
def Notified (state : State) : Prop :=
  ∀ status, state.shared.status = some status → notifyWorthy status = true →
    state.shared.lastNotified = some status.wire ∧ LastPush state.shared status

/-- No process runs yet, a device is registered, and the marker says what was pushed last. -/
structure Init (state : State) : Prop where
  absent : ∀ pid, state.process pid = .absent
  eligible : SomeEligible state.shared.registration
  marker : ∀ text, state.shared.lastNotified = some text →
    ∃ status, status.wire = text ∧ LastPush state.shared status
  notified : Notified state

def AllFinished (state : State) : Prop :=
  ∀ pid, state.process pid = .absent ∨ state.process pid = .finished

/-! ### The invariant -/

/-- The process has yet to confirm this status. -/
def Waits (status : AgentStatus) (phase : Phase) : Prop :=
  phase = .started status ∨ phase = .registering status ∨ phase = .sleeping status

def NoneInFlight (state : State) : Prop := ∀ pid, target (state.process pid) = none

def Progress (state : State) : Prop :=
  ∀ status, state.shared.status = some status → notifyWorthy status = true →
    (∃ pid, Waits status (state.process pid)) ∨
      (∃ pid, target (state.process pid) = some (some status)) ∨
      NoneInFlight state ∧ state.shared.lastNotified = some status.wire

/-- A process in these phases has a status that notifies. -/
def Worthy : Phase → Prop
  | .registering status | .confirmed status | .choosing status | .pushing status _ =>
      notifyWorthy status = true
  | _ => True

structure Inv (state : State) : Prop where
  eligible : SomeEligible state.shared.registration
  worthy : ∀ pid, Worthy (state.process pid)
  same : ∀ pid left, target (state.process pid) = some left → AllTarget state left
  pushed : ∀ pid status, state.process pid = .pushing status [] → LastPush state.shared status
  marker : ∀ text, state.shared.lastNotified = some text →
    (∃ status, status.wire = text ∧ LastPush state.shared status) ∨
      ∃ pid status remaining, state.process pid = .pushing status remaining
  progress : Progress state

theorem wire_injective {left right : AgentStatus} (h : left.wire = right.wire) : left = right := by
  revert h
  cases left <;> cases right <;> decide

variable {state : State}

theorem Inv.init (h : Init state) : Inv state where
  eligible := h.eligible
  worthy pid := by
    rw [h.absent pid]
    exact trivial
  same pid left htarget := by
    rw [h.absent pid] at htarget
    cases htarget
  pushed pid status hphase := by
    rw [h.absent pid] at hphase
    cases hphase
  marker text htext := Or.inl (h.marker text htext)
  progress status hstatus hworthy := by
    refine Or.inr (Or.inr ⟨fun pid => ?_, (h.notified status hstatus hworthy).1⟩)
    rw [h.absent pid]
    rfl

/-- Once all processes have finished, the marker is right, and the last push said the same. -/
theorem Inv.notified (h : Inv state) (hfinished : AllFinished state) : Notified state := by
  intro status hstatus hworthy
  have hidle : ∀ pid, target (state.process pid) = none ∧ ¬ Waits status (state.process pid) ∧
      ∀ other remaining, state.process pid ≠ .pushing other remaining := by
    intro pid
    cases hfinished pid with
    | inl habsent => rw [habsent]; simp [target, Waits]
    | inr hfin => rw [hfin]; simp [target, Waits]
  have hmarker : state.shared.lastNotified = some status.wire := by
    rcases h.progress status hstatus hworthy with ⟨pid, hwaits⟩ | ⟨pid, htarget⟩ | hdone
    · exact absurd hwaits (hidle pid).2.1
    · rw [(hidle pid).1] at htarget
      cases htarget
    · exact hdone.2
  refine ⟨hmarker, ?_⟩
  rcases h.marker _ hmarker with ⟨other, hwire, hpush⟩ | ⟨pid, other, remaining, hphase⟩
  · rw [← wire_injective hwire]
    exact hpush
  · exact absurd hphase ((hidle pid).2.2 other remaining)

/-! ### One step of a process -/

section

variable {state : State} {pid : Nat} {phase : Phase}

variable {left : Option AgentStatus} {shared : Shared}

/-- The processes in flight after a step, if the one that moved has this target. -/
theorem allTarget_set
    (hother : ∀ other, other ≠ pid → ∀ t, target (state.process other) = some t → t = left)
    (hself : ∀ t, target phase = some t → t = left) :
    AllTarget (state.set pid shared phase) left := by
  apply System.forall_set (Q := fun _ phase => ∀ t, target phase = some t → t = left)
  · exact hself
  · exact hother

/-- The processes in flight have one target after a step that the others agree with. -/
theorem same_set (h : Inv state) (hself : ∀ left, target phase = some left → AllTarget state left) :
    ∀ other left, target ((state.set pid shared phase).process other) = some left →
      AllTarget (state.set pid shared phase) left := by
  intro other left hleft
  by_cases heq : other = pid
  · rw [heq, System.process_set_self] at hleft
    apply allTarget_set
    · intro q _ t ht
      exact hself left hleft q t ht
    · intro t ht
      rw [ht] at hleft
      exact Option.some.inj hleft
  · rw [System.process_set_of_ne _ heq] at hleft
    apply allTarget_set
    · intro q _ t ht
      exact h.same other left hleft q t ht
    · intro t ht
      exact (hself t ht other left hleft).symm

theorem worthy_set (h : Inv state) (hworthy : Worthy phase) :
    ∀ other, Worthy ((state.set pid shared phase).process other) := by
  apply System.forall_set (Q := fun _ phase => Worthy phase)
  · exact hworthy
  · exact fun other _ => h.worthy other

variable {status : AgentStatus}

/-- A process that waits for the current status still does after the step of another one. -/
theorem waits_set (h : ∃ other, Waits status (state.process other))
    (hself : Waits status (state.process pid) → Waits status phase) :
    ∃ other, Waits status ((state.set pid shared phase).process other) :=
  System.exists_set shared phase h hself (fun _ _ hwaits => hwaits)

theorem target_set (h : ∃ other, target (state.process other) = some left)
    (hself : target (state.process pid) = some left → target phase = some left) :
    ∃ other, target ((state.set pid shared phase).process other) = some left :=
  System.exists_set (P := fun phase => target phase = some left)
    (Q := fun phase => target phase = some left) shared phase h hself (fun _ _ ht => ht)

theorem noneInFlight_set (hphase : target phase = none)
    (hother : ∀ other, other ≠ pid → target (state.process other) = none) :
    NoneInFlight (state.set pid shared phase) :=
  System.forall_set (Q := fun _ phase => target phase = none) hphase hother

/-- The processes that have pushed to all devices, if the one that moves is not one of them. -/
theorem pushed_set (h : Inv state) (hsent : shared.sent = state.shared.sent)
    (hempty : ∀ status, phase ≠ .pushing status []) :
    ∀ other status, (state.set pid shared phase).process other = .pushing status [] →
      LastPush shared status := by
  intro other status hphase
  by_cases heq : other = pid
  · rw [heq, System.process_set_self] at hphase
    exact absurd hphase (hempty status)
  · rw [System.process_set_of_ne _ heq] at hphase
    rw [LastPush, hsent]
    exact h.pushed other status hphase

/-- The marker and the pushes are as before, and the process that moves was not pushing. -/
theorem marker_set (h : Inv state)
    (hpushing : ∀ status remaining, state.process pid ≠ .pushing status remaining) :
    ∀ text, state.shared.lastNotified = some text →
      (∃ status, status.wire = text ∧ LastPush state.shared status) ∨
        ∃ other status remaining,
          (state.set pid state.shared phase).process other = .pushing status remaining := by
  intro text htext
  cases h.marker text htext with
  | inl hlast => exact Or.inl hlast
  | inr hpush =>
    obtain ⟨other, status, remaining, hphase⟩ := hpush
    have hne : other ≠ pid := by
      rintro rfl
      exact hpushing status remaining hphase
    exact Or.inr ⟨other, status, remaining, by rw [System.process_set_of_ne _ hne]; exact hphase⟩

/-- A step that changes nothing but the phase, to one with the same target and the same status to
wait for, unless the status is not the current one. -/
theorem Inv.turn (h : Inv state) (hworthy : Worthy phase)
    (htarget : target phase = target (state.process pid))
    (hpushing : ∀ status remaining, state.process pid ≠ .pushing status remaining)
    (hempty : ∀ status, phase ≠ .pushing status [])
    (hwaits : ∀ status, state.shared.status = some status → notifyWorthy status = true →
      Waits status (state.process pid) → Waits status phase) :
    Inv (state.set pid state.shared phase) where
  eligible := h.eligible
  worthy := worthy_set h hworthy
  same := same_set h fun left hleft => h.same pid left (by rw [← htarget]; exact hleft)
  pushed := pushed_set h rfl hempty
  marker := marker_set h hpushing
  progress status hstatus hworthy := by
    rcases h.progress status hstatus hworthy with hwait | hflight | hdone
    · exact Or.inl (waits_set hwait (hwaits status hstatus hworthy))
    · exact Or.inr (Or.inl (target_set hflight fun ht => by rw [htarget]; exact ht))
    · refine Or.inr (Or.inr ⟨noneInFlight_set ?_ fun other _ => hdone.1 other, hdone.2⟩)
      rw [htarget]
      exact hdone.1 pid

/-- A process stops. If it was to see to the current status, the marker says this status, and so
will those in flight. -/
theorem Inv.stop (h : Inv state)
    (hpushing : ∀ status remaining, state.process pid ≠ .pushing status remaining)
    (hdone : ∀ status, state.shared.status = some status → notifyWorthy status = true →
      Waits status (state.process pid) ∨ target (state.process pid) = some (some status) →
        AllTarget state (some status) ∧ state.shared.lastNotified = some status.wire) :
    Inv (state.set pid state.shared .finished) where
  eligible := h.eligible
  worthy := worthy_set h trivial
  same := same_set h fun left hleft => (by cases hleft)
  pushed := pushed_set h rfl fun status hphase => (by cases hphase)
  marker := marker_set h hpushing
  progress status hstatus hworthy := by
    by_cases hself : Waits status (state.process pid) ∨
        target (state.process pid) = some (some status)
    · -- the others in flight will leave the status, or nobody is in flight any more
      obtain ⟨hall, hmarker⟩ := hdone status hstatus hworthy hself
      by_cases hflight : ∃ other, other ≠ pid ∧ target (state.process other) ≠ none
      · obtain ⟨other, hne, hsome⟩ := hflight
        obtain ⟨left, hleft⟩ := Option.ne_none_iff_exists'.mp hsome
        refine Or.inr (Or.inl ⟨other, ?_⟩)
        rw [System.process_set_of_ne _ hne, hleft, hall other left hleft]
      · refine Or.inr (Or.inr ⟨noneInFlight_set rfl fun other hne => ?_, hmarker⟩)
        by_contra hsome
        exact hflight ⟨other, hne, hsome⟩
    · rw [not_or] at hself
      rcases h.progress status hstatus hworthy with hwait | hflight | hnone
      · exact Or.inl (waits_set hwait fun hwaits => absurd hwaits hself.1)
      · exact Or.inr (Or.inl (target_set hflight fun ht => absurd ht hself.2))
      · exact Or.inr (Or.inr ⟨noneInFlight_set rfl fun other _ => hnone.1 other, hnone.2⟩)

/-- A process confirms its status, and the others in flight agree with it. -/
theorem Inv.join (h : Inv state) (hworthy : Worthy phase) (htarget : target phase = some left)
    (hall : AllTarget state left)
    (hpushing : ∀ status remaining, state.process pid ≠ .pushing status remaining)
    (hempty : ∀ status, phase ≠ .pushing status [])
    (hcurrent : ∀ status, state.shared.status = some status → notifyWorthy status = true →
      left = some status) : Inv (state.set pid state.shared phase) where
  eligible := h.eligible
  worthy := worthy_set h hworthy
  same := same_set h fun other hother => by
    rw [htarget] at hother
    rw [← Option.some.inj hother]
    exact hall
  pushed := pushed_set h rfl hempty
  marker := marker_set h hpushing
  progress status hstatus hworthy := by
    refine Or.inr (Or.inl ⟨pid, ?_⟩)
    rw [System.process_set_self, htarget, hcurrent status hstatus hworthy]

/-- The marker is cleared. -/
theorem Inv.clear (h : Inv state) (hphase : state.process pid = .clearing) :
    Inv (state.set pid { state.shared with lastNotified := none } .finished) where
  eligible := h.eligible
  worthy := worthy_set h trivial
  same := same_set h fun left hleft => (by cases hleft)
  pushed := pushed_set h rfl fun status hother => (by cases hother)
  marker text htext := by cases htext
  progress status hstatus hworthy := by
    have hself : target (state.process pid) = some none := by rw [hphase]; rfl
    rcases h.progress status hstatus hworthy with hwait | ⟨other, hflight⟩ | hnone
    · refine Or.inl (waits_set hwait fun hwaits => ?_)
      rw [hphase] at hwaits
      simp [Waits] at hwaits
    · -- everybody in flight is about to clear the marker
      have heq := h.same pid none hself other _ hflight
      cases heq
    · rw [hnone.1 pid] at hself
      cases hself

/-- One push is delivered. -/
theorem Inv.push {device : Device} {rest : List Device} (h : Inv state)
    (hphase : state.process pid = .pushing status (device :: rest)) :
    Inv (state.set pid { state.shared with sent := state.shared.sent ++ [(device, status)] }
      (.pushing status rest)) := by
  have hself : target (state.process pid) = some (some status) := by rw [hphase]; rfl
  have hlast : LastPush { state.shared with sent := state.shared.sent ++ [(device, status)] }
      status := ⟨device, by simp⟩
  constructor
  · exact h.eligible
  · have hworthy := h.worthy pid
    rw [hphase] at hworthy
    exact worthy_set h hworthy
  · apply same_set h
    intro left hleft
    cases hleft
    exact h.same pid (some status) hself
  · intro other otherStatus hother
    by_cases heq : other = pid
    · rw [heq, System.process_set_self] at hother
      cases hother
      exact hlast
    · rw [System.process_set_of_ne _ heq] at hother
      -- the others in flight push the same status
      have htarget := h.same pid (some status) hself other (some otherStatus) (by rw [hother]; rfl)
      cases htarget
      exact hlast
  · intro text htext
    exact Or.inr ⟨pid, status, rest, System.process_set_self _ _ _ _⟩
  · intro current hcurrent hworthy
    rcases h.progress current hcurrent hworthy with hwait | hflight | hnone
    · refine Or.inl (waits_set hwait fun hwaits => ?_)
      rw [hphase] at hwaits
      simp [Waits] at hwaits
    · exact Or.inr (Or.inl (target_set hflight fun ht => hself.symm.trans ht))
    · rw [hnone.1 pid] at hself
      cases hself

/-- The marker is written after the pushes. -/
theorem Inv.write {status : AgentStatus} (h : Inv state)
    (hphase : state.process pid = .pushing status []) :
    Inv (state.set pid { state.shared with lastNotified := some status.wire } .finished) := by
  have hself : target (state.process pid) = some (some status) := by rw [hphase]; rfl
  constructor
  · exact h.eligible
  · exact worthy_set h trivial
  · apply same_set h
    intro left hleft
    cases hleft
  · exact pushed_set h rfl fun _ hother => (by cases hother)
  · intro text htext
    cases htext
    exact Or.inl ⟨status, rfl, h.pushed pid status hphase⟩
  · intro current hcurrent hworthy
    rcases h.progress current hcurrent hworthy with hwait | ⟨other, hflight⟩ | hnone
    · refine Or.inl (waits_set hwait fun hwaits => ?_)
      rw [hphase] at hwaits
      simp [Waits] at hwaits
    · have heq := h.same pid (some status) hself other _ hflight
      cases heq
      by_cases hothers : ∃ q, q ≠ pid ∧ target (state.process q) ≠ none
      · obtain ⟨q, hne, hsome⟩ := hothers
        obtain ⟨left, hleft⟩ := Option.ne_none_iff_exists'.mp hsome
        refine Or.inr (Or.inl ⟨q, ?_⟩)
        rw [System.process_set_of_ne _ hne, hleft, h.same pid (some status) hself q left hleft]
      · refine Or.inr (Or.inr ⟨noneInFlight_set rfl fun q hne => ?_, rfl⟩)
        by_contra hsome
        exact hothers ⟨q, hne, hsome⟩
    · rw [hnone.1 pid] at hself
      cases hself

/-- Every step of a process keeps the invariant. -/
theorem Inv.run {next : Shared × Phase} (h : Inv state) (hcondition : Undisturbed state (.run pid))
    (hadvance : advance state.shared (state.process pid) = some next) :
    Inv (state.set pid next.1 next.2) := by
  have hworthy := h.worthy pid
  cases hphase : state.process pid with
  | absent | finished =>
    rw [hphase] at hadvance
    cases hadvance
  | started status =>
    simp only [hphase, advance] at hadvance
    simp only [Undisturbed, hphase] at hcondition
    have hpushing : ∀ other remaining, state.process pid ≠ .pushing other remaining := by
      rw [hphase]
      intro other remaining heq
      cases heq
    split at hadvance
    next hdedupe =>
      cases hadvance
      refine h.stop hpushing fun current hcurrent hnotify hself => ?_
      -- the process stops at the marker
      have heq : status = current := by simpa [hphase, Waits, target] using hself
      rw [← heq]
      rw [Bool.and_eq_true, decide_eq_true_eq] at hdedupe
      exact ⟨hcondition (by simp [hdedupe]), hdedupe.2⟩
    next =>
      split at hadvance
      next hidle =>
        cases hadvance
        refine h.stop hpushing fun current hcurrent hnotify hself => ?_
        have heq : status = current := by simpa [hphase, Waits, target] using hself
        rw [heq, hnotify] at hidle
        cases hidle
      next =>
        split at hadvance
        next hnotify =>
          cases hadvance
          refine h.turn hnotify (by rw [hphase]; rfl) hpushing (fun _ heq => (by cases heq)) ?_
          intro current _ _ hwaits
          have heq : status = current := by simpa [hphase, Waits] using hwaits
          exact Or.inr (Or.inl (by rw [heq]))
        next =>
          cases hadvance
          refine h.turn trivial (by rw [hphase]; rfl) hpushing (fun _ heq => (by cases heq)) ?_
          intro current _ _ hwaits
          have heq : status = current := by simpa [hphase, Waits] using hwaits
          exact Or.inr (Or.inr (by rw [heq]))
  | registering status =>
    simp only [hphase, advance] at hadvance
    rw [hphase] at hworthy
    split at hadvance
    next hnone => exact absurd (List.isEmpty_iff.mp hnone) (h.eligible status hworthy)
    next =>
      cases hadvance
      refine h.turn trivial (by rw [hphase]; rfl) ?_ (fun _ heq => (by cases heq)) ?_
      · rw [hphase]
        intro other remaining heq
        cases heq
      · intro current _ _ hwaits
        have heq : status = current := by simpa [hphase, Waits] using hwaits
        exact Or.inr (Or.inr (by rw [heq]))
  | sleeping status =>
    simp only [hphase, advance] at hadvance
    simp only [Undisturbed, hphase] at hcondition
    have hpushing : ∀ other remaining, state.process pid ≠ .pushing other remaining := by
      rw [hphase]
      intro other remaining heq
      cases heq
    split at hadvance
    next hgone =>
      cases hadvance
      rw [hgone] at hcondition
      refine h.join trivial rfl hcondition hpushing (fun _ heq => (by cases heq)) ?_
      intro current hcurrent
      rw [hgone] at hcurrent
      cases hcurrent
    next current hcurrent =>
      rw [hcurrent] at hcondition
      split at hadvance
      next hmoved =>
        cases hadvance
        refine h.stop hpushing fun other hother _ hself => ?_
        -- the process had another status to see to
        have heq : status = other := by simpa [hphase, Waits, target] using hself
        rw [hcurrent] at hother
        cases hother
        exact absurd heq.symm hmoved
      next hheld =>
        have heq : current = status := not_not.mp hheld
        have hall := hcondition heq
        split at hadvance
        next hidle =>
          cases hadvance
          rw [Bool.not_eq_true'] at hidle
          rw [hidle, if_neg Bool.false_ne_true] at hall
          refine h.join trivial rfl hall hpushing (fun _ heq => (by cases heq)) ?_
          intro other hother hnotify
          rw [hcurrent] at hother
          cases hother
          rw [heq, hidle] at hnotify
          cases hnotify
        next hnotify =>
          cases hadvance
          rw [Bool.not_eq_true', Bool.not_eq_false] at hnotify
          rw [hnotify, if_pos rfl] at hall
          refine h.join hnotify rfl hall hpushing (fun _ heq => (by cases heq)) ?_
          intro other hother _
          rw [hcurrent] at hother
          cases hother
          rw [heq]
  | clearing =>
    rw [hphase] at hadvance
    cases hadvance
    exact h.clear hphase
  | confirmed status =>
    simp only [hphase, advance] at hadvance
    rw [hphase] at hworthy
    have hself : target (state.process pid) = some (some status) := by rw [hphase]; rfl
    have hpushing : ∀ other remaining, state.process pid ≠ .pushing other remaining := by
      rw [hphase]
      intro other remaining heq
      cases heq
    split at hadvance
    next hmarker =>
      cases hadvance
      refine h.stop hpushing fun current _ _ hcase => ?_
      have heq : status = current := by simpa [hphase, Waits, target] using hcase
      rw [← heq]
      exact ⟨h.same pid (some status) hself, hmarker⟩
    next =>
      cases hadvance
      refine h.turn hworthy (by rw [hphase]; rfl) hpushing (fun _ heq => (by cases heq)) ?_
      intro current _ _ hwaits
      simp [hphase, Waits] at hwaits
  | choosing status =>
    simp only [hphase, advance] at hadvance
    rw [hphase] at hworthy
    split at hadvance
    next hnone => exact absurd (List.isEmpty_iff.mp hnone) (h.eligible status hworthy)
    next hsome =>
      cases hadvance
      refine h.turn hworthy (by rw [hphase]; rfl) ?_ ?_ ?_
      · rw [hphase]
        intro other remaining heq
        cases heq
      · intro other heq
        apply hsome
        rw [List.isEmpty_iff]
        exact (Phase.pushing.inj heq).2
      · intro current _ _ hwaits
        simp [hphase, Waits] at hwaits
  | pushing status remaining =>
    cases remaining with
    | nil =>
      rw [hphase] at hadvance
      cases hadvance
      exact h.write hphase
    | cons device rest =>
      rw [hphase] at hadvance
      cases hadvance
      exact h.push hphase

end

theorem Inv.step {state next : State} {op : Op} {answer : Unit} (h : Inv state)
    (hallowed : Allowed state op) (hcondition : Undisturbed state op)
    (hstep : step state op = some (next, answer)) : Inv next := by
  cases op with
  | change status pid =>
    cases hstep
    have habsent : state.process pid = .absent := hallowed
    constructor
    · exact h.eligible
    · exact worthy_set h trivial
    · exact same_set h fun left hleft => (by cases hleft)
    · exact pushed_set h rfl fun _ hphase => (by cases hphase)
    · exact marker_set h fun _ _ hphase => (by rw [habsent] at hphase; cases hphase)
    · -- the new process sees to the new status
      intro current hcurrent _
      cases hcurrent
      exact Or.inl ⟨pid, Or.inl (System.process_set_self _ _ _ _)⟩
  | leave =>
    cases hstep
    exact ⟨h.eligible, h.worthy, h.same, h.pushed, h.marker, fun _ hstatus => (by cases hstatus)⟩
  | register file =>
    cases hstep
    exact ⟨hallowed, h.worthy, h.same, h.pushed, h.marker, h.progress⟩
  | run pid =>
    obtain ⟨pair, hadvance, hset⟩ := Option.map_eq_some_iff.mp hstep
    cases hset
    exact h.run hcondition hadvance

/-- In a run of undisturbed steps, a status that notifies is in the marker and was pushed last, once
all processes have finished. -/
theorem notified_of_undisturbed {state : State}
    (h : Reachable Init (fun state op => Allowed state op ∧ Undisturbed state op) step state)
    (hfinished : AllFinished state) : Notified state := by
  have hinv : Inv state := h.invariant Inv (fun _ hinit => Inv.init hinit)
    (fun _ _ _ _ hallowed hstep hbefore => hbefore.step hallowed.1 hallowed.2 hstep)
  exact hinv.notified hfinished

/-! ### One process, and two -/

def phone : DeviceEntry where
  token := some "phone"
  env := some "production"
  notify := [.blocked, .done]
  key := some (List.replicate 32 0)

/-- The device of `phone`. -/
def phoneDevice : Device := ⟨"phone", "production", List.replicate 32 0⟩

theorem someEligible_phone : SomeEligible (some [phone]) := by
  intro status hworthy
  cases status with
  | blocked | done => decide
  | _ => cases hworthy

/-- Before any process, with these statuses of the agent and of the marker. -/
def quiet (status : AgentStatus) (last : Option AgentStatus) : State where
  shared :=
    { status := some status
      lastNotified := last.map (·.wire)
      registration := some [phone]
      sent := last.toList.map fun status => (phoneDevice, status) }
  process := fun _ => .absent

theorem init_quiet_idle : Init (quiet .idle none) where
  absent _ := rfl
  eligible := someEligible_phone
  marker text htext := by cases htext
  notified status hstatus hworthy := by
    cases hstatus
    cases hworthy

theorem init_quiet_blocked : Init (quiet .blocked (some .blocked)) where
  absent _ := rfl
  eligible := someEligible_phone
  marker text htext := by
    cases htext
    exact ⟨.blocked, rfl, phoneDevice, rfl⟩
  notified status hstatus _ := by
    cases hstatus
    exact ⟨rfl, phoneDevice, rfl⟩

variable {pid : Nat}

/-- A process moves from one phase to the next, and the others stay. -/
theorem step_run {shared after : Shared} {phase next : Phase}
    (h : advance shared phase = some (after, next)) :
    step (state.set pid shared phase) (.run pid) = some (state.set pid after next, ()) := by
  rw [step, System.shared_set, System.process_set_self, h]
  simp

/-- The agent is blocked, with what the marker says and what was pushed. -/
def blockedHost (last : Option String) (sent : List (Device × AgentStatus)) : Shared :=
  ⟨some .blocked, last, some [phone], sent⟩

/-- The states of undisturbed runs. -/
def Runs : State → Prop :=
  Reachable Init (fun state op => Allowed state op ∧ Undisturbed state op) step

/-- The first status that notifies is pushed to the phone. -/
theorem notified_of_undisturbed_first_push :
    Notified ((quiet .idle none).set 1 (blockedHost (some "blocked") [(phoneDevice, .blocked)])
      .finished) := by
  apply notified_of_undisturbed
  · have hstarted : Runs ((quiet .idle none).set 1 (blockedHost none []) (.started .blocked)) :=
      Reachable.next (Op.change .blocked 1) (.start init_quiet_idle) ⟨rfl, trivial⟩ rfl
    have hregistering : Runs ((quiet .idle none).set 1 (blockedHost none [])
        (.registering .blocked)) :=
      Reachable.next (Op.run 1) hstarted ⟨trivial, fun h => (by cases h)⟩ (step_run rfl)
    have hsleeping : Runs ((quiet .idle none).set 1 (blockedHost none []) (.sleeping .blocked)) :=
      Reachable.next (Op.run 1) hregistering ⟨trivial, trivial⟩ (step_run rfl)
    have hconfirmed : Runs ((quiet .idle none).set 1 (blockedHost none [])
        (.confirmed .blocked)) := by
      refine Reachable.next (Op.run 1) hsleeping ⟨trivial, ?_⟩ (step_run rfl)
      -- nobody else is there
      intro _
      apply allTarget_set
      · intro other _ t ht
        cases ht
      · intro t ht
        cases ht
    have hchoosing : Runs ((quiet .idle none).set 1 (blockedHost none []) (.choosing .blocked)) :=
      Reachable.next (Op.run 1) hconfirmed ⟨trivial, trivial⟩ (step_run rfl)
    have hpushing : Runs ((quiet .idle none).set 1 (blockedHost none [])
        (.pushing .blocked [phoneDevice])) :=
      Reachable.next (Op.run 1) hchoosing ⟨trivial, trivial⟩ (step_run rfl)
    have hpushed : Runs ((quiet .idle none).set 1 (blockedHost none [(phoneDevice, .blocked)])
        (.pushing .blocked [])) :=
      Reachable.next (Op.run 1) hpushing ⟨trivial, trivial⟩ (step_run rfl)
    exact Reachable.next (Op.run 1) hpushed ⟨trivial, trivial⟩ (step_run rfl)
  · apply System.forall_set (Q := fun _ phase => phase = Phase.absent ∨ phase = .finished)
    · exact Or.inr rfl
    · exact fun _ _ => Or.inl rfl

/-! ### A marker that is about to be cleared -/

/-- The agent works again, and its process is about to clear the marker when the agent is blocked
once more: the second process stops at the old marker. -/
def flappingRun : List Op :=
  [.change .working 1, .run 1, .run 1, .change .blocked 2, .run 2, .run 1]

/-- The operation is not about this process. -/
def Spares (pid : Nat) : Op → Prop
  | .change _ other | .run other => other ≠ pid
  | _ => True

theorem process_of_spares {next : State} {op : Op} {answer : Unit} (hspares : Spares pid op)
    (hstep : step state op = some (next, answer)) : next.process pid = state.process pid := by
  cases op with
  | change status other =>
    cases hstep
    exact System.process_set_of_ne _ (Ne.symm hspares) _ _
  | leave | register file =>
    cases hstep
    rfl
  | run other =>
    obtain ⟨pair, _, hset⟩ := Option.map_eq_some_iff.mp hstep
    cases hset
    exact System.process_set_of_ne _ (Ne.symm hspares) _ _

/-- A test that is at least as strict as `Allowed`. -/
def allowedTest (state : State) : Op → Bool
  | .change _ pid => state.process pid = .absent
  | .register _ => false
  | _ => true

theorem allowed_of_allowedTest (state : State) (op : Op) (h : allowedTest state op = true) :
    Allowed state op := by
  cases op with
  | change status pid =>
    show state.process pid = .absent
    exact of_decide_eq_true h
  | register file => cases h
  | _ => exact trivial

/-- Both processes have finished, the agent is blocked, and the marker is gone. -/
theorem notification_missed :
    ¬ ∀ state, Reachable Init Allowed step state → AllFinished state → Notified state := by
  intro hall
  have hrun : (runAll (guarded allowedTest step) (quiet .blocked (some .blocked)) flappingRun).any
      (fun state => state.process 1 = .finished && state.process 2 = .finished &&
        state.shared.status = some .blocked && state.shared.lastNotified.isNone) = true := by
    decide +kernel
  obtain ⟨state, hsome, hends⟩ := (Option.any_eq_true _ _).mp hrun
  simp only [Bool.and_eq_true, decide_eq_true_eq, Option.isNone_iff_eq_none] at hends
  obtain ⟨⟨⟨hone, htwo⟩, hstatus⟩, hmarker⟩ := hends
  have hfinished : AllFinished state := by
    intro pid
    by_cases hpid : pid = 1 ∨ pid = 2
    · rcases hpid with rfl | rfl
      · exact Or.inr hone
      · exact Or.inr htwo
    · rw [not_or] at hpid
      -- the run is about the two processes only
      refine Or.inl (runAll_invariant (fun state => state.process pid = .absent) ?_ hsome rfl)
      intro before op after answer hmem hstep hbefore
      have hspares : Spares pid op := by
        simp only [flappingRun, List.mem_cons, List.not_mem_nil, or_false] at hmem
        rcases hmem with rfl | rfl | rfl | rfl | rfl | rfl <;>
          simp only [Spares] <;> omega
      unfold guarded at hstep
      split at hstep
      · exact (process_of_spares hspares hstep).trans hbefore
      · cases hstep
  have hreachable : Reachable Init Allowed step state :=
    Reachable.runAll allowed_of_allowedTest (.start init_quiet_blocked) hsome
  obtain ⟨hlost, _⟩ := hall state hreachable hfinished .blocked hstatus rfl
  rw [hmarker] at hlost
  cases hlost

end Herden.Proofs.NotifyHook
