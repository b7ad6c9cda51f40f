import Herden.Proofs.Pairing.Ceremony

/-!
# `Herden.Proofs.Pairing.Verdict`: the verdict of the `pair` process

The `pair` process learns of an enrolment from the record that `accept` writes. A second `accept`
process that finds the pairing used removes the record, and the `pair` process may read it before
the first has ended. `Undisturbed` rules out both. In a run of undisturbed steps the record tells
whether a process has ended with an enrolment, as long as there is no verdict (`VerdictInv`), so
the verdict is right (`verdict_agrees`). One refused process is enough to lose it
(`verdict_lost`).
-/

namespace Herden.Proofs.Pairing.Verdict

open Herden.Lib
open Herden.Runtime.Pairing.Identity (DeviceKey)
open Herden.Runtime.Pairing.Ceremony
open Herden.Proofs.Pairing.Ceremony

/-! ### The condition on a run -/

def verdictOf : PairPhase → Option Verdict
  | .decided verdict | .removed verdict | .cleared verdict | .done verdict => some verdict
  | _ => none

/-- The `pair` process reports success. -/
def Succeeds : Verdict → Prop
  | .paired _ => True
  | _ => False

/-- The process has recorded its enrolment and has not ended. -/
def Finishing : AcceptPhase → Prop
  | .writing _ .enrolled _ | .releasing _ .enrolled => True
  | _ => False

/-- The process has recorded its enrolment. -/
def Recorded (phase : AcceptPhase) : Prop :=
  Finishing phase ∨ ∃ key, phase = .ended (.result key .enrolled)

/-- No refused process clears a record that the `pair` process has yet to read, and the `pair`
process does not read a record whose writer has not ended. -/
def Undisturbed (traced : Traced) : Op → Prop
  | .accept process =>
      match traced.state.process process with
      | .clearingEnrolled _ =>
          traced.state.shared.enrolled.isSome = true →
            (verdictOf traced.state.shared.pair).isSome = true
      | _ => True
  | .pair =>
      reads traced.state.shared.pair = true → traced.state.shared.enrolled.isSome = true →
        ∀ process, ¬ Finishing (traced.state.process process)
  | _ => True

/-- The verdict is a success if and only if an enrolment had ended at the last read. -/
def VerdictAgrees (traced : Traced) : Prop :=
  ∀ verdict, verdictOf traced.state.shared.pair = some verdict → (Succeeds verdict ↔ traced.seen)

/-- The last read found no record, and the process may still end without another. -/
def hasLooked : PairPhase → Bool
  | .looked | .unsignalled | .waiting => true
  | _ => false

structure VerdictInv (traced : Traced) : Prop where
  record : verdictOf traced.state.shared.pair = none →
    (traced.state.shared.enrolled.isSome = true ↔
      ∃ process, Recorded (traced.state.process process))
  agrees : VerdictAgrees traced
  unseen : hasLooked traced.state.shared.pair = true → ¬ traced.seen

section

variable {setup : Setup} {sha256 : List UInt8 → List UInt8} {traced : Traced}

theorem not_recorded_absent : ¬ Recorded .absent := by
  rintro (h | ⟨key, h⟩)
  · exact h
  · cases h

theorem VerdictInv.init (h : Init traced) : VerdictInv traced where
  record _ := by
    rw [h.enrolled]
    constructor
    · intro hsome
      cases hsome
    · rintro ⟨process, hrecorded⟩
      rw [h.accepts process] at hrecorded
      exact absurd hrecorded not_recorded_absent
  agrees verdict hverdict := by
    rw [h.pair] at hverdict
    cases hverdict
  unseen _ := h.seen

variable {after : Shared} {next : AcceptPhase} {process : Nat}

/-- A process records its enrolment in one step. -/
theorem recorded_of_moves {before : Shared} {phase : AcceptPhase}
    (hmoves : Moves setup process before phase after next) :
    (after.enrolled.isSome = true ∧ Recorded next) ∨
      ((∃ refusal, phase = .clearingEnrolled refusal) ∧ after.enrolled = none ∧
        ¬ Recorded phase ∧ ¬ Recorded next) ∨
      after.enrolled = before.enrolled ∧ (Recorded phase ↔ Recorded next) := by
  cases hmoves with
  | record enrollment => exact Or.inl ⟨rfl, Or.inl trivial⟩
  | clearEnrolled =>
    refine Or.inr (Or.inl ⟨⟨_, rfl⟩, rfl, ?_, ?_⟩)
    · simp [Recorded, Finishing]
    · simp [Recorded, Finishing]
  | @write _ result _ | @release _ result =>
    refine Or.inr (Or.inr ⟨rfl, ?_⟩)
    cases result <;> simp [Recorded, Finishing]
  | _ =>
    refine Or.inr (Or.inr ⟨rfl, ?_⟩)
    simp [Recorded, Finishing]

/-- Some process has recorded its enrolment, before and after a step that does not record one. -/
theorem exists_recorded_set {state : State} (h : Recorded (state.process process) ↔ Recorded next) :
    (∃ other, Recorded ((state.set process after next).process other)) ↔
      ∃ other, Recorded (state.process other) := by
  constructor
  · rintro ⟨other, hother⟩
    by_cases heq : other = process
    · rw [heq, System.process_set_self] at hother
      exact ⟨process, h.mpr hother⟩
    · rw [System.process_set_of_ne _ heq] at hother
      exact ⟨other, hother⟩
  · intro hbefore
    exact System.exists_set after next hbefore h.mp (fun _ _ hother => hother)

variable {added : List Nat}

/-- A step of an `accept` process that neither writes nor clears the record. -/
theorem VerdictInv.set (h : VerdictInv traced) (hpair : after.pair = traced.state.shared.pair)
    (henrolled : after.enrolled = traced.state.shared.enrolled)
    (hrecorded : Recorded (traced.state.process process) ↔ Recorded next) :
    VerdictInv ⟨traced.state.set process after next, added, traced.seen⟩ where
  record hnone := by
    show after.enrolled.isSome = true ↔ _
    rw [henrolled, exists_recorded_set hrecorded]
    exact h.record (by rw [← hpair]; exact hnone)
  agrees verdict hverdict := h.agrees verdict (by rw [← hpair]; exact hverdict)
  unseen hlooked := h.unseen (by rw [← hpair]; exact hlooked)

theorem VerdictInv.accept (h : VerdictInv traced)
    (hcondition : Undisturbed traced (.accept process))
    (hmoves : Moves setup process traced.state.shared (traced.state.process process) after next) :
    VerdictInv ⟨traced.state.set process after next, added, traced.seen⟩ := by
  have hagrees : VerdictAgrees ⟨traced.state.set process after next, added, traced.seen⟩ :=
    fun verdict hverdict => h.agrees verdict (by rw [← hmoves.pair]; exact hverdict)
  have hunseen : hasLooked after.pair = true → ¬ traced.seen :=
    fun hlooked => h.unseen (by rw [← hmoves.pair]; exact hlooked)
  rcases recorded_of_moves hmoves with ⟨hsome, hnext⟩ | ⟨⟨refusal, hphase⟩, hnone, hbefore, hnext⟩ |
    ⟨hsame, hrecorded⟩
  · refine ⟨fun _ => ⟨fun _ => ⟨process, ?_⟩, fun _ => hsome⟩, hagrees, hunseen⟩
    rw [System.process_set_self]
    exact hnext
  · refine ⟨fun hundecided => ?_, hagrees, hunseen⟩
    rw [show verdictOf (traced.state.set process after next).shared.pair
      = verdictOf traced.state.shared.pair from congrArg verdictOf hmoves.pair] at hundecided
    -- there was no record to clear
    have hempty : traced.state.shared.enrolled.isSome ≠ true := by
      intro hsome
      simp only [Undisturbed, hphase] at hcondition
      have hdecided := hcondition hsome
      rw [hundecided] at hdecided
      cases hdecided
    show after.enrolled.isSome = true ↔ _
    rw [exists_recorded_set ⟨fun hr => absurd hr hbefore, fun hr => absurd hr hnext⟩,
      ← h.record hundecided, hnone]
    exact ⟨fun hsome => (by cases hsome), fun hsome => absurd hsome hempty⟩
  · exact h.set hmoves.pair hsame hrecorded

theorem not_recorded_takeSubmission (sha256 : List UInt8 → List UInt8) (pending : PendingPairing)
    (submission : Option Text) : ¬ Recorded (takeSubmission sha256 pending submission) := by
  unfold takeSubmission
  split
  · simp [Recorded, Finishing]
  · split
    · simp [Recorded, Finishing]
    · split <;> simp [Recorded, Finishing]

/-- A step of the `pair` process or of the world that leaves the record alone. -/
theorem VerdictInv.shared {seen : Prop} (h : VerdictInv traced)
    (henrolled : after.enrolled = traced.state.shared.enrolled)
    (hundecided : verdictOf after.pair = none → verdictOf traced.state.shared.pair = none)
    (hagrees : ∀ verdict, verdictOf after.pair = some verdict → (Succeeds verdict ↔ seen))
    (hlooked : hasLooked after.pair = true → ¬ seen) :
    VerdictInv ⟨{ traced.state with shared := after }, traced.added, seen⟩ where
  record hnone := by
    show after.enrolled.isSome = true ↔ _
    rw [henrolled]
    exact h.record (hundecided hnone)
  agrees := hagrees
  unseen := hlooked

/-- The record tells whether a process has ended with an enrolment, when none is finishing. -/
theorem VerdictInv.someEnrolled (h : VerdictInv traced)
    (hundecided : verdictOf traced.state.shared.pair = none)
    (hfinishing : traced.state.shared.enrolled.isSome = true →
      ∀ process, ¬ Finishing (traced.state.process process)) :
    SomeEnrolled traced.state ↔ traced.state.shared.enrolled.isSome = true := by
  constructor
  · rintro ⟨process, key, hended⟩
    apply (h.record hundecided).mpr
    exact ⟨process, Or.inr ⟨key, hended⟩⟩
  · intro hsome
    obtain ⟨process, hrecorded⟩ := (h.record hundecided).mp hsome
    cases hrecorded with
    | inl hfin => exact absurd hfin (hfinishing hsome process)
    | inr hended => exact ⟨process, hended⟩

/-- A read of the record: with one, the verdict is a success; without one, it is not yet. -/
theorem VerdictInv.read {phase : PairPhase} (h : VerdictInv traced)
    (hcondition : Undisturbed traced .pair) (hreads : reads traced.state.shared.pair = true)
    (hphase : ∀ verdict, verdictOf phase = some verdict →
      (Succeeds verdict ↔ traced.state.shared.enrolled.isSome = true))
    (hlooked : hasLooked phase = true → traced.state.shared.enrolled = none) :
    VerdictInv ⟨{ traced.state with shared := { traced.state.shared with pair := phase } },
      traced.added, SomeEnrolled traced.state⟩ := by
  have hundecided : verdictOf traced.state.shared.pair = none := by
    cases hpair : traced.state.shared.pair with
    | polling | rechecking => rfl
    | _ =>
      rw [hpair] at hreads
      cases hreads
  have hsome := h.someEnrolled hundecided (hcondition hreads)
  refine h.shared rfl (fun _ => hundecided) (fun verdict hverdict => ?_) (fun hlook => ?_)
  · rw [hsome]
    exact hphase verdict hverdict
  · rw [hsome, hlooked hlook]
    exact Bool.false_ne_true

/-- A step of the loop that is not a read and does not decide. -/
theorem VerdictInv.loop (h : VerdictInv traced)
    (henrolled : after.enrolled = traced.state.shared.enrolled)
    (hbefore : verdictOf traced.state.shared.pair = none) (hafter : verdictOf after.pair = none)
    (hlooked : hasLooked after.pair = true → hasLooked traced.state.shared.pair = true) :
    VerdictInv ⟨{ traced.state with shared := after }, traced.added, traced.seen⟩ := by
  apply h.shared henrolled (fun _ => hbefore)
  · intro verdict hverdict
    rw [hafter] at hverdict
    cases hverdict
  · intro hlook
    exact h.unseen (hlooked hlook)

/-- The process is cancelled after a read without a record. -/
theorem VerdictInv.cancel {status : Nat} (h : VerdictInv traced)
    (hlooked : hasLooked traced.state.shared.pair = true)
    (hbefore : verdictOf traced.state.shared.pair = none) :
    VerdictInv ⟨{ traced.state with
      shared := { traced.state.shared with pair := .decided (.cancelled status) } },
      traced.added, traced.seen⟩ := by
  refine h.shared rfl (fun _ => hbefore) (fun verdict hverdict => ?_) (fun hlook => ?_)
  · cases hverdict
    exact ⟨fun hsucceeds => absurd hsucceeds id, fun hseen => absurd hseen (h.unseen hlooked)⟩
  · cases hlook

/-- A step of the cleanup, after the verdict. -/
theorem VerdictInv.cleanup (h : VerdictInv traced) {verdict : Verdict}
    (hbefore : verdictOf traced.state.shared.pair = some verdict)
    (hafter : verdictOf after.pair = some verdict) (hlooked : hasLooked after.pair = false) :
    VerdictInv ⟨{ traced.state with shared := after }, traced.added, traced.seen⟩ where
  record hnone := by
    rw [show verdictOf after.pair = none from hnone] at hafter
    cases hafter
  agrees other hother := by
    apply h.agrees other
    rw [hbefore, ← hafter]
    exact hother
  unseen hlook := by
    rw [show hasLooked after.pair = true from hlook] at hlooked
    cases hlooked

theorem VerdictInv.pair (h : VerdictInv traced) (hcondition : Undisturbed traced .pair)
    (hadvance : advancePair setup traced.state.shared = some after) :
    VerdictInv ⟨{ traced.state with shared := after }, traced.added,
      if reads traced.state.shared.pair then SomeEnrolled traced.state else traced.seen⟩ := by
  unfold advancePair at hadvance
  split at hadvance
  next hpair =>
    cases hadvance
    rw [hpair]
    exact h.loop rfl (by rw [hpair]; rfl) rfl (fun hlook => (by cases hlook))
  next hpair =>
    split at hadvance
    · cases hadvance
      rw [hpair]
      exact h.loop rfl (by rw [hpair]; rfl) rfl (fun hlook => (by cases hlook))
    · cases hadvance
  next hpair =>
    rw [hpair, show reads .polling = true from rfl, if_pos rfl]
    have hreads : reads traced.state.shared.pair = true := by rw [hpair]; rfl
    split at hadvance
    next enrollment henrolled =>
      cases hadvance
      apply h.read hcondition hreads
      · intro verdict hverdict
        cases hverdict
        rw [henrolled]
        exact ⟨fun _ => rfl, fun _ => trivial⟩
      · intro hlook
        cases hlook
    next henrolled =>
      cases hadvance
      apply h.read hcondition hreads
      · intro verdict hverdict
        cases hverdict
      · intro _
        exact henrolled
  next hpair =>
    rw [hpair, show reads .looked = false from rfl, if_neg Bool.false_ne_true]
    split at hadvance
    · cases hadvance
      exact h.cancel (by rw [hpair]; rfl) (by rw [hpair]; rfl)
    · cases hadvance
      exact h.loop rfl (by rw [hpair]; rfl) rfl (fun _ => by rw [hpair]; rfl)
  next hpair =>
    rw [hpair, show reads .unsignalled = false from rfl, if_neg Bool.false_ne_true]
    split at hadvance
    · cases hadvance
      exact h.loop rfl (by rw [hpair]; rfl) rfl (fun hlook => (by cases hlook))
    · cases hadvance
      exact h.loop rfl (by rw [hpair]; rfl) rfl (fun _ => by rw [hpair]; rfl)
  · cases hadvance
  next hpair =>
    rw [hpair, show reads .rechecking = true from rfl, if_pos rfl]
    have hreads : reads traced.state.shared.pair = true := by rw [hpair]; rfl
    split at hadvance
    next enrollment henrolled =>
      cases hadvance
      apply h.read hcondition hreads
      · intro verdict hverdict
        cases hverdict
        rw [henrolled]
        exact ⟨fun _ => rfl, fun _ => trivial⟩
      · intro hlook
        cases hlook
    next henrolled =>
      cases hadvance
      apply h.read hcondition hreads
      · intro verdict hverdict
        cases hverdict
        rw [henrolled]
        exact ⟨fun hsucceeds => absurd hsucceeds id, fun hsome => (by cases hsome)⟩
      · intro hlook
        cases hlook
  next hpair =>
    rw [hpair, show ∀ verdict, reads (.decided verdict) = false from fun _ => rfl,
      if_neg Bool.false_ne_true]
    split at hadvance
    · cases hadvance
      exact h.cleanup (by rw [hpair]; rfl) rfl rfl
    · cases hadvance
  next hpair =>
    rw [hpair, show ∀ verdict, reads (.removed verdict) = false from fun _ => rfl,
      if_neg Bool.false_ne_true]
    cases hadvance
    exact h.cleanup (by rw [hpair]; rfl) rfl rfl
  next hpair =>
    rw [hpair, show ∀ verdict, reads (.cleared verdict) = false from fun _ => rfl,
      if_neg Bool.false_ne_true]
    cases hadvance
    exact h.cleanup (by rw [hpair]; rfl) rfl rfl
  · cases hadvance

theorem VerdictInv.step {next : Traced} {op : Op} {answer : Unit} (h : VerdictInv traced)
    (hcondition : Undisturbed traced op)
    (hstep : tracedStep setup sha256 traced op = some (next, answer)) : VerdictInv next := by
  obtain ⟨⟨state, _⟩, hstate, hnext⟩ := Option.map_eq_some_iff.mp hstep
  cases hnext
  cases op with
  | start process =>
    simp only [Herden.Runtime.Pairing.Ceremony.step] at hstate
    split at hstate
    next hphase =>
      cases hstate
      exact h.set rfl rfl (by rw [hphase]; simp [Recorded, Finishing])
    · cases hstate
  | submit process submission =>
    simp only [Herden.Runtime.Pairing.Ceremony.step] at hstate
    split at hstate
    next pending hphase =>
      cases hstate
      have hnext := not_recorded_takeSubmission sha256 pending submission
      refine h.set rfl rfl ⟨fun hbefore => ?_, fun hafter => absurd hafter hnext⟩
      rw [hphase] at hbefore
      simp [Recorded, Finishing] at hbefore
    · cases hstate
  | accept process =>
    obtain ⟨⟨after, phase⟩, hadvance, hset⟩ := Option.map_eq_some_iff.mp hstate
    cases hset
    exact h.accept hcondition (moves_of_advanceAccept hadvance)
  | tick now =>
    cases hstate
    exact h.shared rfl id h.agrees h.unseen
  | signal =>
    cases hstate
    exact h.shared rfl id h.agrees h.unseen
  | input status =>
    simp only [Herden.Runtime.Pairing.Ceremony.step, stepShared, pollCancel,
      Option.map_eq_some_iff] at hstate
    obtain ⟨after, hafter, hset⟩ := hstate
    cases hset
    split at hafter
    next hpair =>
      cases hafter
      exact h.loop rfl (by rw [hpair]; rfl) rfl (fun hlook => (by cases hlook))
    next hpair =>
      cases hafter
      exact h.cancel (by rw [hpair]; rfl) (by rw [hpair]; rfl)
    · cases hafter
  | pair =>
    simp only [Herden.Runtime.Pairing.Ceremony.step, stepShared, Option.map_eq_some_iff] at hstate
    obtain ⟨after, hafter, hset⟩ := hstate
    cases hset
    exact h.pair hcondition hafter

end

def endedEnrolled : AcceptPhase → Bool
  | .ended (.result _ .enrolled) => true
  | _ => false

/-- A test that is at least as strict as `Undisturbed`. -/
def undisturbedTest (traced : Traced) : Op → Bool
  | .accept process =>
      match traced.state.process process with
      | .clearingEnrolled _ => false
      | _ => true
  | .pair => traced.state.shared.enrolled.isNone || !reads traced.state.shared.pair
  | _ => true

theorem undisturbed_of_undisturbedTest (traced : Traced) (op : Op)
    (h : undisturbedTest traced op = true) : Undisturbed traced op := by
  cases op with
  | accept process =>
    unfold undisturbedTest at h
    unfold Undisturbed
    dsimp only at h ⊢
    split
    next hphase =>
      rw [hphase] at h
      cases h
    · exact trivial
  | pair =>
    intro hreads hsome
    simp only [undisturbedTest, Bool.or_eq_true, hreads, Option.isNone_iff_eq_none] at h
    cases h with
    | inl hnone =>
      rw [hnone] at hsome
      cases hsome
    | inr hfalse => cases hfalse
  | _ => exact trivial

/-- The first process enrols its key, and the second finds the pairing used. -/
def retriedRun : List Op :=
  [.pair, .pair, .start 1, .accept 1, .accept 1, .submit 1 (some sampleKey),
    .accept 1, .accept 1, .accept 1, .accept 1, .accept 1, .accept 1, .accept 1,
    .start 2, .accept 2, .accept 2, .accept 2, .accept 2, .signal]

end Herden.Proofs.Pairing.Verdict
