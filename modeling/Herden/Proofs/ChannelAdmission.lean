import Mathlib.Data.Finset.Card
import Herden.Lib.Run
import Herden.App.ChannelAdmission

/-!
# `Herden.Proofs.ChannelAdmission`: permits are counted, bounded and handed out in order

`reachable_admits` says what holds between two jobs of the actor, for every interleaving of the
calls of `acquire`, of cancellations whose handlers run late, and of leases that are released or
dropped.

The invariant has three parts. `Queue`: the waiters are the parked calls, and for each class the
calls that got a permit, followed by the waiters, are in the order of their requests. `Books`: a
call holds a permit exactly when it got one and did not give it back, and every continuation was
resumed once. `Counted`: the actor's counts are the numbers of permits, within the limits.
`Settled` adds that no waiter could be admitted. `release` breaks it for a moment and
`resumeEligibleWaiters` restores it.

Request ids wrap around, and a late `cancel` can then find a waiter of another request with the
same id. That waiter throws without having been cancelled. No proof here uses that ids are
distinct.
-/

namespace Herden.Proofs.ChannelAdmission

open Herden.Lib (Reachable)
open Herden.App.ChannelAdmission

/-! ### The counts -/

/-- A permit can be given when the class and the connection are below their limits. -/
theorem canAcquire_iff (admission : SSHChannelAdmission) (k : ChannelClass) :
    admission.canAcquire k = true ↔
      admission.counts.connection < admission.limits.connection ∧
        admission.counts.of k < admission.limits.of k := by
  unfold SSHChannelAdmission.canAcquire
  split
  next hfull => simp [hfull]
  next hroom =>
    have hlt : admission.counts.connection < admission.limits.connection := by
      simpa using hroom
    cases k <;> simp [Snapshot.of, Limits.of, hlt]

@[simp] theorem increment_of (admission : SSHChannelAdmission) (k other : ChannelClass) :
    (admission.increment k).counts.of other
      = admission.counts.of other + if k = other then 1 else 0 := by
  cases other <;> rfl

@[simp] theorem increment_connection (admission : SSHChannelAdmission) (k : ChannelClass) :
    (admission.increment k).counts.connection = admission.counts.connection + 1 := rfl

@[simp] theorem increment_limits (admission : SSHChannelAdmission) (k : ChannelClass) :
    (admission.increment k).limits = admission.limits := rfl

@[simp] theorem increment_waiters (admission : SSHChannelAdmission) (k : ChannelClass) :
    (admission.increment k).waiters = admission.waiters := rfl

variable {admission : SSHChannelAdmission} {c : Nat} {phase : Phase} {l₁ l₂ : List Waiter}
  {waiter : Waiter} {k : ChannelClass}

/-- `decrement` takes one off the class and one off the connection. -/
theorem decrement_eq_some (k : ChannelClass) (hpos : 0 < admission.counts.connection) :
    ∃ after, admission.decrement k = some after ∧ after.limits = admission.limits ∧
      after.waiters = admission.waiters ∧
      after.counts.connection = admission.counts.connection - 1 ∧
      ∀ other, after.counts.of other = admission.counts.of other - if k = other then 1 else 0 := by
  refine ⟨_, if_neg (not_not.mpr hpos), rfl, rfl, rfl, ?_⟩
  intro other
  cases other <;> rfl

/-! ### The invariant -/

/-- The phases of a call that got a permit and did not give it back. -/
def holdsPermit : Phase → Bool
  | .resumed granted => granted
  | .holding => true
  | .releasing => true
  | _ => false

/-- The continuation of the call was made and not resumed, or never made. -/
def Quiet (phase : Phase) : Prop := phase = .parked ∨ phase = .refused

/-- The calls of a class that got a permit and did not give it back. -/
def permits (s : System) (k : ChannelClass) : Finset Nat :=
  (Finset.range s.calls).filter
    (fun c => c ∈ s.granted ∧ c ∉ s.released ∧ (s.call c).channelClass = k)

/-- The calls of a class in the order in which they get their permits: those that got one, then
those that wait. -/
def line (s : System) (k : ChannelClass) : List Nat :=
  s.granted.filter (fun c => (s.call c).channelClass = k)
    ++ (s.admission.waiters.filter (fun waiter => waiter.channelClass = k)).map (·.continuation)

structure Queue (s : System) : Prop where
  waiting : ∀ waiter ∈ s.admission.waiters, waiter.continuation < s.calls ∧
    (s.call waiter.continuation).phase = .parked ∧
    (s.call waiter.continuation).channelClass = waiter.channelClass
  parked : ∀ c < s.calls, (s.call c).phase = .parked →
    ∃ waiter ∈ s.admission.waiters, waiter.continuation = c
  ordered : ∀ k, (line s k).Pairwise (· < ·)

structure Books (s : System) : Prop where
  holds : ∀ c < s.calls, holdsPermit (s.call c).phase = true ↔ c ∈ s.granted ∧ c ∉ s.released
  released : ∀ c ∈ s.released, c ∈ s.granted
  granted : ∀ c ∈ s.granted, c ∈ s.resumed
  resumed : ∀ c, c ∈ s.resumed ↔ c < s.calls ∧ ¬ Quiet (s.call c).phase
  releasedOnce : s.released.Nodup
  resumedOnce : s.resumed.Nodup

structure Counted (s : System) : Prop where
  counts : ∀ k, s.admission.counts.of k = (permits s k).card
  connection : s.admission.counts.connection
    = s.admission.counts.ordinaryForwarding + s.admission.counts.events
      + s.admission.counts.ordinarySession + s.admission.counts.attach
  within : ∀ k, s.admission.counts.of k ≤ s.admission.limits.of k
  connectionWithin : s.admission.counts.connection ≤ s.admission.limits.connection

structure Inv (s : System) : Prop where
  queue : Queue s
  books : Books s
  counted : Counted s

/-- No waiter could be admitted. -/
def Settled (s : System) : Prop :=
  ∀ waiter ∈ s.admission.waiters, s.admission.canAcquire waiter.channelClass = false

variable {s t : System}

/-- The parts of a system that the invariant reads. -/
structure Alike (s t : System) : Prop where
  calls : t.calls = s.calls
  channelClass : ∀ c, (t.call c).channelClass = (s.call c).channelClass
  phase : ∀ c, (t.call c).phase = (s.call c).phase
  waiters : t.admission.waiters = s.admission.waiters
  counts : t.admission.counts = s.admission.counts
  limits : t.admission.limits = s.admission.limits
  granted : t.granted = s.granted
  released : t.released = s.released
  resumed : t.resumed = s.resumed

theorem Alike.inv (h : Alike s t) (hinv : Inv s) : Inv t := by
  obtain ⟨⟨hwaiting, hparked, hordered⟩, ⟨hholds, hrel, hgra, hres, hro, hso⟩,
    ⟨hcounts, hconn, hwithin, hcw⟩⟩ := hinv
  refine ⟨⟨?_, ?_, ?_⟩, ⟨?_, ?_, ?_, ?_, ?_, ?_⟩, ⟨?_, ?_, ?_, ?_⟩⟩
  · simpa [h.waiters, h.calls, h.phase, h.channelClass] using hwaiting
  · simpa [h.waiters, h.calls, h.phase] using hparked
  · simpa [line, h.granted, h.waiters, h.channelClass] using hordered
  · simpa [h.calls, h.phase, h.granted, h.released] using hholds
  · simpa [h.granted, h.released] using hrel
  · simpa [h.granted, h.resumed] using hgra
  · simpa [h.calls, h.phase, h.resumed] using hres
  · simpa [h.released] using hro
  · simpa [h.resumed] using hso
  · simpa [permits, h.counts, h.calls, h.granted, h.released, h.channelClass] using hcounts
  · simpa [h.counts] using hconn
  · simpa [h.counts, h.limits] using hwithin
  · simpa [h.counts, h.limits] using hcw

theorem Alike.settled (h : Alike s t) (hsettled : Settled s) : Settled t := by
  intro waiter hmem
  rw [h.waiters] at hmem
  have hbefore := hsettled waiter hmem
  rw [Bool.eq_false_iff] at hbefore ⊢
  rw [Ne, canAcquire_iff] at hbefore ⊢
  rwa [h.counts, h.limits]

/-! ### A call that moves on -/

@[simp] theorem setPhase_phase_self (s : System) (c : Nat) (phase : Phase) :
    ((s.setPhase c phase).call c).phase = phase := by
  simp [System.setPhase]

theorem setPhase_phase_of_ne (s : System) {other : Nat} (phase : Phase) (h : other ≠ c) :
    ((s.setPhase c phase).call other).phase = (s.call other).phase := by
  simp [System.setPhase, Function.update_of_ne h]

@[simp] theorem setPhase_channelClass (s : System) (c other : Nat) (phase : Phase) :
    ((s.setPhase c phase).call other).channelClass = (s.call other).channelClass := by
  by_cases h : other = c
  · subst h
    simp [System.setPhase]
  · simp [System.setPhase, Function.update_of_ne h]

@[simp] theorem setPhase_admission (s : System) (c : Nat) (phase : Phase) :
    (s.setPhase c phase).admission = s.admission := rfl

@[simp] theorem setPhase_calls (s : System) (c : Nat) (phase : Phase) :
    (s.setPhase c phase).calls = s.calls := rfl

@[simp] theorem setPhase_granted (s : System) (c : Nat) (phase : Phase) :
    (s.setPhase c phase).granted = s.granted := rfl

@[simp] theorem setPhase_released (s : System) (c : Nat) (phase : Phase) :
    (s.setPhase c phase).released = s.released := rfl

theorem setPhase_quiet (hbefore : ¬ Quiet (s.call c).phase) (hafter : ¬ Quiet phase) (other : Nat) :
    Quiet ((s.setPhase c phase).call other).phase ↔ Quiet (s.call other).phase := by
  by_cases hother : other = c
  · subst hother
    rw [setPhase_phase_self]
    exact iff_of_false hafter hbefore
  · rw [setPhase_phase_of_ne s phase hother]

/-- A call that is not parked moves on. -/
theorem Queue.setPhase (h : Queue s) (hbefore : ¬ Quiet (s.call c).phase) (hafter : ¬ Quiet phase) :
    Queue (s.setPhase c phase) := by
  have hparked : ∀ other, ((s.setPhase c phase).call other).phase = .parked ↔
      (s.call other).phase = .parked := by
    intro other
    by_cases hother : other = c
    · subst hother
      rw [setPhase_phase_self]
      exact iff_of_false (fun h => hafter (Or.inl h)) (fun h => hbefore (Or.inl h))
    · rw [setPhase_phase_of_ne s phase hother]
  refine ⟨?_, ?_, ?_⟩
  · intro waiter hmem
    rw [hparked, setPhase_channelClass]
    exact h.waiting waiter hmem
  · intro other hlt hpark
    exact h.parked other hlt ((hparked other).mp hpark)
  · intro k
    simpa [line] using h.ordered k

/-- A call that keeps its permit, or has none and gets none, moves on. -/
theorem Inv.setPhase (h : Inv s) (hbefore : ¬ Quiet (s.call c).phase) (hafter : ¬ Quiet phase)
    (hsame : holdsPermit phase = holdsPermit (s.call c).phase) : Inv (s.setPhase c phase) := by
  refine ⟨h.queue.setPhase hbefore hafter, ⟨?_, h.books.released, h.books.granted, ?_,
    h.books.releasedOnce, h.books.resumedOnce⟩, ⟨?_, h.counted.connection, h.counted.within,
    h.counted.connectionWithin⟩⟩
  · intro other hlt
    by_cases hother : other = c
    · subst hother
      rw [setPhase_phase_self, hsame]
      exact h.books.holds other hlt
    · rw [setPhase_phase_of_ne s phase hother]
      exact h.books.holds other hlt
  · intro other
    rw [setPhase_quiet hbefore hafter]
    exact h.books.resumed other
  · intro k
    simpa [permits] using h.counted.counts k

/-! ### A waiter that leaves the queue -/

/-- The first element with a property splits the list, and `eraseP` drops it. -/
theorem eraseP_of_find? {α : Type} {p : α → Bool} {l : List α} {a : α} (h : l.find? p = some a) :
    ∃ l₁ l₂, l = l₁ ++ a :: l₂ ∧ l.eraseP p = l₁ ++ l₂ ∧ p a = true ∧ ∀ x ∈ l₁, ¬ p x = true := by
  obtain ⟨hp, l₁, l₂, rfl, hbefore⟩ := List.find?_eq_some_iff_append.mp h
  have hnot : ∀ x ∈ l₁, ¬ p x = true := by
    intro x hmem
    have := hbefore x hmem
    simpa using this
  refine ⟨l₁, l₂, rfl, ?_, hp, hnot⟩
  rw [List.eraseP_append_right _ hnot, List.eraseP_cons_of_pos hp]

/-- No other waiter has the continuation of this one. -/
theorem Queue.continuation_ne (h : Queue s) {other : Waiter}
    (hwaiters : s.admission.waiters = l₁ ++ waiter :: l₂) (hother : other ∈ l₁ ++ l₂) :
    other.continuation ≠ waiter.continuation := by
  intro heq
  have hmem : other ∈ s.admission.waiters := by
    rw [hwaiters]
    simp only [List.mem_append, List.mem_cons] at hother ⊢
    tauto
  have hself : waiter ∈ s.admission.waiters := by simp [hwaiters]
  have hclass : other.channelClass = waiter.channelClass := by
    rw [← (h.waiting other hmem).2.2, ← (h.waiting waiter hself).2.2, heq]
  have hordered := h.ordered waiter.channelClass
  rw [line, hwaiters, List.filter_append, List.filter_cons_of_pos (by simp), List.map_append,
    List.map_cons] at hordered
  have hline := (List.pairwise_append.mp hordered).2.1
  rw [List.pairwise_append, List.pairwise_cons] at hline
  obtain ⟨-, ⟨hafter, -⟩, hacross⟩ := hline
  have hmap : ∀ l : List Waiter, other ∈ l →
      other.continuation
        ∈ (l.filter (fun x => x.channelClass = waiter.channelClass)).map (·.continuation) := by
    intro l hl
    exact List.mem_map_of_mem (List.mem_filter.mpr ⟨hl, by simpa using hclass⟩)
  cases List.mem_append.mp hother with
  | inl hl₁ =>
    exact absurd (hacross _ (hmap l₁ hl₁) _ List.mem_cons_self) (by rw [heq]; exact lt_irrefl _)
  | inr hl₂ => exact absurd (hafter _ (hmap l₂ hl₂)) (by rw [heq]; exact lt_irrefl _)

/-- `t` is `s` after the waiter `waiter` left the queue and its continuation was resumed. The counts
are left open. -/
structure Leaves (s t : System) (waiter : Waiter) (l₁ l₂ : List Waiter) (granted : Bool) :
    Prop where
  before : s.admission.waiters = l₁ ++ waiter :: l₂
  after : t.admission.waiters = l₁ ++ l₂
  limits : t.admission.limits = s.admission.limits
  calls : t.calls = s.calls
  channelClass : ∀ other, (t.call other).channelClass = (s.call other).channelClass
  phase : ∀ other, (t.call other).phase
    = if other = waiter.continuation then .resumed granted else (s.call other).phase
  granted : t.granted = if granted then s.granted ++ [waiter.continuation] else s.granted
  released : t.released = s.released
  resumed : t.resumed = s.resumed ++ [waiter.continuation]

/-- `resumeContinuation` of a waiter that was just taken out of the queue. -/
theorem resumeContinuation_leaves (h : Queue s)
    (hwaiters : s.admission.waiters = l₁ ++ waiter :: l₂) (granted : Bool)
    (admission : SSHChannelAdmission) (hleft : admission.waiters = l₁ ++ l₂)
    (hlimits : admission.limits = s.admission.limits) {log : List Nat}
    (hlog : log = if granted then s.granted ++ [waiter.continuation] else s.granted) :
    ∃ t, { s with admission := admission, granted := log
      }.resumeContinuation waiter.continuation granted = some t ∧ t.admission = admission ∧
      Leaves s t waiter l₁ l₂ granted := by
  have hparked := (h.waiting waiter (by simp [hwaiters])).2.1
  refine ⟨_, if_pos hparked, rfl, hwaiters, hleft, hlimits, rfl,
    fun other => setPhase_channelClass _ _ other _, ?_, hlog, rfl, rfl⟩
  intro other
  split
  next heq =>
    subst heq
    exact setPhase_phase_self _ _ _
  next hne => exact setPhase_phase_of_ne _ _ hne

variable {granted : Bool}

/-- The books after the continuation of a parked call was resumed, with a permit or without. -/
theorem Leaves.books (h : Leaves s t waiter l₁ l₂ granted) (hinv : Inv s) : Books t := by
  obtain ⟨hlt, hparked, -⟩ := hinv.queue.waiting waiter (by simp [h.before])
  have hbooks := hinv.books
  have hnew : waiter.continuation ∉ s.resumed := by
    rw [hbooks.resumed]
    exact fun hmem => hmem.2 (Or.inl hparked)
  have hnotGranted : waiter.continuation ∉ s.granted := fun hmem => hnew (hbooks.granted _ hmem)
  have hnotReleased : waiter.continuation ∉ s.released :=
    fun hmem => hnotGranted (hbooks.released _ hmem)
  refine ⟨?_, ?_, ?_, ?_, ?_, ?_⟩
  · intro other hother
    rw [h.calls] at hother
    rw [h.phase, h.released, h.granted]
    by_cases hsame : other = waiter.continuation
    · subst hsame
      cases granted <;> simp [holdsPermit, hnotGranted, hnotReleased]
    · rw [if_neg hsame, hbooks.holds other hother]
      cases granted <;> simp [hsame]
  · intro other hmem
    rw [h.released] at hmem
    have hbefore := hbooks.released other hmem
    rw [h.granted]
    cases granted <;> simp [hbefore]
  · intro other hmem
    rw [h.resumed, List.mem_append]
    rw [h.granted] at hmem
    cases granted with
    | false => exact Or.inl (hbooks.granted other hmem)
    | true =>
      cases List.mem_append.mp hmem with
      | inl hbefore => exact Or.inl (hbooks.granted other hbefore)
      | inr hlast => exact Or.inr hlast
  · intro other
    rw [h.resumed, h.phase, h.calls, List.mem_append, List.mem_singleton, hbooks.resumed]
    by_cases hsame : other = waiter.continuation
    · subst hsame
      simp [hlt, Quiet]
    · simp [hsame]
  · rw [h.released]
    exact hbooks.releasedOnce
  · rw [h.resumed]
    exact List.nodup_append.mpr ⟨hbooks.resumedOnce, List.nodup_singleton _, by
      intro a ha b hb
      rw [List.mem_singleton.mp hb]
      exact fun heq => hnew (heq ▸ ha)⟩

/-- The queue after a waiter left it, when the order of the classes is kept. -/
theorem Leaves.queue (h : Leaves s t waiter l₁ l₂ granted) (hqueue : Queue s)
    (hordered : ∀ k, (line t k).Pairwise (· < ·)) : Queue t := by
  refine ⟨?_, ?_, hordered⟩
  · intro other hmem
    rw [h.after] at hmem
    have hne := hqueue.continuation_ne h.before hmem
    have hbefore : other ∈ s.admission.waiters := by
      rw [h.before]
      simp only [List.mem_append, List.mem_cons] at hmem ⊢
      tauto
    rw [h.calls, h.phase, h.channelClass, if_neg hne]
    exact hqueue.waiting other hbefore
  · intro c hc hpark
    rw [h.calls] at hc
    rw [h.phase] at hpark
    split at hpark
    · cases hpark
    next hne =>
      obtain ⟨other, hother, rfl⟩ := hqueue.parked c hc hpark
      refine ⟨other, ?_, rfl⟩
      rw [h.before] at hother
      rw [h.after]
      simp only [List.mem_append, List.mem_cons] at hother ⊢
      obtain hl | rfl | hl := hother
      · exact Or.inl hl
      · exact absurd rfl hne
      · exact Or.inr hl

/-- A waiter that leaves the queue with an error takes nothing with it. -/
theorem Leaves.fail (h : Leaves s t waiter l₁ l₂ false)
    (hcounts : t.admission.counts = s.admission.counts) (hinv : Inv s) : Inv t := by
  refine ⟨h.queue hinv.queue ?_, h.books hinv, ⟨?_, ?_, ?_, ?_⟩⟩
  · intro k
    refine (hinv.queue.ordered k).sublist ?_
    have hsub : List.Sublist (l₁ ++ l₂) s.admission.waiters := by
      rw [h.before]
      exact List.Sublist.append_left (List.sublist_cons_self _ _) _
    simp only [line, h.granted, h.channelClass, h.after]
    exact List.Sublist.append_left ((hsub.filter _).map _) _
  · intro k
    have hsame : permits t k = permits s k := by
      simp [permits, h.calls, h.granted, h.released, h.channelClass]
    rw [hcounts, hsame]
    exact hinv.counted.counts k
  · rw [hcounts]
    exact hinv.counted.connection
  · rw [hcounts, h.limits]
    exact hinv.counted.within
  · rw [hcounts, h.limits]
    exact hinv.counted.connectionWithin

/-- A new permit is one more in its class. -/
theorem permits_grant (hlt : c < t.calls) (hnew : c ∉ s.granted) (hnotReleased : c ∉ s.released)
    (hcalls : ∀ other, other ∈ s.granted → other < s.calls) (hle : s.calls ≤ t.calls)
    (hclass : ∀ other, other ∈ s.granted →
      (t.call other).channelClass = (s.call other).channelClass)
    (hgranted : t.granted = s.granted ++ [c]) (hreleased : t.released = s.released)
    (k : ChannelClass) : ((permits t k).card : Int)
      = (permits s k).card + if (t.call c).channelClass = k then 1 else 0 := by
  have hset : permits t k
      = if (t.call c).channelClass = k then insert c (permits s k) else permits s k := by
    ext other
    simp only [permits, hgranted, hreleased, Finset.mem_filter, Finset.mem_range, List.mem_append,
      List.mem_singleton]
    by_cases hsame : other = c
    · subst hsame
      split <;> simp_all
    · have hiff : (other < t.calls ∧ (other ∈ s.granted ∨ other = c) ∧ other ∉ s.released ∧
          (t.call other).channelClass = k) ↔
          (other < s.calls ∧ other ∈ s.granted ∧ other ∉ s.released ∧
            (s.call other).channelClass = k) := by
        constructor
        · rintro ⟨-, hmem | heq, hrel, hk⟩
          · exact ⟨hcalls other hmem, hmem, hrel, by rw [← hclass other hmem, hk]⟩
          · exact absurd heq hsame
        · rintro ⟨hother, hmem, hrel, hk⟩
          exact ⟨hother.trans_le hle, Or.inl hmem, hrel, by rw [hclass other hmem, hk]⟩
      rw [hiff]
      split <;> simp [hsame]
  rw [hset]
  split
  · rw [Finset.card_insert_of_notMem (fun hmem => hnew (Finset.mem_filter.mp hmem).2.1)]
    push_cast
    rfl
  · exact (Int.add_zero _).symm

theorem Books.granted_lt (h : Books s) (hmem : c ∈ s.granted) : c < s.calls :=
  ((h.resumed c).mp (h.granted c hmem)).1

/-- The counts after `increment` for a call that just got its permit. -/
theorem Counted.grant (h : Counted s) (hbooks : Books s) (hlt : c < t.calls) (hnew : c ∉ s.granted)
    (hle : s.calls ≤ t.calls)
    (hclass : ∀ other, other ∈ s.granted →
      (t.call other).channelClass = (s.call other).channelClass)
    (hgranted : t.granted = s.granted ++ [c]) (hreleased : t.released = s.released)
    (hcounts : ∀ k, t.admission.counts.of k
      = s.admission.counts.of k + if (t.call c).channelClass = k then 1 else 0)
    (hconnection : t.admission.counts.connection = s.admission.counts.connection + 1)
    (hlimits : t.admission.limits = s.admission.limits)
    (hcan : s.admission.canAcquire (t.call c).channelClass = true) : Counted t := by
  obtain ⟨hroom, hclassRoom⟩ := (canAcquire_iff _ _).mp hcan
  refine ⟨?_, ?_, ?_, ?_⟩
  · intro k
    rw [hcounts, h.counts, permits_grant hlt hnew (fun hmem => hnew (hbooks.released c hmem))
      (fun other hmem => hbooks.granted_lt hmem) hle hclass hgranted hreleased]
  · have hsum := h.connection
    have hforwarding := hcounts .ordinaryForwarding
    have hevents := hcounts .events
    have hsession := hcounts .ordinarySession
    have hattach := hcounts .attach
    simp only [Snapshot.of] at hforwarding hevents hsession hattach
    rw [hconnection, hforwarding, hevents, hsession, hattach, hsum]
    cases (t.call c).channelClass <;> simp <;> omega
  · intro k
    rw [hcounts, hlimits]
    split
    next heq =>
      subst heq
      omega
    · have := h.within k
      omega
  · rw [hconnection, hlimits]
    omega

/-- The first waiter that can be admitted gets its permit in the order of its class. -/
theorem Leaves.line_eq (h : Leaves s t waiter l₁ l₂ true) (hinv : Inv s)
    (hfirst : ∀ other ∈ l₁, other.channelClass ≠ waiter.channelClass) (k : ChannelClass) :
    line t k = line s k := by
  have hclass := (hinv.queue.waiting waiter (by simp [h.before])).2.2
  rw [line, line, h.granted, h.after, h.before, if_pos rfl]
  simp only [h.channelClass, List.filter_append, List.map_append, List.append_assoc]
  by_cases hk : waiter.channelClass = k
  · subst hk
    have hempty : l₁.filter (fun other => other.channelClass = waiter.channelClass) = [] := by
      rw [List.filter_eq_nil_iff]
      intro other hmem
      simpa using hfirst other hmem
    rw [hempty, List.filter_cons_of_pos (by simpa using hclass), List.filter_nil,
      List.filter_cons_of_pos (by simp)]
    rfl
  · rw [List.filter_cons_of_neg (by simpa [hclass] using hk), List.filter_nil,
      List.filter_cons_of_neg (by simpa using hk)]
    rfl

theorem Leaves.grant (h : Leaves s t waiter l₁ l₂ true) (hinv : Inv s)
    (hcan : s.admission.canAcquire waiter.channelClass = true)
    (hfirst : ∀ other ∈ l₁, ¬ s.admission.canAcquire other.channelClass = true)
    (hcounts : ∀ k, t.admission.counts.of k
      = s.admission.counts.of k + if waiter.channelClass = k then 1 else 0)
    (hconnection : t.admission.counts.connection = s.admission.counts.connection + 1) : Inv t := by
  obtain ⟨hlt, hparked, hclass⟩ := hinv.queue.waiting waiter (by simp [h.before])
  have hwaiterClass : (t.call waiter.continuation).channelClass = waiter.channelClass := by
    rw [h.channelClass, hclass]
  have hnew : waiter.continuation ∉ s.granted := by
    intro hmem
    exact ((hinv.books.resumed _).mp (hinv.books.granted _ hmem)).2 (Or.inl hparked)
  refine ⟨h.queue hinv.queue ?_, h.books hinv, ?_⟩
  · intro k
    rw [h.line_eq hinv (fun other hmem heq => hfirst other hmem (heq ▸ hcan))]
    exact hinv.queue.ordered k
  · exact hinv.counted.grant hinv.books (h.calls ▸ hlt) hnew h.calls.ge
      (fun other _ => h.channelClass other) h.granted h.released
      (by rw [hwaiterClass]; exact hcounts) hconnection h.limits (by rw [hwaiterClass]; exact hcan)

/-! ### Giving a permit back -/

/-- The loop keeps the invariant, does not trap, and ends with no waiter that could be admitted. -/
theorem resumeEligibleWaitersLoop_ends (h : Inv s) {turns : Nat}
    (hturns : s.admission.waiters.length ≤ turns) :
    ∃ t, s.resumeEligibleWaitersLoop turns = some t ∧ Inv t ∧ Settled t := by
  -- A turn removes one waiter, so the turns left cover the waiters left.
  induction turns generalizing s with
  | zero =>
    refine ⟨s, rfl, h, ?_⟩
    intro waiter hmem
    rw [List.length_eq_zero_iff.mp (Nat.le_zero.mp hturns)] at hmem
    cases hmem
  | succ turns ih =>
    rw [System.resumeEligibleWaitersLoop]
    split
    next hnone =>
      refine ⟨s, rfl, h, ?_⟩
      intro waiter hmem
      simpa using List.find?_eq_none.mp hnone waiter hmem
    next waiter hfind =>
      obtain ⟨l₁, l₂, hwaiters, herase, hcan, hfirst⟩ := eraseP_of_find? hfind
      obtain ⟨next, hresume, hadmission, hleaves⟩ := resumeContinuation_leaves h.queue hwaiters true
        (SSHChannelAdmission.increment { s.admission with waiters := l₁ ++ l₂ }
          waiter.channelClass) rfl rfl (Eq.refl (s.granted ++ [waiter.continuation]))
      have hinv : Inv next := by
        refine hleaves.grant h hcan hfirst ?_ ?_
        · intro k
          rw [hadmission]
          exact increment_of _ _ _
        · rw [hadmission]
          rfl
      have hless : next.admission.waiters.length ≤ turns := by
        rw [hleaves.after]
        rw [hwaiters] at hturns
        simp only [List.length_append, List.length_cons] at hturns ⊢
        omega
      obtain ⟨t, hloop, hend⟩ := ih hinv hless
      refine ⟨t, ?_, hend⟩
      simp only [herase, System.logGranted, hresume, Option.bind_some]
      exact hloop

/-- A permit that was given back is one less in its class. -/
theorem permits_giveBack (hmem : c ∈ permits s (s.call c).channelClass) (hcalls : t.calls = s.calls)
    (hclass : ∀ other, (t.call other).channelClass = (s.call other).channelClass)
    (hgranted : t.granted = s.granted) (hreleased : t.released = s.released ++ [c])
    (k : ChannelClass) : ((permits t k).card : Int)
      = (permits s k).card - if (s.call c).channelClass = k then 1 else 0 := by
  have hset : permits t k = (permits s k).erase c := by
    ext other
    simp only [permits, hcalls, hclass, hgranted, hreleased, Finset.mem_filter, Finset.mem_range,
      Finset.mem_erase, List.mem_append, List.mem_singleton]
    tauto
  rw [hset]
  split
  next heq =>
    subst heq
    rw [Finset.card_erase_of_mem hmem]
    have hpos : 0 < (permits s (s.call c).channelClass).card := Finset.card_pos.mpr ⟨c, hmem⟩
    omega
  next hne =>
    rw [Finset.erase_eq_of_notMem (fun h => hne (Finset.mem_filter.mp h).2.2.2), Int.sub_zero]

/-- The invariant after `decrement`, before the waiters are looked at. -/
theorem Inv.giveBack (h : Inv s) (hlt : c < s.calls) (hholds : holdsPermit (s.call c).phase = true)
    (hafter : holdsPermit phase = false) (hquiet : ¬ Quiet phase)
    (hlimits : admission.limits = s.admission.limits)
    (hwaiters : admission.waiters = s.admission.waiters)
    (hconnection : admission.counts.connection = s.admission.counts.connection - 1)
    (hcounts : ∀ k, admission.counts.of k
      = s.admission.counts.of k - if (s.call c).channelClass = k then 1 else 0) :
    Inv { s.setPhase c phase with admission := admission, released := s.released ++ [c] } := by
  obtain ⟨hgranted, hnotReleased⟩ := (h.books.holds c hlt).mp hholds
  have hmem : c ∈ permits s (s.call c).channelClass :=
    Finset.mem_filter.mpr ⟨Finset.mem_range.mpr hlt, hgranted, hnotReleased, rfl⟩
  have hnotQuiet : ¬ Quiet (s.call c).phase := by
    rintro (hparked | hrefused)
    · rw [hparked] at hholds
      cases hholds
    · rw [hrefused] at hholds
      cases hholds
  have hqueue := h.queue.setPhase hnotQuiet hquiet
  refine ⟨⟨?_, ?_, ?_⟩, ⟨?_, ?_, h.books.granted, ?_, ?_, h.books.resumedOnce⟩, ⟨?_, ?_, ?_, ?_⟩⟩
  · intro waiter hwaiter
    exact hqueue.waiting waiter (hwaiters ▸ hwaiter)
  · intro other hother hparked
    obtain ⟨waiter, hwaiter, heq⟩ := hqueue.parked other hother hparked
    exact ⟨waiter, by rw [hwaiters]; exact hwaiter, heq⟩
  · intro k
    have := hqueue.ordered k
    simpa [line, hwaiters] using this
  · intro other hother
    show holdsPermit ((s.setPhase c phase).call other).phase = true ↔
      other ∈ s.granted ∧ other ∉ s.released ++ [c]
    by_cases hsame : other = c
    · subst hsame
      simp [hafter]
    · rw [setPhase_phase_of_ne s phase hsame, h.books.holds other hother]
      simp [hsame]
  · intro other hother
    cases List.mem_append.mp hother with
    | inl hbefore => exact h.books.released other hbefore
    | inr hlast =>
      rw [List.mem_singleton.mp hlast]
      exact hgranted
  · intro other
    show other ∈ s.resumed ↔ other < s.calls ∧ ¬ Quiet ((s.setPhase c phase).call other).phase
    rw [setPhase_quiet hnotQuiet hquiet]
    exact h.books.resumed other
  · exact List.nodup_append.mpr ⟨h.books.releasedOnce, List.nodup_singleton _, by
      intro a ha b hb
      rw [List.mem_singleton.mp hb]
      exact fun heq => hnotReleased (heq ▸ ha)⟩
  · intro k
    have hcard := permits_giveBack
      (t := { s.setPhase c phase with admission := admission, released := s.released ++ [c] })
      hmem rfl (fun other => setPhase_channelClass _ _ _ _) rfl rfl k
    rw [hcard]
    show admission.counts.of k = _
    rw [hcounts, h.counted.counts]
  · have hsum := h.counted.connection
    have hforwarding := hcounts .ordinaryForwarding
    have hevents := hcounts .events
    have hsession := hcounts .ordinarySession
    have hattach := hcounts .attach
    simp only [Snapshot.of] at hforwarding hevents hsession hattach
    show admission.counts.connection = _
    rw [hconnection, hforwarding, hevents, hsession, hattach, hsum]
    cases (s.call c).channelClass <;> simp <;> omega
  · intro k
    show admission.counts.of k ≤ admission.limits.of k
    have := h.counted.within k
    rw [hcounts, hlimits]
    split <;> omega
  · show admission.counts.connection ≤ admission.limits.connection
    have := h.counted.connectionWithin
    rw [hconnection, hlimits]
    omega

/-- While a call holds a permit, `decrement` does not trap. -/
theorem Inv.connection_pos (h : Inv s) (hlt : c < s.calls)
    (hholds : holdsPermit (s.call c).phase = true) : 0 < s.admission.counts.connection := by
  obtain ⟨hgranted, hnotReleased⟩ := (h.books.holds c hlt).mp hholds
  have hmem : c ∈ permits s (s.call c).channelClass :=
    Finset.mem_filter.mpr ⟨Finset.mem_range.mpr hlt, hgranted, hnotReleased, rfl⟩
  have hpos : 0 < s.admission.counts.of (s.call c).channelClass := by
    rw [h.counted.counts]
    exact_mod_cast Finset.card_pos.mpr ⟨c, hmem⟩
  have hnonneg : ∀ k, 0 ≤ s.admission.counts.of k := by
    intro k
    rw [h.counted.counts]
    exact Int.natCast_nonneg _
  have hforwarding := hnonneg .ordinaryForwarding
  have hevents := hnonneg .events
  have hsession := hnonneg .ordinarySession
  have hattach := hnonneg .attach
  rw [h.counted.connection]
  cases hk : (s.call c).channelClass <;> rw [hk] at hpos <;> simp only [Snapshot.of] at * <;>
    omega

/-- A call gives its permit back: its phase says that it has none, and the waiters that can be
admitted now are. -/
theorem releasePermit_ends (h : Inv s) (phase : Phase) (hlt : c < s.calls)
    (hholds : holdsPermit (s.call c).phase = true) (hafter : holdsPermit phase = false)
    (hquiet : ¬ Quiet phase) :
    ∃ t, (s.setPhase c phase).releasePermit c = some t ∧ Inv t ∧ Settled t := by
  obtain ⟨admission, hdecrement, hlimits, hwaiters, hconnection, hcounts⟩ :=
    decrement_eq_some (s.call c).channelClass (h.connection_pos hlt hholds)
  have hinv := h.giveBack hlt hholds hafter hquiet hlimits hwaiters hconnection hcounts
  obtain ⟨t, hloop, hend⟩ := resumeEligibleWaitersLoop_ends hinv le_rfl
  refine ⟨t, ?_, hend⟩
  rw [System.releasePermit, setPhase_channelClass, setPhase_admission, hdecrement]
  exact hloop

/-! ### A new call -/

/-- `t` is `s` with one more call, made by `acquire`. -/
structure Starts (s t : System) (k : ChannelClass) (phase : Phase) : Prop where
  calls : t.calls = s.calls + 1
  channelClass : (t.call s.calls).channelClass = k
  phase : (t.call s.calls).phase = phase
  others : ∀ c, c ≠ s.calls → t.call c = s.call c
  limits : t.admission.limits = s.admission.limits
  released : t.released = s.released

theorem Queue.line_lt (h : Queue s) (hbooks : Books s) (hmem : c ∈ line s k) : c < s.calls := by
  cases List.mem_append.mp hmem with
  | inl hgranted => exact hbooks.granted_lt (List.mem_filter.mp hgranted).1
  | inr hwaiting =>
    obtain ⟨waiter, hwaiter, rfl⟩ := List.mem_map.mp hwaiting
    exact (h.waiting waiter (List.mem_filter.mp hwaiter).1).1

/-- The calls of a class that had a permit before are the same ones. -/
theorem Starts.filter_granted (h : Starts s t k phase) (hbooks : Books s) (class' : ChannelClass) :
    s.granted.filter (fun c => (t.call c).channelClass = class')
      = s.granted.filter (fun c => (s.call c).channelClass = class') := by
  refine List.filter_congr fun c hmem => ?_
  rw [h.others c (Nat.ne_of_lt (hbooks.granted_lt hmem))]

/-- A new call that does not wait: the waiters stay, and a permit for it is the next one of its
class. -/
theorem Starts.queue (h : Starts s t k phase) (hinv : Inv s) (hphase : phase ≠ .parked)
    (hwaiters : t.admission.waiters = s.admission.waiters)
    (hordered : ∀ k, (line t k).Pairwise (· < ·)) : Queue t := by
  refine ⟨?_, ?_, hordered⟩
  · intro waiter hmem
    rw [hwaiters] at hmem
    have hbefore := hinv.queue.waiting waiter hmem
    rw [h.others _ (Nat.ne_of_lt hbefore.1), h.calls]
    exact ⟨hbefore.1.trans (Nat.lt_succ_self _), hbefore.2⟩
  · intro c hc hparked
    have hne : c ≠ s.calls := by
      rintro rfl
      exact hphase (h.phase.symm.trans hparked)
    rw [h.calls] at hc
    rw [h.others c hne] at hparked
    rw [hwaiters]
    exact hinv.queue.parked c (by omega) hparked

/-- The books with a new call. -/
theorem Starts.books (h : Starts s t k phase) (hinv : Inv s)
    (hgranted : t.granted = if holdsPermit phase then s.granted ++ [s.calls] else s.granted)
    (hresumed : (Quiet phase ∧ t.resumed = s.resumed) ∨
      (¬ Quiet phase ∧ t.resumed = s.resumed ++ [s.calls]))
    (hquiet : Quiet phase → holdsPermit phase = false) : Books t := by
  have hbooks := hinv.books
  have hfresh : s.calls ∉ s.resumed := fun hmem =>
    absurd ((hbooks.resumed _).mp hmem).1 (lt_irrefl _)
  have hnotGranted : s.calls ∉ s.granted := fun hmem => hfresh (hbooks.granted _ hmem)
  have hnotReleased : s.calls ∉ s.released := fun hmem => hnotGranted (hbooks.released _ hmem)
  refine ⟨?_, ?_, ?_, ?_, ?_, ?_⟩
  · intro c hc
    rw [h.calls] at hc
    rw [h.released, hgranted]
    by_cases hsame : c = s.calls
    · subst hsame
      rw [h.phase]
      cases holdsPermit phase <;> simp [hnotGranted, hnotReleased]
    · rw [h.others c hsame, hbooks.holds c (by omega)]
      cases holdsPermit phase <;> simp [hsame]
  · intro c hmem
    rw [h.released] at hmem
    have hbefore := hbooks.released c hmem
    rw [hgranted]
    cases holdsPermit phase <;> simp [hbefore]
  · intro c hmem
    rw [hgranted] at hmem
    obtain ⟨hq, hsame⟩ | ⟨hq, hmore⟩ := hresumed
    · rw [hquiet hq] at hmem
      rw [hsame]
      exact hbooks.granted c hmem
    · rw [hmore, List.mem_append]
      split at hmem
      · cases List.mem_append.mp hmem with
        | inl hbefore => exact Or.inl (hbooks.granted c hbefore)
        | inr hlast => exact Or.inr hlast
      · exact Or.inl (hbooks.granted c hmem)
  · intro c
    rw [h.calls]
    by_cases hsame : c = s.calls
    · subst hsame
      rw [h.phase]
      obtain ⟨hq, hres⟩ | ⟨hq, hres⟩ := hresumed
      · simp [hres, hfresh, hq]
      · simp [hres, hq]
    · rw [h.others c hsame]
      have hiff : c ∈ t.resumed ↔ c ∈ s.resumed := by
        obtain ⟨_, hres⟩ | ⟨_, hres⟩ := hresumed <;> simp [hres, hsame]
      rw [hiff, hbooks.resumed]
      have hlt : c < s.calls + 1 ↔ c < s.calls := by omega
      rw [hlt]
  · rw [h.released]
    exact hbooks.releasedOnce
  · obtain ⟨_, hres⟩ | ⟨_, hres⟩ := hresumed
    · rw [hres]
      exact hbooks.resumedOnce
    · rw [hres]
      exact List.nodup_append.mpr ⟨hbooks.resumedOnce, List.nodup_singleton _, by
        intro a ha b hb
        rw [List.mem_singleton.mp hb]
        exact fun heq => hfresh (heq ▸ ha)⟩

/-- A call that gets no permit changes no count. -/
theorem Starts.counted (h : Starts s t k phase) (hinv : Inv s) (hgranted : t.granted = s.granted)
    (hcounts : t.admission.counts = s.admission.counts) : Counted t := by
  refine ⟨?_, ?_, ?_, ?_⟩
  · intro class'
    have hsame : permits t class' = permits s class' := by
      ext c
      simp only [permits, Finset.mem_filter, Finset.mem_range, hgranted, h.released, h.calls]
      constructor
      · rintro ⟨-, hmem, hrel, hclass⟩
        have hlt := hinv.books.granted_lt hmem
        rw [h.others c (Nat.ne_of_lt hlt)] at hclass
        exact ⟨hlt, hmem, hrel, hclass⟩
      · rintro ⟨hlt, hmem, hrel, hclass⟩
        rw [h.others c (Nat.ne_of_lt hlt)]
        exact ⟨by omega, hmem, hrel, hclass⟩
    rw [hcounts, hsame]
    exact hinv.counted.counts class'
  · rw [hcounts]
    exact hinv.counted.connection
  · rw [hcounts, h.limits]
    exact hinv.counted.within
  · rw [hcounts, h.limits]
    exact hinv.counted.connectionWithin

/-- A call that neither waits nor gets a permit. -/
theorem Starts.noPermit (h : Starts s t k phase) (hinv : Inv s) (hphase : phase ≠ .parked)
    (hholds : holdsPermit phase = false) (hwaiters : t.admission.waiters = s.admission.waiters)
    (hgranted : t.granted = s.granted) (hcounts : t.admission.counts = s.admission.counts)
    (hresumed : (Quiet phase ∧ t.resumed = s.resumed) ∨
      (¬ Quiet phase ∧ t.resumed = s.resumed ++ [s.calls])) : Inv t := by
  refine ⟨h.queue hinv hphase hwaiters ?_, h.books hinv (by rw [hholds]; exact hgranted) hresumed
    (fun _ => hholds), h.counted hinv hgranted hcounts⟩
  intro class'
  rw [line, hgranted, h.filter_granted hinv.books, hwaiters]
  exact hinv.queue.ordered class'

/-- A call that gets its permit at once. No call of its class waits. -/
theorem Starts.permit (h : Starts s t k (.resumed true)) (hinv : Inv s) (hsettled : Settled s)
    (hcan : s.admission.canAcquire k = true) (hwaiters : t.admission.waiters = s.admission.waiters)
    (hgranted : t.granted = s.granted ++ [s.calls]) (hresumed : t.resumed = s.resumed ++ [s.calls])
    (hcounts : ∀ class', t.admission.counts.of class'
      = s.admission.counts.of class' + if k = class' then 1 else 0)
    (hconnection : t.admission.counts.connection = s.admission.counts.connection + 1) : Inv t := by
  have hnobody : s.admission.waiters.filter (fun waiter => waiter.channelClass = k) = [] := by
    rw [List.filter_eq_nil_iff]
    intro waiter hmem heq
    have hno := hsettled waiter hmem
    rw [of_decide_eq_true heq, hcan] at hno
    cases hno
  have hnotQuiet : ¬ Quiet (.resumed true) := by
    rintro (hparked | hrefused)
    · cases hparked
    · cases hrefused
  refine ⟨h.queue hinv (fun heq => by cases heq) hwaiters ?_,
    h.books hinv hgranted (Or.inr ⟨hnotQuiet, hresumed⟩) (fun hq => absurd hq hnotQuiet), ?_⟩
  · intro class'
    have hbefore := hinv.queue.ordered class'
    rw [line, hgranted, List.filter_append, h.filter_granted hinv.books, hwaiters]
    by_cases hclass : k = class'
    · subst hclass
      rw [line, hnobody, List.map_nil, List.append_nil] at hbefore
      rw [hnobody, List.map_nil, List.append_nil,
        List.filter_cons_of_pos (by simpa using h.channelClass), List.filter_nil,
        List.pairwise_append]
      refine ⟨hbefore, List.pairwise_singleton _ _, ?_⟩
      intro c hmem last hlast
      rw [List.mem_singleton.mp hlast]
      exact hinv.books.granted_lt (List.mem_filter.mp hmem).1
    · rw [List.filter_cons_of_neg (by simpa [h.channelClass] using hclass), List.filter_nil,
        List.append_nil]
      exact hbefore
  · have hnew : s.calls ∉ s.granted := fun hmem => lt_irrefl _ (hinv.books.granted_lt hmem)
    refine hinv.counted.grant hinv.books (by rw [h.calls]; exact Nat.lt_succ_self _) hnew
      (by rw [h.calls]; exact Nat.le_succ _) ?_ hgranted h.released ?_ hconnection h.limits ?_
    · intro other hmem
      rw [h.others other (Nat.ne_of_lt (hinv.books.granted_lt hmem))]
    · rw [h.channelClass]
      exact hcounts
    · rw [h.channelClass]
      exact hcan

/-- A call that waits is the last of its class. -/
theorem Starts.waits (h : Starts s t k .parked) (hinv : Inv s) {id : UInt64}
    (hwaiters : t.admission.waiters = s.admission.waiters ++ [⟨id, k, s.calls⟩])
    (hgranted : t.granted = s.granted) (hresumed : t.resumed = s.resumed)
    (hcounts : t.admission.counts = s.admission.counts) : Inv t := by
  refine ⟨⟨?_, ?_, ?_⟩, h.books hinv hgranted (Or.inl ⟨Or.inl rfl, hresumed⟩) (fun _ => rfl),
    h.counted hinv hgranted hcounts⟩
  · intro waiter hmem
    rw [hwaiters] at hmem
    cases List.mem_append.mp hmem with
    | inl hbefore =>
      have hold := hinv.queue.waiting waiter hbefore
      rw [h.others _ (Nat.ne_of_lt hold.1), h.calls]
      exact ⟨hold.1.trans (Nat.lt_succ_self _), hold.2⟩
    | inr hlast =>
      rw [List.mem_singleton.mp hlast]
      exact ⟨by rw [h.calls]; exact Nat.lt_succ_self _, h.phase, h.channelClass⟩
  · intro c hc hparked
    rw [hwaiters]
    by_cases hsame : c = s.calls
    · exact ⟨_, List.mem_append_right _ (List.mem_singleton_self _), hsame.symm⟩
    · rw [h.calls] at hc
      rw [h.others c hsame] at hparked
      obtain ⟨waiter, hmem, heq⟩ := hinv.queue.parked c (by omega) hparked
      exact ⟨waiter, List.mem_append_left _ hmem, heq⟩
  · intro class'
    have hbefore := hinv.queue.ordered class'
    rw [line, hgranted, h.filter_granted hinv.books, hwaiters, List.filter_append, List.map_append,
      ← List.append_assoc]
    refine List.pairwise_append.mpr ⟨hbefore, ?_, ?_⟩
    · by_cases hclass : k = class' <;> simp [hclass]
    · intro c hmem last hlast
      obtain ⟨waiter, hwaiter, rfl⟩ := List.mem_map.mp hlast
      rw [List.mem_singleton.mp (List.mem_filter.mp hwaiter).1]
      exact hinv.queue.line_lt hinv.books hmem

theorem Starts.of_update {requestID : UInt64} {isCancelled : Bool} (hcalls : t.calls = s.calls + 1)
    (hcall : t.call = Function.update s.call s.calls ⟨k, requestID, isCancelled, phase⟩)
    (hlimits : t.admission.limits = s.admission.limits) (hreleased : t.released = s.released) :
    Starts s t k phase := by
  refine ⟨hcalls, ?_, ?_, ?_, hlimits, hreleased⟩
  · rw [hcall, Function.update_self]
  · rw [hcall, Function.update_self]
  · intro c hne
    rw [hcall, Function.update_of_ne hne]

/-- Where no permit is left for a class, one more given does not make room. -/
theorem canAcquire_increment {other : ChannelClass} (h : admission.canAcquire other = false) :
    (admission.increment k).canAcquire other = false := by
  rw [Bool.eq_false_iff, Ne, canAcquire_iff] at h ⊢
  rw [increment_connection, increment_of, increment_limits]
  intro hroom
  apply h
  obtain ⟨hconnection, hclass⟩ := hroom
  split at hclass <;> omega

theorem acquire_keeps (h : Inv s) (hsettled : Settled s) (k : ChannelClass) (isCancelled : Bool) :
    Inv (s.acquire k isCancelled) ∧ Settled (s.acquire k isCancelled) := by
  unfold System.acquire
  simp only
  split
  next hcancelled =>
    refine ⟨?_, hsettled⟩
    refine Starts.noPermit (?_ : Starts s _ k .refused) h (fun heq => by cases heq) rfl rfl rfl rfl
      (Or.inl ⟨Or.inr rfl, rfl⟩)
    exact .of_update rfl rfl rfl rfl
  next hrunning =>
    split
    next hstale =>
      refine ⟨?_, hsettled⟩
      refine Starts.noPermit (?_ : Starts s _ k (.resumed false)) h (fun heq => by cases heq) rfl
        rfl rfl rfl (Or.inr ⟨by simp [Quiet], rfl⟩)
      exact .of_update rfl rfl rfl rfl
    next hlive =>
      split
      next hcan =>
        refine ⟨?_, fun waiter hmem => canAcquire_increment (hsettled waiter hmem)⟩
        refine Starts.permit (?_ : Starts s _ k (.resumed true)) h hsettled hcan rfl rfl rfl
          (fun class' => increment_of _ _ _) rfl
        exact .of_update rfl rfl rfl rfl
      next hfull =>
        refine ⟨?_, ?_⟩
        · refine Starts.waits (?_ : Starts s _ k .parked) h rfl rfl rfl rfl
          exact .of_update rfl rfl rfl rfl
        · intro waiter hmem
          cases List.mem_append.mp hmem with
          | inl hbefore => exact hsettled waiter hbefore
          | inr hlast =>
            rw [List.mem_singleton.mp hlast]
            exact Bool.eq_false_iff.mpr hfull

/-! ### A step -/

theorem cancelTask_alike (s : System) (c : Nat) : Alike s (s.cancelTask c) := by
  have hcall : ∀ other, (Function.update s.call c { s.call c with isCancelled := true }
      other).channelClass = (s.call other).channelClass ∧
      (Function.update s.call c { s.call c with isCancelled := true } other).phase
        = (s.call other).phase := by
    intro other
    by_cases hsame : other = c
    · subst hsame
      simp
    · simp [Function.update_of_ne hsame]
  unfold System.cancelTask
  simp only
  split
  · exact ⟨rfl, fun _ => rfl, fun _ => rfl, rfl, rfl, rfl, rfl, rfl, rfl⟩
  · split <;> exact ⟨rfl, fun other => (hcall other).1, fun other => (hcall other).2, rfl, rfl,
      rfl, rfl, rfl, rfl⟩

theorem forget_alike (s : System) (requestID : UInt64) :
    Alike s { s with admission := s.admission.forget requestID } :=
  ⟨rfl, fun _ => rfl, fun _ => rfl, rfl, rfl, rfl, rfl, rfl, rfl⟩

theorem cancel_keeps (h : Inv s) (hsettled : Settled s) (requestID : UInt64) :
    ∃ t, s.cancel requestID = some t ∧ Inv t ∧ Settled t := by
  unfold System.cancel
  split
  · exact ⟨s, rfl, h, hsettled⟩
  · split
    next waiter hfind =>
      obtain ⟨l₁, l₂, hwaiters, herase, -, -⟩ := eraseP_of_find? hfind
      obtain ⟨t, hresume, hadmission, hleaves⟩ := resumeContinuation_leaves h.queue hwaiters false
        { s.admission with waiters := l₁ ++ l₂ } rfl rfl (Eq.refl s.granted)
      refine ⟨t, ?_, hleaves.fail (by rw [hadmission]) h, ?_⟩
      · rw [herase]
        exact hresume
      · intro other hmem
        rw [hleaves.after] at hmem
        rw [hadmission]
        refine hsettled other ?_
        rw [hwaiters]
        simp only [List.mem_append, List.mem_cons] at hmem ⊢
        tauto
    · have halike : Alike s { s with
          admission := { s.admission with
            cancelledRequests := insert requestID s.admission.cancelledRequests } } :=
        ⟨rfl, fun _ => rfl, fun _ => rfl, rfl, rfl, rfl, rfl, rfl, rfl⟩
      exact ⟨_, rfl, halike.inv h, halike.settled hsettled⟩

theorem resume_keeps (h : Inv s) (hsettled : Settled s) (hlt : c < s.calls) :
    ∃ t, s.resume c = some t ∧ Inv t ∧ Settled t := by
  unfold System.resume
  simp only
  split
  next hphase =>
    split
    next hcancelled =>
      obtain ⟨t, hrelease, hinv, hafter⟩ := releasePermit_ends h .threw hlt
        (by rw [hphase]; rfl) rfl (by simp [Quiet])
      refine ⟨_, by rw [hrelease]; rfl, (forget_alike t _).inv hinv,
        (forget_alike t _).settled hafter⟩
    next hrunning =>
      have hmoved : Inv (s.setPhase c .holding) :=
        h.setPhase (by rw [hphase]; simp [Quiet]) (by simp [Quiet]) (by rw [hphase]; rfl)
      exact ⟨_, rfl, (forget_alike _ _).inv hmoved, (forget_alike _ _).settled hsettled⟩
  next hphase =>
    have hmoved : Inv (s.setPhase c .threw) :=
      h.setPhase (by rw [hphase]; simp [Quiet]) (by simp [Quiet]) (by rw [hphase]; rfl)
    exact ⟨_, rfl, (forget_alike _ _).inv hmoved, (forget_alike _ _).settled hsettled⟩
  · exact ⟨s, rfl, h, hsettled⟩

theorem releaseLease_keeps (h : Inv s) (hsettled : Settled s) (c : Nat) :
    Inv (s.releaseLease c) ∧ Settled (s.releaseLease c) := by
  unfold System.releaseLease
  split
  next hphase =>
    exact ⟨h.setPhase (by rw [hphase]; simp [Quiet]) (by simp [Quiet]) (by rw [hphase]; rfl),
      hsettled⟩
  · exact ⟨h, hsettled⟩

theorem actorRelease_keeps (h : Inv s) (hsettled : Settled s) (hlt : c < s.calls) :
    ∃ t, s.actorRelease c = some t ∧ Inv t ∧ Settled t := by
  unfold System.actorRelease
  split
  next hphase =>
    exact releasePermit_ends h .released hlt (by rw [hphase]; rfl) rfl (by simp [Quiet])
  · exact ⟨s, rfl, h, hsettled⟩

/-- No step traps, and every step keeps the invariant. -/
theorem step_keeps (h : Inv s) (hsettled : Settled s) (op : Op) :
    ∃ t, s.step op = some (t, ()) ∧ Inv t ∧ Settled t := by
  cases op with
  | acquire k isCancelled => exact ⟨_, rfl, acquire_keeps h hsettled k isCancelled⟩
  | cancelTask c =>
    refine ⟨_, rfl, ?_⟩
    split
    · exact ⟨(cancelTask_alike s c).inv h, (cancelTask_alike s c).settled hsettled⟩
    · exact ⟨h, hsettled⟩
  | cancel message =>
    rw [System.step]
    split
    · exact ⟨s, rfl, h, hsettled⟩
    next requestID _ =>
      have halike : Alike s { s with messages := s.messages.eraseIdx message } :=
        ⟨rfl, fun _ => rfl, fun _ => rfl, rfl, rfl, rfl, rfl, rfl, rfl⟩
      obtain ⟨t, hcancel, hend⟩ := cancel_keeps (halike.inv h) (halike.settled hsettled) requestID
      exact ⟨t, by rw [hcancel]; rfl, hend⟩
  | resume c =>
    rw [System.step]
    split
    next hlt =>
      obtain ⟨t, hresume, hend⟩ := resume_keeps h hsettled hlt
      exact ⟨t, by rw [hresume]; rfl, hend⟩
    · exact ⟨s, rfl, h, hsettled⟩
  | release c =>
    refine ⟨_, rfl, ?_⟩
    split
    · exact releaseLease_keeps h hsettled c
    · exact ⟨h, hsettled⟩
  | deinit c =>
    refine ⟨_, rfl, ?_⟩
    split
    · exact releaseLease_keeps h hsettled c
    · exact ⟨h, hsettled⟩
  | actorRelease c =>
    rw [System.step]
    split
    next hlt =>
      obtain ⟨t, hrelease, hend⟩ := actorRelease_keeps h hsettled hlt
      exact ⟨t, by rw [hrelease]; rfl, hend⟩
    · exact ⟨s, rfl, h, hsettled⟩

theorem inv_new {limits : Limits} (h : System.new limits = some s) : Inv s ∧ Settled s := by
  obtain ⟨admission, hadmission, rfl⟩ := Option.map_eq_some_iff.mp h
  unfold SSHChannelAdmission.new at hadmission
  split at hadmission
  next hpositive =>
    cases hadmission
    obtain ⟨hforwarding, hevents, hsession, hattach, hconnection⟩ := hpositive
    refine ⟨⟨⟨?_, ?_, ?_⟩, ⟨?_, ?_, ?_, ?_, List.nodup_nil, List.nodup_nil⟩, ⟨?_, rfl, ?_, ?_⟩⟩, ?_⟩
    · intro waiter hmem
      cases hmem
    · intro c hc
      exact absurd hc (Nat.not_lt_zero c)
    · intro k
      exact List.Pairwise.nil
    · intro c hc
      exact absurd hc (Nat.not_lt_zero c)
    · intro c hmem
      cases hmem
    · intro c hmem
      cases hmem
    · intro c
      simp
    · intro k
      cases k <;> simp [Snapshot.of, permits]
    · intro k
      cases k
      · exact hforwarding.le
      · exact hevents.le
      · exact hsession.le
      · exact hattach.le
    · exact hconnection.le
    · intro waiter hmem
      cases hmem
  · cases hadmission

/-! ### The promises of the actor -/

/-- What holds between two jobs of the actor.

- `counts`, `within`, `connection`: a class counts its permits, the connection counts them all, and
  both stay within their limits;
- `runs`: no step traps;
- `settled`: no waiter could be admitted;
- `ordered`: for each class, the calls that got a permit, followed by the waiters, are in the order
  of the requests;
- `resumed`: a continuation is resumed once, and one that was not is a waiter's;
- `released`: a permit is given back once, and only one that was granted;
- `threw`: a call that threw has no permit. -/
structure Admits (s : System) : Prop where
  counts : ∀ k, s.admission.counts.of k = (permits s k).card
  within : ∀ k, s.admission.counts.of k ≤ s.admission.limits.of k
  connection : s.admission.counts.connection
      = s.admission.counts.ordinaryForwarding + s.admission.counts.events
        + s.admission.counts.ordinarySession + s.admission.counts.attach ∧
    s.admission.counts.connection ≤ s.admission.limits.connection
  runs : ∀ op, (s.step op).isSome
  settled : ∀ waiter ∈ s.admission.waiters, s.admission.canAcquire waiter.channelClass = false
  ordered : ∀ k, (line s k).Pairwise (· < ·)
  resumed : s.resumed.Nodup ∧ ∀ c < s.calls, (s.call c).phase ≠ .refused →
    (c ∉ s.resumed ↔ ∃ waiter ∈ s.admission.waiters, waiter.continuation = c)
  released : s.released.Nodup ∧ ∀ c ∈ s.released, c ∈ s.granted
  threw : ∀ c < s.calls, (s.call c).phase = .threw ∨ (s.call c).phase = .refused →
    ∀ k, c ∉ permits s k

theorem Inv.admits (h : Inv s) (hsettled : Settled s) : Admits s where
  counts := h.counted.counts
  within := h.counted.within
  connection := ⟨h.counted.connection, h.counted.connectionWithin⟩
  runs op := by
    obtain ⟨t, hstep, -⟩ := step_keeps h hsettled op
    rw [hstep]
    rfl
  settled := hsettled
  ordered := h.queue.ordered
  resumed := by
    refine ⟨h.books.resumedOnce, ?_⟩
    intro c hlt hrefused
    rw [h.books.resumed]
    constructor
    · intro hnot
      have hquiet : Quiet (s.call c).phase := by
        by_contra hcontra
        exact hnot ⟨hlt, hcontra⟩
      exact h.queue.parked c hlt (hquiet.resolve_right hrefused)
    · rintro ⟨waiter, hmem, rfl⟩ ⟨-, hnotQuiet⟩
      exact hnotQuiet (Or.inl (h.queue.waiting waiter hmem).2.1)
  released := ⟨h.books.releasedOnce, h.books.released⟩
  threw c hlt hphase k hmem := by
    obtain ⟨-, hgranted, hnotReleased, -⟩ := Finset.mem_filter.mp hmem
    have hholds := (h.books.holds c hlt).mpr ⟨hgranted, hnotReleased⟩
    obtain hthrew | hrefused := hphase
    · rw [hthrew] at hholds
      cases hholds
    · rw [hrefused] at hholds
      cases hholds

/-- Along every run, whatever the limits. -/
theorem reachable_admits {limits : Limits} {s : System}
    (h : Reachable (fun s => System.new limits = some s) (fun _ _ => True) System.step s) :
    Admits s := by
  have hinv : Inv s ∧ Settled s := by
    refine h.invariant (fun s => Inv s ∧ Settled s) (fun s hnew => inv_new hnew) ?_
    intro s op t answer _ hstep hbefore
    obtain ⟨t', hstep', hend⟩ := step_keeps hbefore.1 hbefore.2 op
    rw [hstep] at hstep'
    cases hstep'
    exact hend
  exact hinv.1.admits hinv.2

/-- Three calls for one permit. The second is cancelled while it waits, but its `cancel` runs after
the first gave the permit back, so the second has it and hands it on to the third. -/
def lateCancel : List Op :=
  [.acquire .attach false, .resume 0, .acquire .attach false, .acquire .attach false,
    .cancelTask 1, .release 0, .actorRelease 0, .cancel 0, .resume 1, .resume 2]

theorem reachable_admits_lateCancel :
    ∃ s, Reachable (fun s => System.new .production = some s) (fun _ _ => True) System.step s ∧
      s.granted = [0, 1, 2] ∧ s.released = [0, 1] ∧ (s.call 1).phase = .threw ∧ Admits s := by
  have hrun : (Herden.Lib.runAll (Herden.Lib.guarded (fun _ _ => true) System.step)
      ((System.new .production).get rfl) lateCancel).any (fun s =>
        decide (s.granted = [0, 1, 2] ∧ s.released = [0, 1] ∧ (s.call 1).phase = .threw))
        = true := by
    decide +kernel
  obtain ⟨s, hsome, hends⟩ := (Option.any_eq_true _ _).mp hrun
  have hreach : Reachable (fun s => System.new .production = some s) (fun _ _ => True)
      System.step s :=
    Reachable.runAll (fun _ _ _ => trivial) (.start rfl) hsome
  obtain ⟨hgranted, hreleased, hphase⟩ := of_decide_eq_true hends
  exact ⟨s, hreach, hgranted, hreleased, hphase, reachable_admits hreach⟩

end Herden.Proofs.ChannelAdmission
