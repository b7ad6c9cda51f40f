import Mathlib.Data.List.Basic
import Herden.Lib.Run
import Herden.Glasses.Renderer

/-!
# `Herden.Proofs.Renderer`: when the last frame wins

A renderer that has come to rest shows the desired frame (`Inv.lens_of_quiet`). That is so after any
timeouts: a late write of an older frame is followed by another write of the newest one, and
`Repaired` says what is still to come as long as the lens is behind.

The desired frame is not always the one requested last. With no drain active, `request` drops a frame
that equals the last one written in time. If a write of another frame has timed out since, that
other frame stays desired: it may be on the lens already or reach it later, and its end asserts
nothing, because nothing newer was noted. `late_frame_lights_blank_lens` is such a run: the lens
goes dark, a frame times out, the second blank request is dropped, and the late frame lights the
lens. Without such a request the last frame wins (`reachable_lastFrameWins`).
-/

namespace Herden.Proofs.Renderer

open Herden.Lib (Reachable runAll guarded)
open Herden.Glasses.Renderer
open Herden.Glasses.Renderer.LatestFrameRenderer (Op)

variable {Frame : Type} {s t : LatestFrameRenderer Frame}

/-! ### Revisions -/

/-- The revisions: the desired frame has the newest one, and a write of the newest revision is a
write of the desired frame. -/
structure Core (s : LatestFrameRenderer Frame) : Prop where
  fresh : s.desired = none → s.revision = 0
  newest : ∀ desired, s.desired = some desired → desired.revision = s.revision
  writes_le : ∀ write ∈ s.writes, write.revision ≤ s.revision
  frames : ∀ desired, s.desired = some desired → ∀ write ∈ s.writes,
    write.revision = desired.revision → write.frame = desired.frame
  attempted_le : s.attemptedRevision ≤ s.revision
  effected : ∀ write ∈ s.writes, write.resolved = true → write.effected = true

/-- No drain waits for a write. -/
def Free (s : LatestFrameRenderer Frame) : Prop :=
  ∀ write ∈ s.writes, write.resolved = true ∨ write.late = true

/-- The newest revision has been attempted when no drain is active, and a write that is neither
through nor given up is the one the drain waits for. -/
structure Base (s : LatestFrameRenderer Frame) : Prop extends Core s where
  idle : s.active = none → s.attemptedRevision = s.revision
  awaited : ∀ (index : Nat) (write : Write Frame), s.writes[index]? = some write →
    write.resolved = false → write.late = false →
      s.active.bind Drain.awaits = some index ∧ write.revision = s.attemptedRevision

/-- The lens shows the desired frame, or something is still to come that puts it there: an attempt,
a write of it that has not painted yet, or the end of a late write of an older frame. -/
def Repaired (s : LatestFrameRenderer Frame) : Prop :=
  ∀ desired, s.desired = some desired → s.lens = some desired.frame ∨
    (s.active.isSome = true ∧ s.attemptedRevision < s.revision) ∨
    (∃ write ∈ s.writes, write.revision = s.revision ∧ write.effected = false) ∨
    ∃ write ∈ s.writes, write.late = true ∧ write.resolved = false ∧ write.revision < s.revision

/-- What every step keeps. -/
structure Inv (s : LatestFrameRenderer Frame) : Prop where
  base : Base s
  repaired : Repaired s

theorem Inv.new : Inv (LatestFrameRenderer.new : LatestFrameRenderer Frame) where
  base :=
    { fresh := fun _ => rfl
      newest := fun desired h => by cases h
      writes_le := by simp [LatestFrameRenderer.new]
      frames := fun desired h => by cases h
      attempted_le := le_rfl
      effected := by simp [LatestFrameRenderer.new]
      idle := fun _ => rfl
      awaited := by simp [LatestFrameRenderer.new] }
  repaired := fun desired h => by cases h

/-- The lens, the rendered frame and the last request do not matter to the revisions. -/
theorem Base.of_eq (h : Base s) (hdesired : t.desired = s.desired)
    (hrevision : t.revision = s.revision) (hattempted : t.attemptedRevision = s.attemptedRevision)
    (hactive : t.active = s.active) (hwrites : t.writes = s.writes) : Base t := by
  refine ⟨⟨?_, ?_, ?_, ?_, ?_, ?_⟩, ?_, ?_⟩
  · rw [hdesired, hrevision]
    exact h.fresh
  · rw [hdesired, hrevision]
    exact h.newest
  · rw [hwrites, hrevision]
    exact h.writes_le
  · rw [hdesired, hwrites]
    exact h.frames
  · rw [hattempted, hrevision]
    exact h.attempted_le
  · rw [hwrites]
    exact h.effected
  · rw [hactive, hattempted, hrevision]
    exact h.idle
  · rw [hwrites, hactive, hattempted]
    exact h.awaited

theorem Base.free_of_idle (h : Base s) (hidle : s.active.bind Drain.awaits = none) : Free s := by
  intro write hwrite
  obtain ⟨index, hindex⟩ := List.getElem?_of_mem hwrite
  by_contra hnot
  simp only [not_or, Bool.not_eq_true] at hnot
  have hawaited := (h.awaited index write hindex hnot.1 hnot.2).1
  rw [hidle] at hawaited
  cases hawaited

/-! ### Starting a write -/

/-- A write of the desired frame, started when no drain waits for another one. -/
theorem Core.write (h : Core s) (hfree : Free s) {desired : DesiredFrame Frame}
    (hdesired : s.desired = some desired) {place : Nat → Drain}
    (hplace : ∀ index, (place index).awaits = some index) : Inv (s.write desired place) := by
  have hnew := h.newest desired hdesired
  refine ⟨⟨⟨h.fresh, h.newest, ?_, ?_, hnew.le, ?_⟩, fun hnone => (by cases hnone), ?_⟩, ?_⟩
  · intro write hwrite
    rcases List.mem_append.mp hwrite with hold | hlast
    · exact h.writes_le write hold
    · rw [List.mem_singleton.mp hlast]
      exact hnew.le
  · intro other hother write hwrite hrevision
    rcases List.mem_append.mp hwrite with hold | hlast
    · exact h.frames other hother write hold hrevision
    · rw [List.mem_singleton.mp hlast]
      rw [show s.desired = some other from hother] at hdesired
      cases hdesired
      rfl
  · intro write hwrite hresolved
    rcases List.mem_append.mp hwrite with hold | hlast
    · exact h.effected write hold hresolved
    · rw [List.mem_singleton.mp hlast] at hresolved
      cases hresolved
  · intro index write hindex hresolved hlate
    rw [LatestFrameRenderer.write, List.getElem?_append] at hindex
    split at hindex
    · rcases hfree write (List.mem_of_getElem? hindex) with hthrough | hgiven
      · rw [hthrough] at hresolved
        cases hresolved
      · rw [hgiven] at hlate
        cases hlate
    · obtain ⟨hlt, hget⟩ := List.getElem?_eq_some_iff.mp hindex
      rw [List.length_singleton] at hlt
      have hidx : index = s.writes.length := by omega
      subst hidx
      have hwrite : write.revision = desired.revision := by
        simp only [Nat.sub_self, List.getElem_cons_zero] at hget
        rw [← hget]
      exact ⟨hplace _, hwrite⟩
  · intro other hother
    refine .inr (.inr (.inl ⟨_, List.mem_append_right _ (List.mem_singleton.mpr rfl), ?_, rfl⟩))
    exact hnew

/-- A new desired frame is attempted by the active drain, or by a new one. -/
theorem Base.setDesired_start (h : Base s) (frame : Frame) : Inv (s.setDesired frame).start := by
  have hcore : Core (s.setDesired frame) := by
    refine ⟨fun hnone => (by cases hnone), ?_, ?_, ?_, ?_, h.effected⟩
    · intro desired hdesired
      cases hdesired
      rfl
    · exact fun write hwrite => (h.writes_le write hwrite).trans (Nat.le_succ _)
    · intro desired hdesired write hwrite hrevision
      cases hdesired
      have hle := h.writes_le write hwrite
      have : write.revision = s.revision + 1 := hrevision
      omega
    · exact h.attempted_le.trans (Nat.le_succ _)
  unfold LatestFrameRenderer.start
  split
  · rename_i hactive
    refine ⟨⟨hcore, fun hnone => ?_, h.awaited⟩, fun desired hdesired => .inr (.inl ⟨hactive, ?_⟩)⟩
    · rw [hnone] at hactive
      cases hactive
    · exact Nat.lt_succ_of_le h.attempted_le
  · rename_i hactive
    have hidle : s.active = none := Option.not_isSome_iff_eq_none.mp hactive
    have hfree : Free s := h.free_of_idle (by rw [hidle]; rfl)
    exact hcore.write hfree rfl (fun _ => rfl)

/-! ### Moving a write on -/

section SetWrite

variable {index : Nat} {write moved : Write Frame}

variable {other : Write Frame}

theorem mem_setWrite (h : other ∈ (s.setWrite index moved).writes) :
    other = moved ∨ other ∈ s.writes :=
  (List.mem_or_eq_of_mem_set h).symm

theorem getElem?_setWrite {i : Nat} (h : (s.setWrite index moved).writes[i]? = some other) :
    i = index ∧ other = moved ∨ i ≠ index ∧ s.writes[i]? = some other := by
  rw [LatestFrameRenderer.setWrite, List.getElem?_set] at h
  by_cases hi : index = i
  · rw [if_pos hi] at h
    split at h
    · exact .inl ⟨hi.symm, (Option.some.inj h).symm⟩
    · cases h
  · rw [if_neg hi] at h
    exact .inr ⟨fun heq => hi heq.symm, h⟩

/-- A write keeps its revision and frame; it only moves on. -/
structure MovesOn (write moved : Write Frame) : Prop where
  revision : moved.revision = write.revision
  frame : moved.frame = write.frame
  effected : moved.resolved = true → moved.effected = true
  resolved : moved.resolved = false → write.resolved = false
  late : moved.late = false → write.late = false

theorem Base.setWrite (h : Base s) (hindex : s.writes[index]? = some write)
    (hmoves : MovesOn write moved) : Base (s.setWrite index moved) := by
  have hwrite := List.mem_of_getElem? hindex
  refine ⟨⟨h.fresh, h.newest, ?_, ?_, h.attempted_le, ?_⟩, h.idle, ?_⟩
  · intro other hother
    rcases mem_setWrite hother with rfl | hold
    · exact hmoves.revision ▸ h.writes_le write hwrite
    · exact h.writes_le other hold
  · intro desired hdesired other hother hrevision
    rcases mem_setWrite hother with rfl | hold
    · exact hmoves.frame.trans
        (h.frames desired hdesired write hwrite (hmoves.revision.symm.trans hrevision))
    · exact h.frames desired hdesired other hold hrevision
  · intro other hother hresolved
    rcases mem_setWrite hother with rfl | hold
    · exact hmoves.effected hresolved
    · exact h.effected other hold hresolved
  · intro i other hi hresolved hlate
    rcases getElem?_setWrite hi with ⟨rfl, rfl⟩ | ⟨-, hold⟩
    · have hold := h.awaited i write hindex (hmoves.resolved hresolved) (hmoves.late hlate)
      exact ⟨hold.1, hmoves.revision.trans hold.2⟩
    · exact h.awaited i other hold hresolved hlate

/-- The write that the drain waited for is through or given up. -/
theorem Base.free_setWrite (h : Base s)
    (hawaits : s.active.bind Drain.awaits = some index)
    (hmoved : moved.resolved = true ∨ moved.late = true) : Free (s.setWrite index moved) := by
  intro other hother
  obtain ⟨i, hi⟩ := List.getElem?_of_mem hother
  rcases getElem?_setWrite hi with ⟨-, rfl⟩ | ⟨hne, hold⟩
  · exact hmoved
  · by_contra hnot
    simp only [not_or, Bool.not_eq_true] at hnot
    have := (h.awaited i other hold hnot.1 hnot.2).1
    rw [hawaits] at this
    exact hne (Option.some.inj this).symm

end SetWrite

/-- The drain moves on to a place where it waits for no write. -/
theorem Core.setActive (h : Core s) (hfree : Free s) (drain : Drain) :
    Base { s with active := some drain } where
  toCore := ⟨h.fresh, h.newest, h.writes_le, h.frames, h.attempted_le, h.effected⟩
  idle := fun hnone => by cases hnone
  awaited := by
    intro index write hindex hresolved hlate
    rcases hfree write (List.mem_of_getElem? hindex) with hthrough | hgiven
    · rw [hthrough] at hresolved
      cases hresolved
    · rw [hgiven] at hlate
      cases hlate

/-! ### One step -/

theorem Inv.request [DecidableEq Frame] (h : Inv s) (frame : Frame) : Inv (s.request frame) := by
  have hkept : Base { s with lastRequest := some frame } := h.base.of_eq rfl rfl rfl rfl rfl
  unfold LatestFrameRenderer.request
  dsimp only
  split
  · exact ⟨hkept, h.repaired⟩
  · exact hkept.setDesired_start frame

variable {index : Nat}

theorem effect_cases (h : s.effect index = some t) :
    ∃ write, s.writes[index]? = some write ∧ write.effected = false ∧
      t = { s.setWrite index { write with effected := true } with lens := some write.frame } := by
  unfold LatestFrameRenderer.effect at h
  split at h
  · cases h
  · rename_i write hindex
    split at h
    · cases h
    · rename_i heffected
      exact ⟨write, hindex, by simpa using heffected, (Option.some.inj h).symm⟩

/-- Painting an older frame is repaired: by the end of a late write, or by the drain that waits
for it. -/
theorem Inv.effect (h : Inv s) (heffect : s.effect index = some t) : Inv t := by
  obtain ⟨write, hindex, heffected, rfl⟩ := effect_cases heffect
  have hwrite := List.mem_of_getElem? hindex
  have hresolved : write.resolved = false := by
    cases hres : write.resolved with
    | false => rfl
    | true =>
      rw [h.base.effected write hwrite hres] at heffected
      cases heffected
  have hmoves : MovesOn write { write with effected := true } := ⟨rfl, rfl, fun _ => rfl, id, id⟩
  refine ⟨(h.base.setWrite hindex hmoves).of_eq rfl rfl rfl rfl rfl, ?_⟩
  intro desired hdesired
  have hnewest : desired.revision = s.revision := h.base.newest desired hdesired
  have hle := h.base.writes_le write hwrite
  rcases hle.lt_or_eq with hlt | heq
  · have hmem : ({ write with effected := true } : Write Frame)
        ∈ (s.setWrite index { write with effected := true }).writes :=
      List.mem_set (List.getElem?_eq_some_iff.mp hindex).1 _
    rcases Bool.eq_false_or_eq_true write.late with hlate | hlate
    · exact .inr (.inr (.inr ⟨_, hmem, hlate, hresolved, hlt⟩))
    · obtain ⟨hawaits, hattempted⟩ := h.base.awaited index write hindex hresolved hlate
      obtain ⟨drain, hactive, -⟩ := Option.bind_eq_some_iff.mp hawaits
      exact .inr (.inl ⟨Option.isSome_iff_exists.mpr ⟨drain, hactive⟩,
        show s.attemptedRevision < s.revision by omega⟩)
  · refine .inl ?_
    exact congrArg some (h.base.frames desired hdesired write hwrite (heq.trans hnewest.symm))

/-- A write that is through or given up repairs nothing that another one does not, unless it is
late, unresolved and of an older frame. -/
theorem Repaired.setWrite (h : Repaired s) {write moved : Write Frame}
    (hindex : s.writes[index]? = some write) (hrevision : moved.revision = write.revision)
    (heffected : moved.effected = write.effected)
    (hlate : write.late = true → write.resolved = false → write.revision < s.revision →
      moved.late = true ∧ moved.resolved = false) : Repaired (s.setWrite index moved) := by
  have hmem : moved ∈ (s.setWrite index moved).writes :=
    List.mem_set (List.getElem?_eq_some_iff.mp hindex).1 _
  have hkept : ∀ other ∈ s.writes, other = write ∨ other ∈ (s.setWrite index moved).writes := by
    intro other hother
    obtain ⟨i, hi⟩ := List.getElem?_of_mem hother
    by_cases heq : i = index
    · subst heq
      rw [hindex] at hi
      exact .inl (Option.some.inj hi).symm
    · refine .inr (List.mem_of_getElem? (i := i) ?_)
      rw [LatestFrameRenderer.setWrite, List.getElem?_set_ne (fun h => heq h.symm)]
      exact hi
  intro desired hdesired
  rcases h desired hdesired with hlens | hattempt | ⟨other, hother, hnewest, hunpainted⟩ |
    ⟨other, hother, hgiven, hopen, holder⟩
  · exact .inl hlens
  · exact .inr (.inl hattempt)
  · refine .inr (.inr (.inl ?_))
    rcases hkept other hother with rfl | hstays
    · exact ⟨moved, hmem, hrevision.trans hnewest, heffected.trans hunpainted⟩
    · exact ⟨other, hstays, hnewest, hunpainted⟩
  · refine .inr (.inr (.inr ?_))
    rcases hkept other hother with rfl | hstays
    · obtain ⟨hmovedLate, hmovedOpen⟩ := hlate hgiven hopen holder
      exact ⟨moved, hmem, hmovedLate, hmovedOpen, hrevision ▸ holder⟩
    · exact ⟨other, hstays, hgiven, hopen, holder⟩

/-- The drain that waits for a write stops waiting. Whatever was to come is still to come. -/
theorem Repaired.setActive (h : Repaired s) (drain : Drain) :
    Repaired { s with active := some drain } := by
  intro desired hdesired
  rcases h desired hdesired with hlens | hattempt | hrest
  · exact .inl hlens
  · exact .inr (.inl ⟨rfl, hattempt.2⟩)
  · exact .inr (.inr hrest)

theorem resolve_cases (h : s.resolve index = some t) :
    ∃ write, s.writes[index]? = some write ∧ write.effected = true ∧ write.resolved = false ∧
      (write.late = true ∧
        t = (s.setWrite index { write with resolved := true }).reassertAfterLateWrite
          write.revision ∨
      write.late = false ∧ s.active.bind Drain.awaits = some index ∧
        ((∃ retried, s.active = some (.retry retried)) ∧
          t = { s.setWrite index { write with resolved := true } with
                rendered := some write.frame, active := some .ended } ∨
        t = LatestFrameRenderer.loop { s.setWrite index { write with resolved := true } with
              rendered := some write.frame } write.revision)) := by
  unfold LatestFrameRenderer.resolve at h
  split at h
  · cases h
  · rename_i write hindex
    split at h
    · rename_i hopen
      simp only [Bool.and_eq_true, Bool.not_eq_true'] at hopen
      refine ⟨write, hindex, hopen.1, hopen.2, ?_⟩
      dsimp only at h
      split at h
      · rename_i hlate
        exact .inl ⟨hlate, (Option.some.inj h).symm⟩
      · rename_i hlate
        split at h
        · rename_i hawaits
          refine .inr ⟨by simpa using hlate, hawaits, ?_⟩
          split at h
          · rename_i retried hactive
            exact .inl ⟨⟨retried, hactive⟩, (Option.some.inj h).symm⟩
          · exact .inr (Option.some.inj h).symm
        · cases h
    · cases h

theorem Inv.reassert (hbase : Base s) {stale : Nat} (hrepaired : s.revision ≤ stale → Repaired s) :
    Inv (s.reassertAfterLateWrite stale) := by
  unfold LatestFrameRenderer.reassertAfterLateWrite
  split
  · rename_i hnone
    exact ⟨hbase, fun desired hdesired => by rw [hnone] at hdesired; cases hdesired⟩
  · rename_i latest hlatest
    have hnewest := hbase.newest latest hlatest
    split
    · rename_i hle
      exact ⟨hbase, hrepaired (hnewest ▸ hle)⟩
    · exact hbase.setDesired_start latest.frame

theorem Inv.loop (hcore : Core s) (hfree : Free s) {revision : Nat}
    (hrepaired : s.revision ≤ revision → Repaired s) : Inv (s.loop revision) := by
  unfold LatestFrameRenderer.loop
  split
  · rename_i hnone
    refine ⟨hcore.setActive hfree .ended, fun desired hdesired => ?_⟩
    rw [show s.desired = some desired from hdesired] at hnone
    cases hnone
  · rename_i desired hdesired
    have hnewest := hcore.newest desired hdesired
    split
    · exact hcore.write hfree hdesired (fun _ => rfl)
    · rename_i hle
      exact ⟨hcore.setActive hfree .ended, (hrepaired (by omega)).setActive .ended⟩

theorem Inv.resolve (h : Inv s) (hresolve : s.resolve index = some t) : Inv t := by
  obtain ⟨write, hindex, heffected, hopen, hcases⟩ := resolve_cases hresolve
  have hmoves : MovesOn write { write with resolved := true } :=
    ⟨rfl, rfl, fun _ => heffected, fun hfalse => (by cases hfalse), id⟩
  have hbase := h.base.setWrite hindex hmoves
  rcases hcases with ⟨hlate, rfl⟩ | ⟨hlate, hawaits, hcases⟩
  · -- a late write of the newest frame has repaired nothing but itself
    refine Inv.reassert hbase fun hle => h.repaired.setWrite hindex rfl rfl ?_
    intro _ _ holder
    have : s.revision ≤ write.revision := hle
    omega
  · have hfree : Free (s.setWrite index { write with resolved := true }) :=
      h.base.free_setWrite hawaits (.inl rfl)
    have hrepaired : Repaired (s.setWrite index { write with resolved := true }) := by
      refine h.repaired.setWrite hindex rfl rfl fun hgiven => ?_
      rw [hlate] at hgiven
      cases hgiven
    rcases hcases with ⟨-, rfl⟩ | rfl
    · exact ⟨(hbase.toCore.setActive hfree .ended).of_eq rfl rfl rfl rfl rfl,
        hrepaired.setActive .ended⟩
    · refine Inv.loop ?_ ?_ (fun _ => ?_)
      · apply Base.toCore
        exact hbase.of_eq rfl rfl rfl rfl rfl
      · exact hfree
      · exact hrepaired

variable {rebuild : Bool}

theorem timeout_cases (h : s.timeout rebuild = some t) :
    ∃ index write drain, s.active.bind Drain.awaits = some index ∧
      s.writes[index]? = some write ∧
      t = { s.setWrite index { write with late := true } with active := some drain } := by
  unfold LatestFrameRenderer.timeout at h
  split at h
  · cases h
  · rename_i drain hactive
    split at h
    · cases h
    · rename_i index hawaits
      split at h
      · cases h
      · rename_i write hindex
        have hbind : s.active.bind Drain.awaits = some index := by rw [hactive]; exact hawaits
        dsimp only at h
        split at h
        · split at h
          · exact ⟨index, write, _, hbind, hindex, (Option.some.inj h).symm⟩
          · exact ⟨index, write, _, hbind, hindex, (Option.some.inj h).symm⟩
        · exact ⟨index, write, _, hbind, hindex, (Option.some.inj h).symm⟩

theorem Inv.timeout (h : Inv s) (htimeout : s.timeout rebuild = some t) : Inv t := by
  obtain ⟨index, write, drain, hawaits, hindex, rfl⟩ := timeout_cases htimeout
  have hwrite := List.mem_of_getElem? hindex
  have hmoves : MovesOn write { write with late := true } :=
    ⟨rfl, rfl, h.base.effected write hwrite, id, fun hfalse => (by cases hfalse)⟩
  have hfree : Free (s.setWrite index { write with late := true }) :=
    h.base.free_setWrite hawaits (.inr rfl)
  refine ⟨(h.base.setWrite hindex hmoves).toCore.setActive hfree drain, ?_⟩
  refine Repaired.setActive ?_ drain
  exact h.repaired.setWrite hindex rfl rfl (fun _ hopen _ => ⟨rfl, hopen⟩)

theorem Inv.rebuilt (h : Inv s) (hrebuilt : s.rebuilt = some t) : Inv t := by
  unfold LatestFrameRenderer.rebuilt at hrebuilt
  split at hrebuilt
  · rename_i hactive
    have hfree := h.base.free_of_idle (by rw [hactive]; rfl)
    split at hrebuilt
    · cases hrebuilt
      exact ⟨h.base.toCore.setActive hfree .ended, h.repaired.setActive .ended⟩
    · rename_i desired hdesired
      cases hrebuilt
      exact h.base.toCore.write hfree hdesired (fun _ => rfl)
  · cases hrebuilt

/-- When a drain has ended with nothing newer to attempt, the newest revision was attempted. -/
theorem Inv.finish (h : Inv s) (hfinish : s.finish = some t) : Inv t := by
  unfold LatestFrameRenderer.finish at hfinish
  split at hfinish
  · rename_i hactive
    have hfree := h.base.free_of_idle (by rw [hactive]; rfl)
    have hcore : Core { s with active := none } :=
      ⟨h.base.fresh, h.base.newest, h.base.writes_le, h.base.frames, h.base.attempted_le,
        h.base.effected⟩
    dsimp only at hfinish
    split at hfinish
    · rename_i hnewer
      cases hfinish
      obtain ⟨desired, hdesired, -⟩ := (Option.any_eq_true _ _).mp hnewer
      have hdesired' : s.desired = some desired := hdesired
      have hstart : LatestFrameRenderer.start { s with active := none }
          = LatestFrameRenderer.write { s with active := none } desired .first := by
        simp [LatestFrameRenderer.start, hdesired']
      rw [hstart]
      exact hcore.write hfree hdesired (fun _ => rfl)
    · rename_i hnone
      cases hfinish
      have hattempted : s.attemptedRevision = s.revision := by
        have hle := h.base.attempted_le
        cases hdesired : s.desired with
        | none =>
          have := h.base.fresh hdesired
          omega
        | some desired =>
          have hnewest := h.base.newest desired hdesired
          rw [hdesired] at hnone
          simp only [Option.any_some, decide_eq_true_eq, gt_iff_lt, not_lt] at hnone
          omega
      refine ⟨⟨hcore, fun _ => hattempted, ?_⟩, ?_⟩
      · intro index write hindex hresolved hlate
        have hold := h.base.awaited index write hindex hresolved hlate
        rw [hactive] at hold
        cases hold.1
      · intro desired hdesired
        rcases h.repaired desired hdesired with hlens | ⟨-, hlt⟩ | hrest
        · exact .inl hlens
        · omega
        · exact .inr (.inr hrest)
  · cases hfinish

/-! ### The run -/

theorem Inv.step [DecidableEq Frame] {rebuild : Bool} {op : Op Frame} (h : Inv s)
    (hstep : s.step rebuild op = some t) : Inv t := by
  cases op with
  | request frame =>
    cases hstep
    exact h.request frame
  | effect index => exact h.effect hstep
  | resolve index => exact h.resolve hstep
  | timeout => exact h.timeout hstep
  | rebuilt => exact h.rebuilt hstep
  | finish => exact h.finish hstep

/-- No drain is active and no write is outstanding. -/
def Quiet (s : LatestFrameRenderer Frame) : Prop :=
  s.active = none ∧ ∀ write ∈ s.writes, write.resolved = true

instance (s : LatestFrameRenderer Frame) : Decidable (Quiet s) :=
  inferInstanceAs (Decidable (s.active = none ∧ ∀ write ∈ s.writes, write.resolved = true))

/-- A quiet renderer shows the desired frame, even after timeouts. -/
theorem Inv.lens_of_quiet (h : Inv s) (hquiet : Quiet s) {desired : DesiredFrame Frame}
    (hdesired : s.desired = some desired) : s.lens = some desired.frame := by
  obtain ⟨hactive, hresolved⟩ := hquiet
  rcases h.repaired desired hdesired with hlens | ⟨hsome, -⟩ | ⟨write, hwrite, -, hunpainted⟩ |
    ⟨write, hwrite, -, hopen, -⟩
  · exact hlens
  · rw [hactive] at hsome
    cases hsome
  · rw [h.base.effected write hwrite (hresolved write hwrite)] at hunpainted
    cases hunpainted
  · rw [hresolved write hwrite] at hopen
    cases hopen

/-- The request is not dropped in favour of another frame: it is no call, with no drain active, for
the frame last written in time after a write of another frame has timed out. -/
def NotDropped (s : LatestFrameRenderer Frame) : Op Frame → Prop
  | .request frame => s.active = none → s.rendered = some frame →
      s.desired.map (·.frame) = some frame
  | _ => True

/-- The desired frame is the one requested last. -/
def Wanted (s : LatestFrameRenderer Frame) : Prop := s.desired.map (·.frame) = s.lastRequest

/-- The frames a step does not touch unless it is a request. -/
def SameFrame (s t : LatestFrameRenderer Frame) : Prop :=
  t.desired.map (·.frame) = s.desired.map (·.frame) ∧ t.lastRequest = s.lastRequest

theorem sameFrame_start (s : LatestFrameRenderer Frame) : SameFrame s s.start := by
  unfold LatestFrameRenderer.start
  split
  · exact ⟨rfl, rfl⟩
  · split
    · exact ⟨rfl, rfl⟩
    · exact ⟨rfl, rfl⟩

theorem sameFrame_reassert (s : LatestFrameRenderer Frame) (stale : Nat) :
    SameFrame s (s.reassertAfterLateWrite stale) := by
  unfold LatestFrameRenderer.reassertAfterLateWrite
  split
  · exact ⟨rfl, rfl⟩
  · rename_i latest hlatest
    split
    · exact ⟨rfl, rfl⟩
    · obtain ⟨hframe, hrequest⟩ := sameFrame_start (s.setDesired latest.frame)
      refine ⟨hframe.trans ?_, hrequest⟩
      rw [hlatest]
      rfl

theorem sameFrame_loop (s : LatestFrameRenderer Frame) (revision : Nat) :
    SameFrame s (s.loop revision) := by
  unfold LatestFrameRenderer.loop
  split
  · exact ⟨rfl, rfl⟩
  · split
    · exact ⟨rfl, rfl⟩
    · exact ⟨rfl, rfl⟩

theorem sameFrame_finish (hfinish : s.finish = some t) : SameFrame s t := by
  unfold LatestFrameRenderer.finish at hfinish
  split at hfinish
  · dsimp only at hfinish
    split at hfinish
    · cases hfinish
      exact sameFrame_start { s with active := none }
    · cases hfinish
      exact ⟨rfl, rfl⟩
  · cases hfinish

theorem sameFrame_rebuilt (hrebuilt : s.rebuilt = some t) : SameFrame s t := by
  unfold LatestFrameRenderer.rebuilt at hrebuilt
  split at hrebuilt
  · split at hrebuilt
    · cases hrebuilt
      exact ⟨rfl, rfl⟩
    · cases hrebuilt
      exact ⟨rfl, rfl⟩
  · cases hrebuilt

theorem wanted_request [DecidableEq Frame] {frame : Frame}
    (hallowed : NotDropped s (.request frame)) : Wanted (s.request frame) := by
  unfold LatestFrameRenderer.request
  dsimp only
  split
  · rename_i hskips
    simp only [LatestFrameRenderer.skips, Bool.or_eq_true, Bool.and_eq_true, decide_eq_true_eq,
      Option.isNone_iff_eq_none] at hskips
    -- a duplicate of the desired frame, or of the rendered one
    rcases hskips with ⟨-, hdesired⟩ | ⟨hactive, hrendered⟩
    · obtain ⟨desired, hsome, hframe⟩ := (Option.any_eq_true _ _).mp hdesired
      show s.desired.map (·.frame) = some frame
      rw [hsome, Option.map_some, of_decide_eq_true hframe]
    · exact hallowed hactive hrendered
  · obtain ⟨hframe, hrequest⟩ := sameFrame_start
      ({ s with lastRequest := some frame }.setDesired frame)
    exact hframe.trans hrequest.symm

theorem Wanted.step [DecidableEq Frame] {rebuild : Bool} {op : Op Frame} (h : Wanted s)
    (hallowed : NotDropped s op) (hstep : s.step rebuild op = some t) : Wanted t := by
  have hsame : SameFrame s t → Wanted t := fun hsame => hsame.1.trans (h.trans hsame.2.symm)
  cases op with
  | request frame =>
    cases hstep
    exact wanted_request hallowed
  | effect index =>
    obtain ⟨write, -, -, rfl⟩ := effect_cases hstep
    exact hsame ⟨rfl, rfl⟩
  | resolve index =>
    obtain ⟨write, -, -, -, hcases⟩ := resolve_cases hstep
    rcases hcases with ⟨-, rfl⟩ | ⟨-, -, ⟨-, rfl⟩ | rfl⟩
    · exact hsame (sameFrame_reassert (s.setWrite index _) write.revision)
    · exact hsame ⟨rfl, rfl⟩
    · exact hsame (sameFrame_loop { s.setWrite index _ with rendered := _ } write.revision)
  | timeout =>
    obtain ⟨index, write, drain, -, -, rfl⟩ := timeout_cases hstep
    exact hsame ⟨rfl, rfl⟩
  | rebuilt => exact hsame (sameFrame_rebuilt hstep)
  | finish => exact hsame (sameFrame_finish hstep)

/-- In every run in which no request is dropped in favour of another frame, a quiet renderer shows
the frame requested last, whatever timed out and painted late. -/
theorem reachable_lastFrameWins [DecidableEq Frame] {rebuild : Bool}
    (h : Reachable (· = LatestFrameRenderer.new) NotDropped (LatestFrameRenderer.machine rebuild) s)
    (hquiet : Quiet s) {frame : Frame} (hrequest : s.lastRequest = some frame) :
    s.lens = some frame := by
  have hinv : Inv s ∧ Wanted s := by
    refine h.invariant (fun s => Inv s ∧ Wanted s) ?_ ?_
    · rintro s rfl
      exact ⟨.new, rfl⟩
    · intro s op t answer hallowed hstep hkept
      obtain ⟨next, hnext, heq⟩ := Option.map_eq_some_iff.mp hstep
      cases heq
      exact ⟨hkept.1.step hnext, hkept.2.step hallowed hnext⟩
  obtain ⟨desired, hdesired, hframe⟩ := Option.map_eq_some_iff.mp (hinv.2.trans hrequest)
  rw [hinv.1.lens_of_quiet hquiet hdesired, hframe]

/-- The test of `NotDropped`. -/
def notDropped (s : LatestFrameRenderer String) : Op String → Bool
  | .request frame => s.active.isSome || s.rendered ≠ some frame ||
      s.desired.map (·.frame) = some frame
  | _ => true

theorem notDropped_of_test (s : LatestFrameRenderer String) (op : Op String)
    (h : notDropped s op = true) : NotDropped s op := by
  cases op with
  | request frame =>
    intro hactive hrendered
    simpa [notDropped, hactive, hrendered] using h
  | effect _ => trivial
  | resolve _ => trivial
  | timeout => trivial
  | rebuilt => trivial
  | finish => trivial

/-- A blank request overtakes a frame that times out, is written, and is asserted again after the
late frame has painted the lens. -/
theorem reachable_lastFrameWins_late_write :
    ∃ s : LatestFrameRenderer String, s.lens = some "" ∧ s.writes.map (·.late)
      = [true, false, false] := by
  have hrun : (runAll (guarded notDropped (LatestFrameRenderer.machine false)) .new
      [.request "agents", .request "", .timeout, .finish, .effect 1, .resolve 1, .finish,
        .effect 0, .resolve 0, .effect 2, .resolve 2, .finish]).any
      (fun s => decide (Quiet s ∧ s.lastRequest = some "" ∧ s.writes.map (·.late) =
          [true, false, false])) = true := by
    decide +kernel
  obtain ⟨s, hsome, hends⟩ := (Option.any_eq_true _ _).mp hrun
  obtain ⟨hquiet, hrequest, hwrites⟩ := of_decide_eq_true hends
  exact ⟨s, reachable_lastFrameWins (Reachable.runAll notDropped_of_test (.start rfl) hsome) hquiet
    hrequest, hwrites⟩

/-- The lens is blank, a frame times out, and the blank request that follows is dropped because the
blank frame was the last one written in time. Then the late frame lights the lens. No write of the
blank frame timed out. -/
theorem late_frame_lights_blank_lens :
    ∃ s, Reachable (· = LatestFrameRenderer.new) (fun _ _ => True)
        (LatestFrameRenderer.machine false) s ∧ Quiet s ∧ s.lastRequest = some "" ∧
      (∀ write ∈ s.writes, write.frame = "" → write.late = false) ∧
      s.lens = some "agents" := by
  have hrun : (runAll (guarded (fun _ _ => true) (LatestFrameRenderer.machine false)) .new
      [.request "", .effect 0, .resolve 0, .finish, .request "agents", .timeout, .finish,
        .request "", .effect 1, .resolve 1]).any
      (fun s => decide (Quiet s ∧ s.lastRequest = some "" ∧
          (∀ write ∈ s.writes, write.frame = "" → write.late = false) ∧
        s.lens = some "agents")) = true := by
    decide +kernel
  obtain ⟨s, hsome, hends⟩ := (Option.any_eq_true _ _).mp hrun
  exact ⟨s, Reachable.runAll (fun _ _ _ => trivial) (.start rfl) hsome, of_decide_eq_true hends⟩

end Herden.Proofs.Renderer
