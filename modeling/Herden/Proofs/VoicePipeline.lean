import Mathlib.Data.List.Nodup
import Mathlib.Data.List.Pairwise
import Herden.Lib.Run
import Herden.Glasses.VoicePipeline

/-!
# `Herden.Proofs.VoicePipeline`: voice work keeps its order and dies with its session

`reachable_orderedWork` is about every run of the pipeline: every order of `start`, `stop`,
`enqueue`, settlements and reactions, with callbacks that call back into the queue as they like.

The links of one generation form one chain (`Chained`), because whatever empties `#queue` also opens
a new generation. A link takes its turn when the one before it is finished, so by the chain all
earlier ones of its session are (`Inv.finished_of_ready`). Old links keep settling after a stop;
their `finally` finds another generation and leaves the counter alone.

Two things are less sharp than they look. The counter is corrected by a reaction to the settlement,
not by the settlement, so it counts what is not `finished`; once the reactions have run these are
the utterances whose run has not settled. And `execute` follows `onResolved` without another look
at the session: it is passed the session to look for itself. A callback that stops the session
inside `onResolved` is followed by an `execute` of a session that is over.
-/

namespace Herden.Proofs.VoicePipeline

open Herden.Lib (Reachable runAll guarded)
open Herden.Glasses.VoicePipeline
open Herden.Glasses.VoicePipeline.State (Op)

variable {Frames : Type}

/-! ### The generations of the links -/

/-- The generation of every link, in enqueue order. -/
def generations (s : State Frames) : List Nat := s.links.map (·.generation)

variable {index : Nat} {s t : State Frames}

variable {link : Link Frames}

theorem generations_getElem? (h : s.links[index]? = some link) :
    (generations s)[index]? = some link.generation := by
  rw [generations, List.getElem?_map, h]
  rfl

/-- `previous` is the last position below `bound` that holds `generation`. -/
def LastOf (generations : List Nat) (bound generation : Nat) (previous : Option Nat) : Prop :=
  match previous with
  | none => ∀ i, i < bound → generations[i]? ≠ some generation
  | some last => last < bound ∧ generations[last]? = some generation ∧
      ∀ i, last < i → i < bound → generations[i]? ≠ some generation

/-- A later link does not change what came before. -/
theorem LastOf.append {generations : List Nat} {bound generation : Nat} {previous : Option Nat}
    (h : LastOf generations bound generation previous) (hbound : bound ≤ generations.length)
    (later : Nat) : LastOf (generations ++ [later]) bound generation previous := by
  have hkeep : ∀ i, i < bound → (generations ++ [later])[i]? = generations[i]? :=
    fun i hi => List.getElem?_append_left (hi.trans_le hbound)
  cases previous with
  | none =>
    intro i hi
    rw [hkeep i hi]
    exact h i hi
  | some last =>
    obtain ⟨hlast, hgen, hafter⟩ := h
    refine ⟨hlast, by rw [hkeep last hlast]; exact hgen, fun i hlow hi => ?_⟩
    rw [hkeep i hi]
    exact hafter i hlow hi

/-- The new last link is the last one of its generation. -/
theorem LastOf.new (generations : List Nat) (generation : Nat) :
    LastOf (generations ++ [generation]) (generations.length + 1) generation
      (some generations.length) := by
  refine ⟨by omega, by simp, fun i hlow hi => ?_⟩
  omega

/-! ### The invariant -/

/-- The link counts for `pending`: it is of the current generation and its `finally` has not run. -/
def counts (queue : OrderedVoiceQueue) (link : Link Frames) : Bool :=
  link.generation == queue.generation && link.phase ≠ .finished

/-- The links of one generation form one chain, in enqueue order, and `tail` is the end of the
current one. -/
structure Chained (s : State Frames) : Prop where
  generation_le : ∀ g ∈ generations s, g ≤ s.queue.generation
  previous : ∀ index link, s.links[index]? = some link →
    LastOf (generations s) index link.generation link.previous
  tail : LastOf (generations s) s.links.length s.queue.generation s.queue.tail

/-- The invariant of the queue: turns are taken along the chain of a generation, once each, and
`pending` counts what is left of the current one. -/
structure Inv (s : State Frames) : Prop extends Chained s where
  ordered : ∀ (i j : Nat) (li lj : Link Frames), i < j → s.links[i]? = some li → s.links[j]?
      = some lj →
    li.generation = lj.generation → lj.phase ≠ .waiting → li.phase = .finished
  pending : s.queue.pending = s.links.countP (counts s.queue)
  turned : ∀ index, index ∈ s.turns.map (·.1) ↔
    ∃ link, s.links[index]? = some link ∧ link.phase ≠ .waiting
  once : (s.turns.map (·.1)).Nodup
  inOrder : s.turns.Pairwise (fun a b => ∀ g, (generations s)[a.1]? = some g →
    (generations s)[b.1]? = some g → a.1 < b.1)
  runs : s.runs = (s.turns.filter (·.2)).map (·.1)

/-- The chain does not look at anything but the links, the generation and the tail. -/
theorem Chained.of_eq (h : Chained s) (hlinks : t.links = s.links)
    (hgeneration : t.queue.generation = s.queue.generation) (htail : t.queue.tail = s.queue.tail) :
    Chained t := by
  have hgens : generations t = generations s := by rw [generations, generations, hlinks]
  constructor
  · rw [hgens, hgeneration]
    exact h.generation_le
  · rw [hgens, hlinks]
    exact h.previous
  · rw [hgens, hlinks, hgeneration, htail]
    exact h.tail

theorem Inv.start : Inv (State.start : State Frames) where
  generation_le := by simp [generations, State.start]
  previous := by simp [State.start]
  tail := by
    intro i hi
    simp [State.start] at hi
  ordered := by simp [State.start]
  pending := rfl
  turned := by simp [State.start]
  once := List.nodup_nil
  inOrder := List.Pairwise.nil
  runs := rfl

/-! ### Calls on the queue -/

theorem length_generations (s : State Frames) : (generations s).length = s.links.length :=
  List.length_map _

/-- Starting or stopping opens a generation without links. -/
theorem Inv.nextGeneration (h : Inv s) (isOpen : Bool) : Inv { s with
      queue := { generation := s.queue.generation + 1, isOpen := isOpen, pending := 0,
                 tail := none } } where
  generation_le := fun g hg => (h.generation_le g hg).trans (Nat.le_succ _)
  previous := h.previous
  tail := by
    intro i hi hgen
    have hle := h.generation_le _ (List.mem_of_getElem? hgen)
    dsimp only at hle
    omega
  ordered := h.ordered
  pending := by
    symm
    show s.links.countP _ = 0
    rw [List.countP_eq_zero]
    intro link hlink hcounts
    have hle := h.generation_le link.generation (List.mem_map_of_mem hlink)
    simp only [counts, Bool.and_eq_true, beq_iff_eq] at hcounts
    omega
  turned := h.turned
  once := h.once
  inOrder := h.inOrder
  runs := h.runs

section Enqueue

variable {s : State Frames}

theorem generations_enqueue (s : State Frames) (frames : Frames) :
    generations (s.enqueue frames) = generations s ++ [s.queue.generation] := by
  simp [generations, State.enqueue]

variable {index : Nat} {link : Link Frames}

/-- A link after `enqueue`: an old one, or the new one at the end. -/
theorem getElem?_enqueue {frames : Frames} (hlink : (s.enqueue frames).links[index]? = some link) :
    s.links[index]? = some link ∨
      index = s.links.length ∧ link = ⟨frames, s.queue.generation, s.queue.tail, .waiting⟩ := by
  rw [State.enqueue, List.getElem?_append] at hlink
  split at hlink
  · exact .inl hlink
  · rename_i hge
    obtain ⟨hlt, -⟩ := List.getElem?_eq_some_iff.mp hlink
    have hidx : index = s.links.length := by
      rw [List.length_singleton] at hlt
      omega
    subst hidx
    simp only [Nat.sub_self, List.getElem?_cons_zero, Option.some.injEq] at hlink
    exact .inr ⟨rfl, hlink.symm⟩

theorem getElem?_enqueue_of_old (frames : Frames) (hlink : s.links[index]? = some link) :
    (s.enqueue frames).links[index]? = some link := by
  rw [State.enqueue, List.getElem?_append_left (List.getElem?_eq_some_iff.mp hlink).1]
  exact hlink

theorem Chained.enqueue (h : Chained s) (frames : Frames) : Chained (s.enqueue frames) where
  generation_le := by
    intro g hg
    rw [generations_enqueue, List.mem_append, List.mem_singleton] at hg
    rcases hg with hg | rfl
    · exact h.generation_le g hg
    · exact le_rfl
  previous := by
    intro index link hlink
    have hlen := length_generations s
    rw [generations_enqueue]
    rcases getElem?_enqueue hlink with hlink | ⟨rfl, rfl⟩
    · have hlt := (List.getElem?_eq_some_iff.mp hlink).1
      exact (h.previous index link hlink).append (by omega) _
    · exact h.tail.append (by omega) _
  tail := by
    have hnew := LastOf.new (generations s) s.queue.generation
    rw [length_generations] at hnew
    rw [generations_enqueue]
    simpa [State.enqueue] using hnew

theorem Inv.enqueue (h : Inv s) (frames : Frames) : Inv (s.enqueue frames) where
  toChained := h.toChained.enqueue frames
  ordered := by
    intro i j li lj hij hi hj hgen hphase
    rcases getElem?_enqueue hj with hj' | ⟨rfl, rfl⟩
    · rcases getElem?_enqueue hi with hi' | ⟨rfl, -⟩
      · exact h.ordered i j li lj hij hi' hj' hgen hphase
      · have := (List.getElem?_eq_some_iff.mp hj').1
        omega
    · exact absurd rfl hphase
  pending := by
    have hnew : counts s.queue ⟨frames, s.queue.generation, s.queue.tail, .waiting⟩ = true := by
      simp [counts]
    show s.queue.pending + 1 = (s.links ++ [_]).countP (counts s.queue)
    rw [List.countP_append, List.countP_singleton, if_pos hnew, h.pending]
  turned := by
    intro index
    show index ∈ s.turns.map (·.1) ↔ _
    rw [h.turned]
    constructor
    · rintro ⟨link, hlink, hphase⟩
      exact ⟨link, getElem?_enqueue_of_old frames hlink, hphase⟩
    · rintro ⟨link, hlink, hphase⟩
      rcases getElem?_enqueue hlink with hlink | ⟨rfl, rfl⟩
      · exact ⟨link, hlink, hphase⟩
      · exact absurd rfl hphase
  once := h.once
  inOrder := by
    have hbound : ∀ t ∈ s.turns, t.1 < (generations s).length := by
      intro t ht
      obtain ⟨link, hlink, -⟩ := (h.turned t.1).mp (List.mem_map_of_mem ht)
      rw [length_generations]
      exact (List.getElem?_eq_some_iff.mp hlink).1
    refine h.inOrder.imp_of_mem fun {a b} ha hb hlt g hga hgb => ?_
    rw [generations_enqueue, List.getElem?_append_left (hbound a ha)] at hga
    rw [generations_enqueue, List.getElem?_append_left (hbound b hb)] at hgb
    exact hlt g hga hgb
  runs := h.runs

end Enqueue

theorem Inv.queueCall (h : Inv s) (call : QueueCall Frames) : Inv (s.queueCall call) := by
  cases call with
  | start => exact h.nextGeneration true
  | stop => exact h.nextGeneration false
  | enqueue frames => exact h.enqueue frames

theorem Inv.queueCalls (h : Inv s) (calls : List (QueueCall Frames)) :
    Inv (s.queueCalls calls) := by
  induction calls generalizing s with
  | nil => exact h
  | cons call calls ih => exact ih (h.queueCall call)

/-! ### The reactions of a link -/

section Advance

variable {s : State Frames} {index : Nat} {link : Link Frames}

theorem links_setPhase (hlink : s.links[index]? = some link) (phase : Phase) :
    (s.setPhase index phase).links = s.links.set index { link with phase := phase } := by
  apply List.ext_getElem?
  intro i
  rw [State.setPhase, List.getElem?_modify, List.getElem?_set]
  by_cases hi : index = i
  · subst hi
    obtain ⟨hlt, hget⟩ := List.getElem?_eq_some_iff.mp hlink
    simp [hlt, hget]
  · simp [hi]

theorem generations_setPhase (s : State Frames) (index : Nat) (phase : Phase) :
    generations (s.setPhase index phase) = generations s := by
  apply List.ext_getElem?
  intro i
  rw [generations, generations, List.getElem?_map, List.getElem?_map, State.setPhase,
    List.getElem?_modify]
  cases s.links[i]? with
  | none => rfl
  | some link => by_cases hi : index = i <;> simp [hi]

variable {i : Nat} {phase : Phase}

variable {other : Link Frames}

/-- A link after one of them has moved on: the one that moved, or one that did not. -/
theorem getElem?_setPhase (hlink : s.links[index]? = some link)
    (h : (s.setPhase index phase).links[i]? = some other) :
    i = index ∧ other = { link with phase := phase } ∨ i ≠ index ∧ s.links[i]? = some other := by
  rw [links_setPhase hlink, List.getElem?_set] at h
  by_cases hi : index = i
  · rw [if_pos hi] at h
    split at h
    · exact .inl ⟨hi.symm, (Option.some.inj h).symm⟩
    · cases h
  · rw [if_neg hi] at h
    exact .inr ⟨fun heq => hi heq.symm, h⟩

theorem getElem?_setPhase_self (hlink : s.links[index]? = some link) (phase : Phase) :
    (s.setPhase index phase).links[index]? = some { link with phase := phase } := by
  have hlt := (List.getElem?_eq_some_iff.mp hlink).1
  rw [links_setPhase hlink, List.getElem?_set_self hlt]

theorem getElem?_setPhase_of_ne (phase : Phase) (hi : i ≠ index) :
    (s.setPhase index phase).links[i]? = s.links[i]? := by
  rw [State.setPhase, List.getElem?_modify_ne _ _ (fun heq => hi heq.symm)]

/-- What counts for `pending` after one link has moved on. -/
theorem countP_setPhase (hlink : s.links[index]? = some link) (phase : Phase)
    (queue : OrderedVoiceQueue) :
    (s.setPhase index phase).links.countP (counts queue)
      = s.links.countP (counts queue) - (if counts queue link then 1 else 0)
        + (if counts queue { link with phase := phase } then 1 else 0) := by
  obtain ⟨hlt, hget⟩ := List.getElem?_eq_some_iff.mp hlink
  rw [links_setPhase hlink, List.countP_set hlt, hget]

/-- A link that counts as before leaves the count alone. -/
theorem countP_setPhase_of_eq (hlink : s.links[index]? = some link) {queue : OrderedVoiceQueue}
    (hcounts : counts queue { link with phase := phase } = counts queue link) :
    (s.setPhase index phase).links.countP (counts queue) = s.links.countP (counts queue) := by
  rw [countP_setPhase hlink, hcounts]
  split
  · rename_i hcount
    have hpos : 0 < s.links.countP (counts queue) :=
      List.countP_pos_iff.mpr ⟨link, List.mem_of_getElem? hlink, hcount⟩
    omega
  · rfl

theorem Chained.setPhase (h : Chained s) (hlink : s.links[index]? = some link) (phase : Phase) :
    Chained (s.setPhase index phase) where
  generation_le := by
    intro g hg
    rw [generations_setPhase] at hg
    exact h.generation_le g hg
  previous := by
    intro i other hother
    rw [generations_setPhase]
    rcases getElem?_setPhase hlink hother with ⟨rfl, rfl⟩ | ⟨-, hother⟩
    · exact h.previous i link hlink
    · exact h.previous i other hother
  tail := by
    rw [generations_setPhase, State.setPhase, List.length_modify]
    exact h.tail

/-- Moving on a link that was not finished keeps the turns of its generation in order, as long as
those before it are finished. -/
theorem Inv.ordered_setPhase (h : Inv s) (hlink : s.links[index]? = some link)
    (hphase : link.phase ≠ .finished)
    (hbefore : ∀ i li, i < index → s.links[i]? = some li → li.generation = link.generation →
      li.phase = .finished) (phase : Phase) :
    ∀ (i j : Nat) (li lj : Link Frames), i < j →
      (s.setPhase index phase).links[i]? = some li →
      (s.setPhase index phase).links[j]? = some lj →
      li.generation = lj.generation → lj.phase ≠ .waiting → li.phase = .finished := by
  intro i j li lj hij hi hj hgen hbegun
  rcases getElem?_setPhase hlink hi with ⟨rfl, rfl⟩ | ⟨-, hi'⟩
  · rcases getElem?_setPhase hlink hj with ⟨rfl, -⟩ | ⟨-, hj'⟩
    · omega
    · exact absurd (h.ordered i j link lj hij hlink hj' hgen hbegun) hphase
  · rcases getElem?_setPhase hlink hj with ⟨rfl, rfl⟩ | ⟨-, hj'⟩
    · exact hbefore i li hij hi' hgen
    · exact h.ordered i j li lj hij hi' hj' hgen hbegun

/-- The turns taken are those of the links that no longer wait. -/
theorem Inv.turned_setPhase (h : Inv s) (hlink : s.links[index]? = some link)
    (hbegun : link.phase ≠ .waiting) (hphase : phase ≠ .waiting) (i : Nat) : i ∈ s.turns.map (·.1) ↔
      ∃ other, (s.setPhase index phase).links[i]? = some other ∧ other.phase ≠ .waiting := by
  rw [h.turned]
  by_cases hi : i = index
  · subst hi
    rw [getElem?_setPhase_self hlink, hlink]
    simp [hbegun, hphase]
  · rw [getElem?_setPhase_of_ne phase hi]

/-- A run settles, or `finally` runs: a link that has had its turn moves on. -/
theorem Inv.advance (h : Inv s) (hlink : s.links[index]? = some link)
    (hbegun : link.phase ≠ .waiting) (hopen : link.phase ≠ .finished) (hphase : phase ≠ .waiting)
    {pending : Nat} (hpending : pending = (s.setPhase index phase).links.countP (counts s.queue)) :
    Inv { s.setPhase index phase with queue := { s.queue with pending := pending } } where
  toChained := (h.toChained.setPhase hlink phase).of_eq rfl rfl rfl
  ordered := h.ordered_setPhase hlink hopen
    (fun i li hi hli hgen => h.ordered i index li link hi hli hlink hgen hbegun) phase
  pending := hpending
  turned := h.turned_setPhase hlink hbegun hphase
  once := h.once
  inOrder := by
    show s.turns.Pairwise (fun a b => ∀ g,
      (generations (s.setPhase index phase))[a.1]? = some g →
        (generations (s.setPhase index phase))[b.1]? = some g → a.1 < b.1)
    rw [generations_setPhase]
    exact h.inOrder
  runs := h.runs

/-- A link is ready only when every earlier one of its generation is finished. -/
theorem Inv.finished_of_ready (h : Inv s) (hlink : s.links[index]? = some link)
    (hready : s.ready link = true) (hi : i < index) (hother : s.links[i]? = some other)
    (hgen : other.generation = link.generation) : other.phase = .finished := by
  have hprevious := h.previous index link hlink
  have hgenAt : (generations s)[i]? = some link.generation := hgen ▸ generations_getElem? hother
  cases hprev : link.previous with
  | none =>
    rw [hprev] at hprevious
    exact absurd hgenAt (hprevious i hi)
  | some last =>
    rw [hprev] at hprevious
    obtain ⟨hlast, hlastGen, hafter⟩ := hprevious
    simp only [State.ready, hprev, Option.any_eq_true, decide_eq_true_eq] at hready
    obtain ⟨before, hbefore, hfinished⟩ := hready
    rcases Nat.lt_trichotomy i last with hlt | rfl | hgt
    · have hsame : before.generation = link.generation := by
        rw [generations_getElem? hbefore] at hlastGen
        exact Option.some.inj hlastGen
      exact h.ordered i last other before hlt hother hbefore (hgen.trans hsame.symm)
        (by rw [hfinished]; decide)
    · rw [hother] at hbefore
      cases hbefore
      exact hfinished
    · exact absurd hgenAt (hafter i hgt hi)

/-- A turn: the link stops waiting, and its turn is noted. -/
theorem Inv.takeTurn (h : Inv s) (hlink : s.links[index]? = some link)
    (hwaiting : link.phase = .waiting) (hready : s.ready link = true)
    (hphase : phase = .running ∨ phase = .settled) (current : Bool) :
    Inv { s.setPhase index phase with
      turns := s.turns ++ [(index, current)]
      runs := if current then s.runs ++ [index] else s.runs } := by
  have hopen : phase ≠ .waiting ∧ phase ≠ .finished := by
    rcases hphase with rfl | rfl <;> decide
  have hnew : index ∉ s.turns.map (·.1) := by
    rw [h.turned]
    rintro ⟨other, hother, hbegun⟩
    rw [hlink] at hother
    cases hother
    exact hbegun hwaiting
  refine ⟨(h.toChained.setPhase hlink phase).of_eq rfl rfl rfl, ?_, ?_, ?_, ?_, ?_, ?_⟩
  · exact h.ordered_setPhase hlink (by rw [hwaiting]; decide)
      (fun i other hi hother hgen => h.finished_of_ready hlink hready hi hother hgen) phase
  · have hcounts : counts s.queue { link with phase := phase } = counts s.queue link := by
      simp [counts, hwaiting, hopen.2]
    show s.queue.pending = (s.setPhase index phase).links.countP (counts s.queue)
    rw [countP_setPhase_of_eq hlink hcounts, h.pending]
  · intro i
    show i ∈ (s.turns ++ [(index, current)]).map (·.1) ↔ _
    rw [List.map_append, List.mem_append, h.turned]
    by_cases hi : i = index
    · subst hi
      simp [getElem?_setPhase_self hlink, hopen.1]
    · simp [getElem?_setPhase_of_ne phase hi, hi]
  · show ((s.turns ++ [(index, current)]).map (·.1)).Nodup
    rw [List.map_append]
    exact List.nodup_append.mpr ⟨h.once, List.nodup_singleton _, by
      rintro i hi j hj rfl
      have hidx : i = index := by simpa using hj
      exact hnew (hidx ▸ hi)⟩
  · show (s.turns ++ [(index, current)]).Pairwise (fun a b => ∀ g,
      (generations (s.setPhase index phase))[a.1]? = some g →
        (generations (s.setPhase index phase))[b.1]? = some g → a.1 < b.1)
    rw [generations_setPhase]
    refine List.pairwise_append.mpr ⟨h.inOrder, List.pairwise_singleton _ _, ?_⟩
    intro a ha b hb g hga hgb
    rw [List.mem_singleton] at hb
    subst hb
    obtain ⟨other, hother, hbegun⟩ := (h.turned a.1).mp (List.mem_map_of_mem ha)
    rw [generations_getElem? hother] at hga
    rw [generations_getElem? hlink] at hgb
    -- a later link of this generation would not have had its turn yet
    rcases Nat.lt_trichotomy a.1 index with hlt | heq | hgt
    · exact hlt
    · exact absurd (heq ▸ List.mem_map_of_mem ha) hnew
    · have hgen : link.generation = other.generation :=
        Option.some.inj (hgb.trans hga.symm)
      have := h.ordered index a.1 link other hgt hlink hother hgen hbegun
      rw [hwaiting] at this
      cases this
  · show (if current then s.runs ++ [index] else s.runs)
      = ((s.turns ++ [(index, current)]).filter (·.2)).map (·.1)
    cases current <;> simp [h.runs]

end Advance

/-! ### One step -/

theorem turn_cases (h : s.turn index = some t) :
    ∃ link, s.links[index]? = some link ∧ link.phase = .waiting ∧ s.ready link = true ∧
      t = { s.setPhase index
              (if s.queue.isCurrent link.generation then .running else .settled) with
            turns := s.turns ++ [(index, s.queue.isCurrent link.generation)]
            runs := if s.queue.isCurrent link.generation then s.runs ++ [index]
              else s.runs } := by
  unfold State.turn at h
  split at h
  · cases h
  · rename_i link hlink
    split at h
    · rename_i hready
      refine ⟨link, hlink, hready.1, hready.2, ?_⟩
      cases hcurrent : s.queue.isCurrent link.generation with
      | true =>
        simp only [hcurrent, if_true, Option.some.injEq] at h
        exact h.symm
      | false =>
        simp only [hcurrent, Bool.false_eq_true, if_false, Option.some.injEq] at h
        exact h.symm
    · cases h

theorem settle_cases (h : s.settle index = some t) :
    ∃ link, s.links[index]? = some link ∧ link.phase = .running ∧
      t = s.setPhase index .settled := by
  unfold State.settle at h
  split at h
  · cases h
  · rename_i link hlink
    split at h
    · rename_i hrunning
      exact ⟨link, hlink, hrunning, (Option.some.inj h).symm⟩
    · cases h

theorem finally_cases (h : s.finally_ index = some t) :
    ∃ link, s.links[index]? = some link ∧ link.phase = .settled ∧
      t = { s.setPhase index .finished with
            queue := { s.queue with
              pending := if link.generation = s.queue.generation then s.queue.pending - 1
                else s.queue.pending } } := by
  unfold State.finally_ at h
  split at h
  · cases h
  · rename_i link hlink
    split at h
    · rename_i hsettled
      refine ⟨link, hlink, hsettled, ?_⟩
      dsimp only at h
      split at h
      · rename_i hgen
        rw [if_pos (show link.generation = s.queue.generation from hgen)]
        exact (Option.some.inj h).symm
      · rename_i hgen
        rw [if_neg (show ¬ link.generation = s.queue.generation from hgen)]
        exact (Option.some.inj h).symm
    · cases h

theorem Inv.turn (h : Inv s) (hturn : s.turn index = some t) : Inv t := by
  obtain ⟨link, hlink, hwaiting, hready, rfl⟩ := turn_cases hturn
  refine h.takeTurn hlink hwaiting hready ?_ _
  cases s.queue.isCurrent link.generation with
  | true => exact .inl rfl
  | false => exact .inr rfl

theorem Inv.settle (h : Inv s) (hsettle : s.settle index = some t) : Inv t := by
  obtain ⟨link, hlink, hrunning, rfl⟩ := settle_cases hsettle
  have hcounts : counts s.queue { link with phase := .settled } = counts s.queue link := by
    simp [counts, hrunning]
  refine h.advance hlink (by rw [hrunning]; decide) (by rw [hrunning]; decide)
    (show Phase.settled ≠ .waiting by decide) ?_
  rw [countP_setPhase_of_eq hlink hcounts, h.pending]

theorem Inv.finally_ (h : Inv s) (hfinally : s.finally_ index = some t) : Inv t := by
  obtain ⟨link, hlink, hsettled, rfl⟩ := finally_cases hfinally
  have hdone : counts s.queue { link with phase := .finished } = false := by simp [counts]
  refine h.advance hlink (by rw [hsettled]; decide) (by rw [hsettled]; decide) (by decide) ?_
  rw [countP_setPhase hlink, hdone, ← h.pending]
  -- only a link of the current generation was counted
  split
  · rename_i hgen
    have hcount : counts s.queue link = true := by simp [counts, hgen, hsettled]
    rw [if_pos hcount]
    rfl
  · rename_i hgen
    have hcount : counts s.queue link = false := by simp [counts, hgen]
    rw [hcount]
    rfl

/-! ### The callbacks -/

theorem Inv.of_eq (h : Inv s) (hqueue : t.queue = s.queue) (hlinks : t.links = s.links)
    (hturns : t.turns = s.turns) (hruns : t.runs = s.runs) : Inv t := by
  have hgens : generations t = generations s := by rw [generations, generations, hlinks]
  constructor
  · exact h.toChained.of_eq hlinks (by rw [hqueue]) (by rw [hqueue])
  · rw [hlinks]
    exact h.ordered
  · rw [hlinks, hqueue]
    exact h.pending
  · rw [hlinks, hturns]
    exact h.turned
  · rw [hturns]
    exact h.once
  · rw [hturns, hgens]
    exact h.inOrder
  · rw [hruns, hturns]
    exact h.runs

/-- A callback is called while the session is current. The exception is an `execute` whose
`onResolved` has just started or stopped a session. -/
structure Timely (record : CallRecord Frames) : Prop where
  current : record.current = !record.after.any QueueCall.changesSession
  after : record.after ≠ [] → ∃ command, record.callback = .execute command

/-- What every step keeps: the invariant of the queue, and timely calls. -/
structure Sound (s : State Frames) : Prop where
  inv : Inv s
  timely : ∀ record ∈ s.calls, Timely record

section Calls

variable {s : State Frames}

theorem calls_queueCalls (s : State Frames) (calls : List (QueueCall Frames)) :
    (s.queueCalls calls).calls = s.calls := by
  induction calls generalizing s with
  | nil => rfl
  | cons call calls ih =>
    rw [State.queueCalls, List.foldl_cons]
    refine (ih (s.queueCall call)).trans ?_
    cases call <;> rfl

variable {process : Process}

/-- A session that is over stays over. -/
theorem current_queueCalls_of_lt (h : process.generation < s.queue.generation)
    (calls : List (QueueCall Frames)) : (s.queueCalls calls).current process = false := by
  induction calls generalizing s with
  | nil =>
    have hne : (process.generation == s.queue.generation) = false := by
      rw [beq_eq_false_iff_ne]
      omega
    simp [State.queueCalls, State.current, OrderedVoiceQueue.isCurrent, hne]
  | cons call calls ih =>
    apply ih
    cases call with
    | start => exact Nat.lt_succ_of_lt h
    | stop => exact Nat.lt_succ_of_lt h
    | enqueue frames => exact h

/-- A session is current until something starts or stops one. -/
theorem current_queueCalls (h : s.current process = true) (calls : List (QueueCall Frames)) :
    (s.queueCalls calls).current process = !calls.any QueueCall.changesSession := by
  induction calls generalizing s with
  | nil => exact h
  | cons call calls ih =>
    have hgen : process.generation = s.queue.generation := by
      simp only [State.current, OrderedVoiceQueue.isCurrent, Bool.and_eq_true, beq_iff_eq] at h
      exact h.2
    cases call with
    | start =>
      have hlt : process.generation < (s.queueCall .start).queue.generation :=
        hgen ▸ Nat.lt_succ_self _
      exact current_queueCalls_of_lt hlt calls
    | stop =>
      have hlt : process.generation < (s.queueCall .stop).queue.generation :=
        hgen ▸ Nat.lt_succ_self _
      exact current_queueCalls_of_lt hlt calls
    | enqueue frames => exact ih h

theorem Sound.queueCalls (h : Sound s) (calls : List (QueueCall Frames)) :
    Sound (s.queueCalls calls) where
  inv := h.inv.queueCalls calls
  timely := by
    rw [calls_queueCalls]
    exact h.timely

theorem Sound.setStage (h : Sound s) (index : Nat) (stage : Stage) :
    Sound (s.setStage index stage) where
  inv := h.inv.of_eq rfl rfl rfl rfl
  timely := h.timely

theorem Sound.invoke (h : Sound s) {index : Nat} {callback : Callback}
    {after : List (QueueCall Frames)}
    (htimely : Timely (⟨index, callback, s.current process, after⟩ : CallRecord Frames))
    (reaction : Reaction Frames) : Sound (s.invoke index process callback reaction after) := by
  have hrecord : Sound (s.record index process callback after) := by
    refine ⟨h.inv.of_eq rfl rfl rfl rfl, ?_⟩
    intro record hmem
    rcases List.mem_append.mp hmem with hold | hnew
    · exact h.timely record hold
    · rw [List.mem_singleton.mp hnew]
      exact htimely
  exact hrecord.queueCalls reaction.calls

/-- A call made right after the session was found current. -/
theorem Sound.invokeCurrent (h : Sound s) (hcurrent : s.current process = true) (index : Nat)
    (callback : Callback) (reaction : Reaction Frames) :
    Sound (s.invoke index process callback reaction []) :=
  h.invoke ⟨hcurrent, fun hne => absurd rfl hne⟩ reaction

theorem current_invoke (hcurrent : s.current process = true) (index : Nat) (callback : Callback)
    (reaction : Reaction Frames) : (s.invoke index process callback reaction []).current process
      = !reaction.calls.any QueueCall.changesSession :=
  current_queueCalls (s := s.record index process callback []) hcurrent reaction.calls

theorem Sound.fail (h : Sound s) (index : Nat) (process : Process) (message : String)
    (reaction : Reaction Frames) : Sound (s.fail index process message reaction) := by
  unfold State.fail
  split
  · rename_i hcurrent
    exact (h.invokeCurrent hcurrent index _ reaction).setStage index .returned
  · exact h.setStage index .returned

theorem Sound.call (h : Sound s) (containsSpeech : Frames → Bool) (generation : Nat)
    (frames : Frames) (reaction : Reaction Frames) :
    Sound (s.call containsSpeech generation frames reaction) := by
  have hpushed : Sound { s with processes := s.processes ++ [⟨generation, .transcribing⟩] } :=
    ⟨h.inv.of_eq rfl rfl rfl rfl, h.timely⟩
  unfold State.call
  dsimp only
  split
  · exact hpushed.setStage _ _
  · rename_i hgo
    simp only [Bool.or_eq_true, Bool.not_eq_true', not_or, Bool.not_eq_false] at hgo
    have hinvoked := hpushed.invokeCurrent hgo.1 s.processes.length .onTranscribing reaction
    split
    · exact hinvoked.setStage _ _
    · exact hinvoked

theorem Sound.transcribed (h : Sound s) (parseCommand : String → VoiceCommand) (index : Nat)
    (process : Process) (result : Except String String) (first second : Reaction Frames) :
    Sound (s.transcribed parseCommand index process result first second) := by
  unfold State.transcribed
  split
  · exact h.fail _ _ _ _
  · split
    · exact h.setStage _ _
    · rename_i text hgo
      simp only [Bool.not_eq_true', Bool.not_eq_false] at hgo
      split
      · have hinvoked := h.invokeCurrent hgo index (.onFailed "nothing recognised") first
        dsimp only
        split
        · exact hinvoked.fail _ _ _ _
        · exact hinvoked.setStage _ _
      · have hinvoked := h.invokeCurrent hgo index (.onResolved text (parseCommand text)) first
        dsimp only
        split
        · exact hinvoked.fail _ _ _ _
        · -- `execute` follows without another look at the session
          refine (hinvoked.invoke ⟨?_, fun _ => ⟨_, rfl⟩⟩ second).setStage _ _
          exact current_invoke hgo index _ first

theorem Sound.executed (h : Sound s) (index : Nat) (process : Process) (command : VoiceCommand)
    (result : Except String Unit) (first second : Reaction Frames) :
    Sound (s.executed index process command result first second) := by
  unfold State.executed
  split
  · exact h.fail _ _ _ _
  · split
    · rename_i hgo
      rw [Bool.and_eq_true] at hgo
      have hinvoked := h.invokeCurrent hgo.1 index .noteActivity first
      dsimp only
      split
      · exact hinvoked.fail _ _ _ _
      · exact hinvoked.setStage _ _
    · exact h.setStage _ _

end Calls

/-! ### The run -/

theorem Sound.step {containsSpeech : Frames → Bool} {parseCommand : String → VoiceCommand}
    {s t : State Frames} {op : Op Frames} (h : Sound s)
    (hstep : s.step containsSpeech parseCommand op = some t) : Sound t := by
  cases op with
  | queueCall call =>
    cases hstep
    exact h.queueCalls [call]
  | turn index =>
    refine ⟨h.inv.turn hstep, ?_⟩
    obtain ⟨link, -, -, -, rfl⟩ := turn_cases hstep
    exact h.timely
  | settle index =>
    refine ⟨h.inv.settle hstep, ?_⟩
    obtain ⟨link, -, -, rfl⟩ := settle_cases hstep
    exact h.timely
  | finally_ index =>
    refine ⟨h.inv.finally_ hstep, ?_⟩
    obtain ⟨link, -, -, rfl⟩ := finally_cases hstep
    exact h.timely
  | process index frames reaction =>
    obtain ⟨link, -, rfl⟩ := Option.map_eq_some_iff.mp hstep
    exact h.call containsSpeech link.generation frames reaction
  | transcribed index result first second =>
    simp only [State.step] at hstep
    split at hstep
    · cases hstep
      exact h.transcribed _ _ _ _ _ _
    · cases hstep
  | executed index result first second =>
    simp only [State.step] at hstep
    split at hstep
    · cases hstep
      exact h.executed _ _ _ _ _ _
    · cases hstep

theorem reachable_sound {containsSpeech : Frames → Bool} {parseCommand : String → VoiceCommand}
    (h : Reachable (· = State.start) (fun _ _ => True) (State.machine containsSpeech parseCommand)
      s) : Sound s := by
  refine h.invariant Sound ?_ ?_
  · rintro s rfl
    exact ⟨.start, by simp [State.start]⟩
  · intro s op t answer _ hstep hsound
    obtain ⟨next, hnext, heq⟩ := Option.map_eq_some_iff.mp hstep
    cases heq
    exact hsound.step hnext

/-! ### What a run guarantees -/

/-- Every reaction of the queue that can run has run. Only runs in progress are left. -/
def Idle (s : State Frames) : Prop :=
  ∀ index, s.turn index = none ∧ s.finally_ index = none

/-- The run of the utterance has not settled: it is in progress or has not begun. -/
def unsettled (link : Link Frames) : Bool := link.phase = .waiting || link.phase = .running

/-- Ordered voice work that dies with its session. -/
structure OrderedWork (s : State Frames) : Prop where
  /-- The runs of one session begin in enqueue order. -/
  begun : ∀ g, (s.runs.filter (fun index => (generations s)[index]? = some g)).Pairwise (· < ·)
  /-- Nothing begins before everything earlier of its session has settled. -/
  settledBefore : ∀ (i j : Nat) (li lj : Link Frames), i < j → s.links[i]? = some li →
    s.links[j]? = some lj → li.generation = lj.generation → lj.phase ≠ .waiting →
    li.phase = .finished
  /-- An utterance has one turn. -/
  oneTurn : (s.turns.map (·.1)).Nodup
  /-- It is run once if its session was current at its turn, and never otherwise. -/
  exactlyOnce : ∀ index, s.runs.count index = if (index, true) ∈ s.turns then 1 else 0
  /-- Its turn comes as soon as no earlier run of its session is in progress. -/
  turnComes : Idle s → ∀ (i : Nat) (li : Link Frames), s.links[i]? = some li →
    li.phase = .waiting → ∃ j lj, j < i ∧ s.links[j]? = some lj ∧
      lj.generation = li.generation ∧ lj.phase = .running
  /-- `pending` counts the utterances of this generation whose `finally` has not run. -/
  pending : s.queue.pending = s.links.countP
    (fun link => link.generation = s.queue.generation ∧ link.phase ≠ .finished)
  /-- Between two reactions, these are the ones whose run has not settled. -/
  pendingIdle : Idle s → s.queue.pending = s.links.countP
    (fun link => link.generation = s.queue.generation ∧ unsettled link = true)
  /-- A callback is called while its session is current, or it is an `execute` and the `onResolved`
  before it started or stopped a session. -/
  timely : ∀ record ∈ s.calls, record.current = true ∨
    (∃ command, record.callback = .execute command) ∧
      ∃ call ∈ record.after, call.changesSession = true

theorem pairwise_runs (h : Inv s) (g : Nat) :
    (s.runs.filter (fun index => (generations s)[index]? = some g)).Pairwise (· < ·) := by
  have horder : (s.turns.map (·.1)).Pairwise (fun a b => ∀ g, (generations s)[a]? = some g →
      (generations s)[b]? = some g → a < b) := List.pairwise_map.mpr h.inOrder
  have hsub : s.runs.Sublist (s.turns.map (·.1)) := by
    rw [h.runs]
    exact List.filter_sublist.map _
  refine List.pairwise_filter.mpr ((horder.sublist hsub).imp ?_)
  intro a b hlt ha hb
  exact hlt g (of_decide_eq_true ha) (of_decide_eq_true hb)

theorem count_runs (h : Inv s) (index : Nat) :
    s.runs.count index = if (index, true) ∈ s.turns then 1 else 0 := by
  have hnodup : s.runs.Nodup := by
    rw [h.runs]
    exact h.once.sublist (List.filter_sublist.map _)
  have hmem : index ∈ s.runs ↔ (index, true) ∈ s.turns := by
    rw [h.runs]
    simp
  rw [hnodup.count]
  simp only [hmem]

/-- In an idle queue nothing has settled without its `finally`. -/
theorem Idle.not_settled (h : Idle s) (hlink : s.links[index]? = some link) :
    link.phase ≠ .settled := by
  intro hsettled
  have hnone := (h index).2
  rw [State.finally_, hlink] at hnone
  dsimp only at hnone
  rw [if_pos hsettled] at hnone
  split at hnone <;> cases hnone

theorem exists_running_of_waiting (h : Inv s) (hidle : Idle s) (i : Nat) (li : Link Frames)
    (hi : s.links[i]? = some li) (hwaiting : li.phase = .waiting) :
    ∃ j lj, j < i ∧ s.links[j]? = some lj ∧ lj.generation = li.generation ∧
      lj.phase = .running := by
  induction i using Nat.strongRecOn generalizing li with
  | _ i ih =>
    have hnone := (hidle i).1
    rw [State.turn, hi] at hnone
    dsimp only at hnone
    have hready : s.ready li ≠ true := by
      intro hready
      rw [if_pos ⟨hwaiting, hready⟩] at hnone
      split at hnone <;> cases hnone
    have hprevious := h.previous i li hi
    cases hprev : li.previous with
    | none => exact absurd (by rw [State.ready, hprev]) hready
    | some last =>
      rw [hprev] at hprevious
      obtain ⟨hlast, hgen, -⟩ := hprevious
      rw [generations, List.getElem?_map] at hgen
      obtain ⟨before, hbefore, hbeforeGen⟩ := Option.map_eq_some_iff.mp hgen
      have hopen : before.phase ≠ .finished := by
        intro hfinished
        exact hready (by simp [State.ready, hprev, hbefore, hfinished])
      -- the link before it runs, or waits itself
      cases hphase : before.phase with
      | waiting =>
        obtain ⟨j, lj, hj, hlj, hljGen, hrunning⟩ := ih last hlast before hbefore hphase
        exact ⟨j, lj, hj.trans hlast, hlj, hljGen.trans hbeforeGen, hrunning⟩
      | running => exact ⟨last, before, hlast, hbefore, hbeforeGen, hphase⟩
      | settled => exact absurd hphase (hidle.not_settled hbefore)
      | finished => exact absurd hphase hopen

theorem pending_of_idle (h : Inv s) (hidle : Idle s) : s.queue.pending = s.links.countP
      (fun link => link.generation = s.queue.generation ∧ unsettled link = true) := by
  rw [h.pending]
  apply List.countP_congr
  intro link hmem
  obtain ⟨index, hlink⟩ := List.getElem?_of_mem hmem
  have hsettled := hidle.not_settled hlink
  cases hphase : link.phase <;> simp_all [counts, unsettled]

/-- In every run, however the calls, the settlements and the callbacks interleave, voice work keeps
its order and ends with its session. -/
theorem reachable_orderedWork {containsSpeech : Frames → Bool}
    {parseCommand : String → VoiceCommand} {s : State Frames}
    (h : Reachable (· = State.start) (fun _ _ => True) (State.machine containsSpeech parseCommand)
      s) : OrderedWork s := by
  obtain ⟨hinv, htimely⟩ := reachable_sound h
  refine ⟨pairwise_runs hinv, hinv.ordered, hinv.once, count_runs hinv,
    exists_running_of_waiting hinv, ?_, pending_of_idle hinv, ?_⟩
  · rw [hinv.pending]
    exact List.countP_congr (fun link _ => by simp [counts])
  · intro record hrecord
    obtain ⟨hcurrent, hafter⟩ := htimely record hrecord
    cases hchanged : record.after.any QueueCall.changesSession with
    | false =>
      rw [hchanged] at hcurrent
      exact .inl hcurrent
    | true =>
      rw [List.any_eq_true] at hchanged
      obtain ⟨call, hcall, hchanges⟩ := hchanged
      exact .inr ⟨hafter (List.ne_nil_of_mem hcall), call, hcall, hchanges⟩

/-- The pipeline on utterances that are all heard as one command. -/
def hearing (command : VoiceCommand) : State Unit → Op Unit → Option (State Unit × Unit) :=
  State.machine (fun _ => true) (fun _ => command)

theorem reachable_hearing {command : VoiceCommand} {ops : List (Op Unit)} {s : State Unit}
    (hrun : runAll (guarded (fun _ _ => true) (hearing command)) State.start ops = some s) :
    Reachable (· = State.start) (fun _ _ => True) (hearing command) s :=
  Reachable.runAll (fun _ _ _ => trivial) (.start rfl) hrun

/-- A stop overtakes two utterances: the first is running and the second never runs. A third one
belongs to the session after it, and is counted alone. -/
theorem reachable_orderedWork_after_stop :
    ∃ s : State Unit, OrderedWork s ∧ s.runs = [0, 2] ∧ s.queue.pending = 1 := by
  have hrun : (runAll (guarded (fun _ _ => true) (hearing .back)) State.start
      [.queueCall .start, .queueCall (.enqueue ()), .queueCall (.enqueue ()), .turn 0,
        .queueCall .stop, .settle 0, .finally_ 0, .turn 1, .finally_ 1, .queueCall .start,
        .queueCall (.enqueue ()), .turn 2]).any
      (fun s => decide (s.runs = [0, 2] ∧ s.queue.pending = 1)) = true := by
    decide +kernel
  obtain ⟨s, hsome, hends⟩ := (Option.any_eq_true _ _).mp hrun
  exact ⟨s, reachable_orderedWork (reachable_hearing hsome), of_decide_eq_true hends⟩

/-- The counter is corrected a moment after the run has settled, and `execute` does not look at the
session again after `onResolved`. -/
theorem pending_lags_and_execute_after_stop :
    (∃ s, Reachable (· = State.start) (fun _ _ => True) (hearing .back) s ∧
      s.queue.pending ≠ s.links.countP
        (fun link => link.generation = s.queue.generation ∧ unsettled link = true)) ∧
    ∃ s, Reachable (· = State.start) (fun _ _ => True) (hearing .back) s ∧
      ∃ record ∈ s.calls, record.callback = .execute .back ∧ record.current = false := by
  constructor
  · have hrun : (runAll (guarded (fun _ _ => true) (hearing .back)) State.start
        [.queueCall .start, .queueCall (.enqueue ()), .turn 0, .settle 0]).any
        (fun s => decide (s.queue.pending ≠ s.links.countP
          (fun link => link.generation = s.queue.generation ∧ unsettled link = true)))
          = true := by
      decide +kernel
    obtain ⟨s, hsome, hends⟩ := (Option.any_eq_true _ _).mp hrun
    exact ⟨s, reachable_hearing hsome, of_decide_eq_true hends⟩
  · have hrun : (runAll (guarded (fun _ _ => true) (hearing .back)) State.start
        [.queueCall .start, .queueCall (.enqueue ()), .turn 0, .process 0 () ⟨[], none⟩,
          .transcribed 0 (.ok "go back") ⟨[.stop], none⟩ ⟨[], none⟩]).any
        (fun s => decide (∃ record ∈ s.calls, record.callback = .execute .back ∧
          record.current = false)) = true := by
      decide +kernel
    obtain ⟨s, hsome, hends⟩ := (Option.any_eq_true _ _).mp hrun
    exact ⟨s, reachable_hearing hsome, of_decide_eq_true hends⟩

end Herden.Proofs.VoicePipeline
