import Mathlib.Data.List.Basic
import Mathlib.Tactic.ByContra

/-!
# `Herden.Lib.FixedWindow`: counting requests in fixed windows

A request counts in the window of its key that is open, and starts one where none is. `Store` is any
way to keep the windows that answers so. Whether it still holds expired windows makes no difference
to what it answers (`log_eq`), an interval shorter than a window meets two windows at most
(`countIn_log_le`), and a key without requests finds its window closed in the end (`found_closed`).
-/

namespace Herden.Lib.FixedWindow

structure Call (κ : Type) where
  key : κ
  time : Int

/-- The time of the first request of a window, and the number of its requests. -/
structure Window where
  start : Int
  count : Nat

def Window.isOpen (length now : Int) (window : Window) : Bool := now - window.start < length

theorem Window.isOpen_iff {length now : Int} {window : Window} :
    window.isOpen length now = true ↔ now - window.start < length := decide_eq_true_iff

/-- The window that has counted a request at this time. -/
def counted (now : Int) : Option Window → Window
  | none => ⟨now, 1⟩
  | some window => { window with count := window.count + 1 }

variable {κ σ τ : Type} [DecidableEq κ]

/-- A way to keep windows of this length. -/
structure Store (κ σ : Type) [DecidableEq κ] (length : Int) where
  /-- The window of a key that is open at a time. -/
  openWindow : σ → Int → κ → Option Window
  record : σ → Call κ → σ
  openWindow_record : ∀ state call time other, call.time ≤ time →
    openWindow (record state call) time other =
      if other = call.key then
        (some (counted call.time (openWindow state call.time call.key))).filter
          (·.isOpen length time)
      else openWindow state time other

/-- A request, and the window it found open. -/
structure Entry (κ : Type) where
  call : Call κ
  found : Option Window

namespace Entry

/-- The window that has counted the request. -/
def window (entry : Entry κ) : Window := counted entry.call.time entry.found

/-- A request of the key in the interval, and among the first of its window. -/
def within (limit : Int) (key : κ) (start stop : Int) (entry : Entry κ) : Bool :=
  decide (entry.call.key = key ∧ start ≤ entry.call.time ∧ entry.call.time ≤ stop
    ∧ (entry.window.count : Int) ≤ limit)

end Entry

namespace Store

variable {length : Int} (store : Store κ σ length)

def after (state : σ) (calls : List (Call κ)) : σ := calls.foldl store.record state

def log (state : σ) : List (Call κ) → List (Entry κ)
  | [] => []
  | call :: rest =>
      ⟨call, store.openWindow state call.time call.key⟩ :: log (store.record state call) rest

theorem log_append (state : σ) (front behind : List (Call κ)) :
    store.log state (front ++ behind)
      = store.log state front ++ store.log (store.after state front) behind := by
  induction front generalizing state with
  | nil => rfl
  | cons call front ih =>
    show _ :: store.log (store.record state call) (front ++ behind) = _
    rw [ih]
    rfl

theorem length_log (state : σ) (calls : List (Call κ)) :
    (store.log state calls).length = calls.length := by
  induction calls generalizing state with
  | nil => rfl
  | cons call rest ih => exact congrArg (· + 1) (ih (store.record state call))

variable {call : Call κ} {calls : List (Call κ)} {state : σ} {now : Int} {seen : Nat}

theorem exists_entry_of_mem (state : σ) (h : call ∈ calls) :
    ∃ entry ∈ store.log state calls, entry.call = call := by
  induction calls generalizing state with
  | nil => cases h
  | cons first rest ih =>
    rcases List.mem_cons.mp h with rfl | hrest
    · exact ⟨_, List.mem_cons_self, rfl⟩
    · obtain ⟨entry, hentry, hcall⟩ := ih (store.record state first) hrest
      exact ⟨entry, List.mem_cons_of_mem _ hentry, hcall⟩

variable {behind front : List (Entry κ)}

/-- A log falls apart as its requests do. -/
theorem log_eq_append (h : store.log state calls = front ++ behind) :
    ∃ before rest, calls = before ++ rest ∧ store.log state before = front
      ∧ store.log (store.after state before) rest = behind := by
  have hsplit := store.log_append state (calls.take front.length) (calls.drop front.length)
  rw [List.take_append_drop, h] at hsplit
  have hlength : front.length = (store.log state (calls.take front.length)).length := by
    rw [length_log, List.length_take]
    have htotal := congrArg List.length h
    rw [length_log, List.length_append] at htotal
    omega
  obtain ⟨hfront, hbehind⟩ := List.append_inj hsplit hlength
  exact ⟨_, _, (List.take_append_drop _ _).symm, hfront.symm, hbehind.symm⟩

/-! ### What a store answers -/

/-- Stores with the same open windows answer the same. -/
theorem log_eq (other : Store κ τ length) {state' : τ} (hsame : ∀ time key, now ≤ time →
      store.openWindow state time key = other.openWindow state' time key)
    (htimes : calls.Pairwise (fun call later => call.time ≤ later.time))
    (hnow : ∀ call ∈ calls, now ≤ call.time) : store.log state calls = other.log state' calls := by
  induction calls generalizing state state' now with
  | nil => rfl
  | cons call rest ih =>
    obtain ⟨hlater, hrest⟩ := List.pairwise_cons.mp htimes
    have hcall : now ≤ call.time := hnow call List.mem_cons_self
    show (⟨call, _⟩ : Entry κ) :: store.log _ rest = ⟨call, _⟩ :: other.log _ rest
    rw [hsame call.time call.key hcall]
    refine congrArg _ (ih (fun time key htime => ?_) hrest hlater)
    rw [store.openWindow_record _ _ _ _ htime, other.openWindow_record _ _ _ _ htime,
      hsame call.time call.key hcall, hsame time key (Int.le_trans hcall htime)]

/-! ### Two windows in an interval -/

/-- What is known when `seen` requests of the key have been among the first `limit` of their windows
and in the interval, all of them at `now` or before. -/
structure Bounded (limit : Int) (key : κ) (start stop : Int) (state : σ) (now : Int) (seen : Nat) :
    Prop where
  total : (seen : Int) ≤ 2 * limit
  before : now < start → seen = 0
  /-- One window at most was met, and it is closed. -/
  closed : ∀ time, now ≤ time → time ≤ stop → store.openWindow state time key = none →
    (seen : Int) ≤ limit
  /-- The open window is the second one met. -/
  second : ∀ time window, now ≤ time → time ≤ stop →
    store.openWindow state time key = some window →
    (seen : Int) ≤ limit + min (window.count : Int) limit
  /-- The open window is the first one met. -/
  first : ∀ time window, now ≤ time → time ≤ stop →
    store.openWindow state time key = some window → window.start < start →
    (seen : Int) ≤ min (window.count : Int) limit

variable {store}
variable {limit : Int} {key : κ} {start stop : Int}

/-- Nothing has been seen yet. -/
theorem Bounded.zero (hlimit : 1 ≤ limit) (state : σ) (now : Int) :
    store.Bounded limit key start stop state now 0 where
  total := by omega
  before := fun _ => rfl
  closed := fun _ _ _ _ => by omega
  second := fun _ _ _ _ _ => by omega
  first := fun _ _ _ _ _ _ => by omega

/-- A request of another key changes nothing. -/
theorem Bounded.other (h : store.Bounded limit key start stop state now seen)
    (hnow : now ≤ call.time) (hkey : key ≠ call.key) :
    store.Bounded limit key start stop (store.record state call) call.time seen := by
  have hsame : ∀ time, call.time ≤ time →
      store.openWindow (store.record state call) time key = store.openWindow state time key := by
    intro time htime
    rw [store.openWindow_record _ _ _ _ htime, if_neg hkey]
  constructor
  case total => exact h.total
  case before => exact fun hbefore => h.before (by omega)
  case closed =>
    intro time htime hstop hnone
    rw [hsame time htime] at hnone
    exact h.closed time (by omega) hstop hnone
  case second =>
    intro time window htime hstop hsome
    rw [hsame time htime] at hsome
    exact h.second time window (by omega) hstop hsome
  case first =>
    intro time window htime hstop hsome
    rw [hsame time htime] at hsome
    exact h.first time window (by omega) hstop hsome

/-- A request of the key: what it adds to `seen` fits. -/
theorem Bounded.record (h : store.Bounded limit key start stop state now seen) (hlimit : 1 ≤ limit)
    (hshort : stop - start < length) (hnow : now ≤ call.time) (hkey : key = call.key)
    {entry : Entry κ} (hentry : entry = ⟨call, store.openWindow state call.time call.key⟩) :
    store.Bounded limit key start stop (store.record state call) call.time
      (seen + if entry.within limit key start stop then 1 else 0) := by
  obtain ⟨found, hfound⟩ : ∃ found, store.openWindow state call.time call.key = found := ⟨_, rfl⟩
  rw [hfound] at hentry
  subst hentry
  have hopen : ∀ time, call.time ≤ time →
      store.openWindow (store.record state call) time key
        = (some (counted call.time found)).filter (·.isOpen length time) := by
    intro time htime
    rw [store.openWindow_record _ _ _ _ htime, if_pos hkey, hfound]
  have hnone : ∀ time, call.time ≤ time →
      store.openWindow (store.record state call) time key = none →
      length ≤ time - (counted call.time found).start := by
    intro time htime hclosed
    rw [hopen time htime, Option.filter_some] at hclosed
    by_contra hlt
    have hisOpen : (counted call.time found).isOpen length time = true :=
      Window.isOpen_iff.mpr (by omega)
    rw [if_pos hisOpen] at hclosed
    cases hclosed
  have hsome : ∀ time window, call.time ≤ time →
      store.openWindow (store.record state call) time key = some window →
      window = counted call.time found := by
    intro time window htime hwindow
    rw [hopen time htime] at hwindow
    exact (Option.some.inj (Option.filter_eq_some_iff.mp hwindow).1).symm
  obtain ⟨added, hadded, hcases⟩ : ∃ added,
      (if (⟨call, found⟩ : Entry κ).within limit key start stop then 1 else 0) = added
        ∧ (added = 1 ∧ start ≤ call.time ∧ call.time ≤ stop
            ∧ ((counted call.time found).count : Int) ≤ limit
          ∨ added = 0 ∧ ¬ (start ≤ call.time ∧ call.time ≤ stop
            ∧ ((counted call.time found).count : Int) ≤ limit)) := by
    refine ⟨_, rfl, ?_⟩
    split
    next hin => exact .inl ⟨rfl, (of_decide_eq_true hin).2⟩
    next hout =>
      exact .inr ⟨rfl, fun hin => hout (decide_eq_true ⟨hkey.symm, hin⟩)⟩
  rw [hadded]
  -- What was known before the request, at its time.
  have hbefore : call.time < start → seen = 0 := fun hlt => h.before (by omega)
  have htotal := h.total
  rw [← hkey] at hfound
  cases found with
  | none =>
    have hclosed : call.time ≤ stop → (seen : Int) ≤ limit := fun hstop =>
      h.closed call.time hnow hstop hfound
    simp only [counted] at hnone hsome hcases
    constructor
    case total => omega
    case before => omega
    case closed =>
      intro time htime hstop htimeNone
      have hexpired := hnone time htime htimeNone
      omega
    case second =>
      intro time window htime hstop hwindow
      obtain rfl := hsome time window htime hwindow
      dsimp only
      omega
    case first =>
      intro time window htime hstop hwindow hstart
      obtain rfl := hsome time window htime hwindow
      dsimp only at hstart ⊢
      omega
  | some window =>
    have hsecond : call.time ≤ stop → (seen : Int) ≤ limit + min (window.count : Int) limit :=
      fun hstop => h.second call.time window hnow hstop hfound
    have hfirst : call.time ≤ stop → window.start < start →
        (seen : Int) ≤ min (window.count : Int) limit :=
      fun hstop => h.first call.time window hnow hstop hfound
    simp only [counted] at hnone hsome hcases
    constructor
    case total => omega
    case before => omega
    case closed =>
      intro time htime hstop htimeNone
      have hexpired := hnone time htime htimeNone
      omega
    case second =>
      intro time other htime hstop hother
      obtain rfl := hsome time other htime hother
      dsimp only
      omega
    case first =>
      intro time other htime hstop hother hstart
      obtain rfl := hsome time other htime hother
      dsimp only at hstart ⊢
      omega

/-- An interval shorter than a window sees twice the limit at most. -/
theorem countP_log_le (h : store.Bounded limit key start stop state now seen) (hlimit : 1 ≤ limit)
    (hshort : stop - start < length)
    (htimes : calls.Pairwise (fun call later => call.time ≤ later.time))
    (hnow : ∀ call ∈ calls, now ≤ call.time) :
    ((seen + (store.log state calls).countP (·.within limit key start stop) : Nat) : Int)
      ≤ 2 * limit := by
  induction calls generalizing state now seen with
  | nil => exact h.total
  | cons call rest ih =>
    obtain ⟨hlater, hrest⟩ := List.pairwise_cons.mp htimes
    have hcall : now ≤ call.time := hnow call List.mem_cons_self
    show ((seen + List.countP _ (⟨call, _⟩ :: store.log (store.record state call) rest) : Nat)
      : Int) ≤ 2 * limit
    rw [List.countP_cons]
    by_cases hkey : key = call.key
    · have hnext := ih (h.record hlimit hshort hcall hkey rfl) hrest hlater
      omega
    · have hnext := ih (h.other hcall hkey) hrest hlater
      have hskipped : (⟨call, store.openWindow state call.time call.key⟩ : Entry κ).within limit key
          start stop = false := by
        simp [Entry.within, Ne.symm hkey]
      rw [hskipped]
      exact hnext

/-! ### A window that closes -/

/-- A closed window stays closed until the next request of its key. -/
theorem openWindow_after {time : Int} (hkey : ∀ call ∈ calls, call.key ≠ key)
    (htime : ∀ call ∈ calls, call.time ≤ time) :
    store.openWindow (store.after state calls) time key = store.openWindow state time key := by
  induction calls generalizing state with
  | nil => rfl
  | cons call rest ih =>
    obtain ⟨hcall, hrest⟩ := List.forall_mem_cons.mp hkey
    obtain ⟨hnow, hlater⟩ := List.forall_mem_cons.mp htime
    show store.openWindow (store.after (store.record state call) rest) time key = _
    rw [ih hrest hlater, store.openWindow_record _ _ _ _ hnow, if_neg hcall.symm]

/-- A request finds no open window when the last one that its key has counted in is over. -/
theorem found_closed {between : List (Entry κ)} {last again : Entry κ}
    (htimes : calls.Pairwise (fun call later => call.time ≤ later.time))
    (hlog : store.log state calls = front ++ last :: (between ++ again :: behind))
    (hkey : again.call.key = last.call.key)
    (hbetween : ∀ entry ∈ between, entry.call.key ≠ last.call.key)
    (hover : last.window.start + length ≤ again.call.time) : again.found = none := by
  obtain ⟨before, rest, rfl, -, hrest⟩ := store.log_eq_append hlog
  have hsorted := (List.pairwise_append.mp htimes).2.1
  cases rest with
  | nil => cases hrest
  | cons call more =>
    obtain ⟨hlast, hmore⟩ := List.cons.inj hrest
    obtain ⟨skipped, tail, rfl, hskipped, htail⟩ := store.log_eq_append hmore
    cases tail with
    | nil => cases htail
    | cons next tail =>
      obtain ⟨hnext, -⟩ := List.cons.inj htail
      obtain ⟨hlater, hsorted⟩ := List.pairwise_cons.mp hsorted
      have hnow : call.time ≤ next.time :=
        hlater next (List.mem_append_right _ List.mem_cons_self)
      have hskippedTime : ∀ other ∈ skipped, other.time ≤ next.time := fun other hother =>
        (List.pairwise_append.mp hsorted).2.2 other hother next List.mem_cons_self
      have hskippedKey : ∀ other ∈ skipped, other.key ≠ call.key := by
        intro other hother
        obtain ⟨entry, hentry, rfl⟩ := store.exists_entry_of_mem (store.record _ call) hother
        rw [← hlast] at hbetween
        exact hbetween entry (hskipped ▸ hentry)
      rw [← hnext] at hkey hover ⊢
      rw [← hlast] at hkey hover
      show store.openWindow (store.after (store.record _ call) skipped) next.time next.key = none
      rw [hkey, openWindow_after hskippedKey hskippedTime,
        store.openWindow_record _ _ _ _ hnow, if_pos rfl, Option.filter_some]
      have hclosed : (counted call.time (store.openWindow (store.after state before) call.time
          call.key)).isOpen length next.time = false := by
        refine decide_eq_false ?_
        have hstart : (counted call.time (store.openWindow (store.after state before) call.time
          call.key)).start + length ≤ next.time := hover
        omega
      rw [hclosed]
      rfl

end Store

end Herden.Lib.FixedWindow
