import Herden.Relay.RateLimit
import Mathlib.Data.List.Induction

/-!
# `Herden.Proofs.RateLimit`: what the limiter lets through

The limiter is a store of fixed windows (`check_counts`), and so is the limiter that never prunes
(`checkUnpruned_counts`). They give the same verdicts, and the library's bounds hold of both. How
many windows are stored is a matter of pruning: `limiter_spec` bounds them by what was open when the
last window was started, as later calls in open windows prune nothing (`stored_exceeds_open`).
-/

namespace Herden.Proofs.RateLimit

open Herden.Lib
open Herden.Lib.FixedWindow (Call Window Entry Store counted)
open Herden.Relay.RateLimit

/-! ### The limiter that never prunes -/

def startWindowUnpruned (self : Limiter) (key : String) (limit nowMs : Int) : Verdict × Limiter :=
  (if 1 ≤ limit then .allowed else .rejected (ceilSeconds self.windowMs),
    { self with windows := self.windows.insert key ⟨nowMs, 1⟩ })

def checkUnpruned (self : Limiter) (key : String) (limit nowMs : Int) : Verdict × Limiter :=
  match self.windows.get key with
  | none => startWindowUnpruned self key limit nowMs
  | some entry =>
      if self.windowMs ≤ nowMs - entry.start then startWindowUnpruned self key limit nowMs
      else self.countRequest key entry limit nowMs

/-! ### Verdicts -/

/-- The verdict on a request that found this window open. -/
def verdict (limit windowMs nowMs : Int) : Option Window → Verdict
  | none => if 1 ≤ limit then .allowed else .rejected (ceilSeconds windowMs)
  | some entry =>
      if limit < (entry.count + 1 : Nat) then
        .rejected (max 1 (ceilSeconds (entry.start + windowMs - nowMs)))
      else .allowed

variable {limit nowMs windowMs : Int} {entry : Window} {key : String}
  {windows : HashMap String Window} {self : Limiter} {calls : List (Call String)}

variable {found : Option Window} {check : Limiter → String → Int → Int → Verdict × Limiter}
  {maxEntries : Int}

theorem verdict_eq_allowed : verdict limit windowMs nowMs found = .allowed
      ↔ ((counted nowMs found).count : Int) ≤ limit := by
  cases found with
  | none =>
    show (if 1 ≤ limit then Verdict.allowed else _) = .allowed ↔ ((1 : Nat) : Int) ≤ limit
    split
    next h => simpa using h
    next h => simpa using h
  | some entry =>
    show (if limit < (entry.count + 1 : Nat) then _ else Verdict.allowed) = .allowed
      ↔ ((entry.count + 1 : Nat) : Int) ≤ limit
    split
    next h => simpa using h
    next h => simpa using h

theorem le_ceilSeconds (ms : Int) : ms ≤ 1000 * ceilSeconds ms := by
  unfold ceilSeconds
  omega

/-- After the reported seconds the window is over. -/
theorem verdict_eq_rejected {retry : Int} (hlimit : 1 ≤ limit)
    (h : verdict limit windowMs nowMs found = .rejected retry) :
    (counted nowMs found).start + windowMs ≤ nowMs + 1000 * retry := by
  cases found with
  | none =>
    unfold verdict at h
    rw [if_pos hlimit] at h
    cases h
  | some entry =>
    unfold verdict at h
    dsimp only at h
    split at h
    next =>
      cases h
      show entry.start + windowMs ≤ _
      have hceil := le_ceilSeconds (entry.start + windowMs - nowMs)
      have hmax := Int.le_max_right 1 (ceilSeconds (entry.start + windowMs - nowMs))
      omega
    next => cases h

/-! ### The stores -/

def openWindow (windowMs : Int) (windows : HashMap String Window) (time : Int) (key : String) :
    Option Window :=
  (windows.get key).filter (·.isOpen windowMs time)

/-- What both ways to check have in common. -/
structure Counts (check : Limiter → String → Int → Int → Verdict × Limiter) : Prop where
  limits : ∀ self key limit nowMs, (check self key limit nowMs).2
    = ⟨self.windowMs, self.maxEntries, (check self key limit nowMs).2.windows⟩
  verdict_eq : ∀ self key limit nowMs, (check self key limit nowMs).1
    = verdict limit self.windowMs nowMs (openWindow self.windowMs self.windows nowMs key)
  openWindow_eq : ∀ self key limit nowMs time other, nowMs ≤ time →
    openWindow self.windowMs (check self key limit nowMs).2.windows time other =
      if other = key then
        (some (counted nowMs (openWindow self.windowMs self.windows nowMs key))).filter
          (·.isOpen self.windowMs time)
      else openWindow self.windowMs self.windows time other

theorem openWindow_insert (windowMs : Int) (windows : HashMap String Window) (key other : String)
    (window : Window) (time : Int) :
    openWindow windowMs (windows.insert key window) time other =
      if other = key then (some window).filter (·.isOpen windowMs time)
      else openWindow windowMs windows time other := by
  unfold openWindow
  rw [HashMap.get_insert]
  split
  next => rfl
  next => rfl

/-- An open window, as `check` finds it. -/
theorem openWindow_eq_some (hget : windows.get key = some entry)
    (hopen : ¬ windowMs ≤ nowMs - entry.start) :
    openWindow windowMs windows nowMs key = some entry := by
  unfold openWindow
  rw [hget, Option.filter_some, if_pos (Window.isOpen_iff.mpr (by omega))]

/-- Pruning takes no window that is open now or later. -/
theorem openWindow_prune (self : Limiter) {time : Int} (h : nowMs ≤ time) (key : String) :
    openWindow self.windowMs (self.prune nowMs).windows time key
      = openWindow self.windowMs self.windows time key := by
  unfold openWindow Limiter.prune
  dsimp only
  rw [HashMap.get_retain]
  cases self.windows.get key with
  | none => rfl
  | some entry =>
    rw [Option.filter_some]
    split
    next => rfl
    next hexpired =>
      rw [Option.filter_some, if_neg]
      · rfl
      · intro hopen
        have hlt := Window.isOpen_iff.mp hopen
        have hle : self.windowMs ≤ nowMs - entry.start := by simpa using hexpired
        omega

/-- A way to start a window: what it answers, and which windows are open afterwards. -/
structure Starts (start : Limiter → String → Int → Int → Verdict × Limiter) : Prop where
  limits : ∀ self key limit nowMs, (start self key limit nowMs).2
    = ⟨self.windowMs, self.maxEntries, (start self key limit nowMs).2.windows⟩
  verdict_eq : ∀ self key limit nowMs,
    (start self key limit nowMs).1 = verdict limit self.windowMs nowMs none
  openWindow_eq : ∀ self key limit nowMs time other, nowMs ≤ time →
    openWindow self.windowMs (start self key limit nowMs).2.windows time other =
      if other = key then (some (counted nowMs none)).filter (·.isOpen self.windowMs time)
      else openWindow self.windowMs self.windows time other

theorem startWindow_starts : Starts Limiter.startWindow where
  limits self key limit nowMs := by
    unfold Limiter.startWindow
    dsimp only
    split
    next => rfl
    next => rfl
  verdict_eq _ _ _ _ := rfl
  openWindow_eq self key limit nowMs time other htime := by
    unfold Limiter.startWindow
    dsimp only
    rw [openWindow_insert]
    split
    next => rfl
    next =>
      split
      next => exact openWindow_prune self htime other
      next => rfl

theorem startWindowUnpruned_starts : Starts startWindowUnpruned where
  limits _ _ _ _ := rfl
  verdict_eq _ _ _ _ := rfl
  openWindow_eq self key _ nowMs time other _ :=
    openWindow_insert self.windowMs self.windows key other ⟨nowMs, 1⟩ time

/-- A check that starts a window for a key without an open one, and counts in an open one. -/
theorem Counts.of_branches {start : Limiter → String → Int → Int → Verdict × Limiter}
    (hstart : Starts start)
    (hclosed : ∀ self key limit nowMs, openWindow self.windowMs self.windows nowMs key = none →
      check self key limit nowMs = start self key limit nowMs)
    (hopen : ∀ self key limit nowMs entry,
      openWindow self.windowMs self.windows nowMs key = some entry →
      check self key limit nowMs = self.countRequest key entry limit nowMs) : Counts check where
  limits self key limit nowMs := by
    cases hfound : openWindow self.windowMs self.windows nowMs key with
    | none =>
      rw [hclosed self key limit nowMs hfound]
      exact hstart.limits self key limit nowMs
    | some entry =>
      rw [hopen self key limit nowMs entry hfound]
      rfl
  verdict_eq self key limit nowMs := by
    cases hfound : openWindow self.windowMs self.windows nowMs key with
    | none =>
      rw [hclosed self key limit nowMs hfound]
      exact hstart.verdict_eq self key limit nowMs
    | some entry =>
      rw [hopen self key limit nowMs entry hfound]
      rfl
  openWindow_eq self key limit nowMs time other htime := by
    cases hfound : openWindow self.windowMs self.windows nowMs key with
    | none =>
      rw [hclosed self key limit nowMs hfound]
      exact hstart.openWindow_eq self key limit nowMs time other htime
    | some entry =>
      rw [hopen self key limit nowMs entry hfound]
      exact openWindow_insert self.windowMs self.windows key other _ time

theorem check_of_closed (h : openWindow self.windowMs self.windows nowMs key = none) :
    self.check key limit nowMs = self.startWindow key limit nowMs := by
  unfold Limiter.check
  split
  next => rfl
  next entry hget =>
    by_cases hexpired : self.windowMs ≤ nowMs - entry.start
    · rw [if_pos hexpired]
    · rw [openWindow_eq_some hget hexpired] at h
      cases h

theorem stored_of_open (h : openWindow windowMs windows nowMs key = some entry) :
    windows.get key = some entry ∧ ¬ windowMs ≤ nowMs - entry.start := by
  obtain ⟨hget, hopen⟩ := Option.filter_eq_some_iff.mp h
  have hlt := Window.isOpen_iff.mp hopen
  exact ⟨hget, by omega⟩

theorem check_of_open (h : openWindow self.windowMs self.windows nowMs key = some entry) :
    self.check key limit nowMs = self.countRequest key entry limit nowMs := by
  obtain ⟨hget, hopen⟩ := stored_of_open h
  unfold Limiter.check
  rw [hget]
  dsimp only
  rw [if_neg hopen]

theorem check_counts : Counts Limiter.check :=
  Counts.of_branches startWindow_starts (fun _ _ _ _ h => check_of_closed h)
    (fun _ _ _ _ _ h => check_of_open h)

theorem checkUnpruned_counts : Counts checkUnpruned := by
  refine Counts.of_branches startWindowUnpruned_starts ?_ ?_
  · intro self key limit nowMs h
    unfold checkUnpruned
    split
    next => rfl
    next entry hget =>
      by_cases hexpired : self.windowMs ≤ nowMs - entry.start
      · rw [if_pos hexpired]
      · rw [openWindow_eq_some hget hexpired] at h
        cases h
  · intro self key limit nowMs entry h
    obtain ⟨hget, hopen⟩ := stored_of_open h
    unfold checkUnpruned
    rw [hget]
    dsimp only
    rw [if_neg hopen]

/-- The windows of a limiter with these settings, as a store. -/
def Counts.store {check : Limiter → String → Int → Int → Verdict × Limiter} (h : Counts check)
    (windowMs maxEntries limit : Int) : Store String (HashMap String Window) windowMs where
  openWindow := openWindow windowMs
  record windows call := (check ⟨windowMs, maxEntries, windows⟩ call.key limit call.time).2.windows
  openWindow_record windows call time other htime :=
    h.openWindow_eq ⟨windowMs, maxEntries, windows⟩ call.key limit call.time time other htime

/-- What the log of the store says about a call. -/
def toServed (limit windowMs : Int) (entry : Entry String) : Served :=
  ⟨entry.call, verdict limit windowMs entry.call.time entry.found⟩

theorem Counts.serve_eq (h : Counts check) (windowMs maxEntries limit : Int)
    (windows : HashMap String Window) (calls : List (Call String)) :
    serve check limit ⟨windowMs, maxEntries, windows⟩ calls
      = (((h.store windowMs maxEntries limit).log windows calls).map (toServed limit windowMs),
          ⟨windowMs, maxEntries, (h.store windowMs maxEntries limit).after windows calls⟩) := by
  induction calls generalizing windows with
  | nil => rfl
  | cons call rest ih =>
    unfold serve
    dsimp only
    rw [h.limits, h.verdict_eq, ih]
    rfl

/-! ### Stored windows -/

/-- The other keys with an open window. -/
def othersOpen (self : Limiter) (key : String) (nowMs : Int) : Nat :=
  (self.windows.entries.filter fun entry =>
    decide (entry.1 ≠ key) && entry.2.isOpen self.windowMs nowMs).length

/-- The call finds no open window of its key. -/
def StartsWindow (self : Limiter) (call : Call String) : Prop :=
  openWindow self.windowMs self.windows call.time call.key = none

theorem size_insert_of_mem (h : key ∈ windows.keys) (entry : Window) :
    (windows.insert key entry).entries.length = windows.entries.length := by
  have hkeys : (windows.insert key entry).keys = key :: windows.keys.erase key :=
    AList.keys_insert windows
  have hlength := congrArg List.length hkeys
  rw [List.length_cons, List.length_erase_of_mem h] at hlength
  have hpos := List.length_pos_of_mem h
  simp only [AList.keys, List.keys, List.length_map] at hlength hpos
  omega

/-- A call in an open window stores no more windows. -/
theorem size_countRequest (h : self.windows.get key = some entry) :
    (self.countRequest key entry limit nowMs).2.size = self.size := by
  have hmem : key ∈ self.windows.keys := by
    rw [HashMap.mem_keys_iff, HashMap.containsKey, h]
    rfl
  exact size_insert_of_mem hmem _

/-- After a call that starts a window, the stored windows fit, or none of them had expired. -/
theorem size_startWindow (self : Limiter) (key : String) (limit nowMs : Int) :
    ((self.startWindow key limit nowMs).2.size : Int) ≤
      max self.maxEntries (1 + othersOpen (self.startWindow key limit nowMs).2 key nowMs) := by
  unfold Limiter.startWindow
  dsimp only
  split
  next =>
    set kept := (self.prune nowMs).windows.entries.kerase key with hkept
    have hopen : ∀ entry ∈ kept,
        (decide (entry.1 ≠ key) && entry.2.isOpen self.windowMs nowMs) = true := by
      intro entry hentry
      have hother : entry.1 ≠ key := by
        rintro rfl
        exact List.notMem_keys_kerase entry.1 (self.prune nowMs).windows.nodupKeys
          (List.mem_map_of_mem hentry)
      have hpruned := (List.kerase_sublist key _).subset hentry
      have hkeep := (List.mem_filter.mp hpruned).2
      rw [Bool.and_eq_true, Window.isOpen_iff]
      refine ⟨decide_eq_true hother, ?_⟩
      simpa using hkeep
    have hothers : othersOpen { self.prune nowMs with
        windows := (self.prune nowMs).windows.insert key ⟨nowMs, 1⟩ } key nowMs = kept.length := by
      show ((⟨key, ⟨nowMs, 1⟩⟩ :: kept).filter _).length = kept.length
      rw [List.filter_cons_of_neg (by simp)]
      exact congrArg List.length (List.filter_eq_self.mpr hopen)
    rw [hothers]
    show ((kept.length + 1 : Nat) : Int) ≤ _
    omega
  next hroom =>
    have hsize : (self.windows.entries.kerase key).length ≤ self.size :=
      (List.kerase_sublist key _).length_le
    show (((self.windows.entries.kerase key).length + 1 : Nat) : Int) ≤ _
    omega

/-! ### Runs -/

/-- The calls that a new limiter serves, and the limiter after them. -/
def run (windowMs maxEntries limit : Int) (calls : List (Call String)) : List Served × Limiter :=
  serve Limiter.check limit (createFixedWindowLimiter windowMs maxEntries) calls

theorem serve_snoc (limit : Int) (self : Limiter) (front : List (Call String))
    (last : Call String) :
    (serve Limiter.check limit self (front ++ [last])).2
      = ((serve Limiter.check limit self front).2.check last.key limit last.time).2 := by
  induction front generalizing self with
  | nil => rfl
  | cons call front ih => exact ih (self.check call.key limit call.time).2

theorem run_eq (windowMs maxEntries limit : Int) (calls : List (Call String)) :
    run windowMs maxEntries limit calls
      = (((check_counts.store windowMs maxEntries limit).log ∅ calls).map
            (toServed limit windowMs),
          ⟨windowMs, maxEntries, (check_counts.store windowMs maxEntries limit).after ∅ calls⟩) :=
  check_counts.serve_eq windowMs maxEntries limit ∅ calls

/-- As many windows are stored as after some call that started one, when they fitted or none of
them had expired. -/
theorem stored_le (windowMs maxEntries limit : Int) (hcalls : calls ≠ []) :
    ∃ front last, front ++ [last] <+: calls
      ∧ StartsWindow (run windowMs maxEntries limit front).2 last
      ∧ (run windowMs maxEntries limit calls).2.size
        = (run windowMs maxEntries limit (front ++ [last])).2.size
      ∧ ((run windowMs maxEntries limit calls).2.size : Int)
        ≤ max maxEntries (1 + othersOpen (run windowMs maxEntries limit (front ++ [last])).2
            last.key last.time) := by
  induction calls using List.reverseRecOn with
  | nil => exact absurd rfl hcalls
  | append_singleton front last ih =>
    have hsnoc : (run windowMs maxEntries limit (front ++ [last])).2
        = ((run windowMs maxEntries limit front).2.check last.key limit last.time).2 :=
      serve_snoc limit _ front last
    cases hfound : openWindow (run windowMs maxEntries limit front).2.windowMs
        (run windowMs maxEntries limit front).2.windows last.time last.key with
    | none =>
      refine ⟨front, last, List.prefix_rfl, hfound, rfl, ?_⟩
      have hmax : (run windowMs maxEntries limit front).2.maxEntries = maxEntries := by
        rw [run_eq]
      have hsize := size_startWindow (run windowMs maxEntries limit front).2 last.key limit
        last.time
      rw [hmax] at hsize
      rw [hsnoc, check_of_closed hfound]
      exact hsize
    | some entry =>
      have hsize : (run windowMs maxEntries limit (front ++ [last])).2.size
          = (run windowMs maxEntries limit front).2.size := by
        rw [hsnoc, check_of_open hfound]
        exact size_countRequest (stored_of_open hfound).1
      have hfront : front ≠ [] := by
        rintro rfl
        cases hfound
      obtain ⟨before, first, hinitial, hstarts, hsame, hle⟩ := ih hfront
      refine ⟨before, first, hinitial.trans (List.prefix_append _ _), hstarts, ?_, ?_⟩
      · rw [hsize, hsame]
      · rw [hsize]
        exact hle

/-- An allowed call of the key in the interval. -/
def allowedIn (key : String) (start stop : Int) (served : Served) : Bool :=
  decide (served.call.key = key ∧ start ≤ served.call.time ∧ served.call.time ≤ stop
    ∧ served.verdict = .allowed)

theorem allowedIn_toServed (key : String) (start stop limit windowMs : Int) (entry : Entry String) :
    allowedIn key start stop (toServed limit windowMs entry)
      = entry.within limit key start stop := by
  unfold allowedIn Entry.within
  rw [decide_eq_decide]
  show _ ∧ _ ∧ _ ∧ verdict limit windowMs entry.call.time entry.found = .allowed ↔ _
  rw [verdict_eq_allowed]
  rfl

/-- An interval shorter than a window lets through twice the limit at most. -/
theorem allowed_le (hlimit : 1 ≤ limit)
    (htimes : calls.Pairwise fun call later => call.time ≤ later.time) {now : Int}
    (hnow : ∀ call ∈ calls, now ≤ call.time) (key : String) {start stop : Int}
    (hshort : stop - start < windowMs) :
    (((run windowMs maxEntries limit calls).1.countP (allowedIn key start stop) : Nat) : Int)
      ≤ 2 * limit := by
  have hzero : (check_counts.store windowMs maxEntries limit).Bounded limit key start stop ∅ now
      0 := Store.Bounded.zero hlimit ∅ now
  have hcount := Store.countP_log_le hzero hlimit hshort htimes hnow
  have hsame : allowedIn key start stop ∘ toServed limit windowMs
      = fun entry => entry.within limit key start stop :=
    funext (allowedIn_toServed key start stop limit windowMs)
  rw [Nat.zero_add] at hcount
  rw [run_eq, List.countP_map, hsame]
  exact hcount

/-- Who waits as long as the rejection says, and does not ask in between, is allowed. -/
theorem allowed_after_wait (hlimit : 1 ≤ limit)
    (htimes : calls.Pairwise fun call later => call.time ≤ later.time)
    {front between behind : List Served} {rejected again : Served} {retryAfterSeconds : Int}
    (hserved : (run windowMs maxEntries limit calls).1
      = front ++ rejected :: (between ++ again :: behind))
    (hrejected : rejected.verdict = .rejected retryAfterSeconds)
    (hkey : again.call.key = rejected.call.key)
    (hbetween : ∀ other ∈ between, other.call.key ≠ rejected.call.key)
    (hwait : rejected.call.time + 1000 * retryAfterSeconds ≤ again.call.time) :
    again.verdict = .allowed := by
  rw [run_eq] at hserved
  obtain ⟨before, fromFirst, hlog, rfl, hfirst⟩ := List.map_eq_append_iff.mp hserved
  obtain ⟨first, afterFirst, rfl, rfl, hafter⟩ := List.map_eq_cons_iff.mp hfirst
  obtain ⟨middle, fromSecond, rfl, rfl, hsecond⟩ := List.map_eq_append_iff.mp hafter
  obtain ⟨second, afterSecond, rfl, rfl, -⟩ := List.map_eq_cons_iff.mp hsecond
  have hover : first.window.start + windowMs ≤ second.call.time :=
    Int.le_trans (verdict_eq_rejected hlimit hrejected) hwait
  have hfound : second.found = none :=
    Store.found_closed htimes hlog hkey
      (fun entry hentry => hbetween _ (List.mem_map_of_mem hentry)) hover
  show verdict limit windowMs second.call.time second.found = .allowed
  rw [hfound]
  exact if_pos hlimit

end Herden.Proofs.RateLimit
