/-!
# `Herden.Glasses.Renderer`: last-frame-wins rendering

Embedding of `LatestFrameRenderer` (`glasses/app/src/renderer.ts`). A caller publishes a frame and
does not wait. One drain at a time writes the newest frame; a write that outlasts its timeout is
given up, but the SDK cannot cancel it, and it may still paint the lens later.

The code runs from one `await` to the next without interruption. A write is started, takes effect on
the lens, and resolves; it times out if its drain still waits for it. What follows a resolved or
timed-out write happens with it, since the drain looks at nothing another step could change in
between. The end of a drain and the reaction that clears `#active` are two steps.

Writes never reject and a rebuild succeeds. `rebuild` says whether the caller gave a hook.
`onError` and `onRendered` only keep statistics and are left out.

`Renderer.lens` is the frame of the write that took effect last. It and `Renderer.lastRequest` are
kept for the proofs, as are the writes that are through.
-/

namespace Herden.Glasses.Renderer

structure DesiredFrame (Frame : Type) where
  revision : Nat
  frame : Frame

/-- A call of `options.write`. `late` means that its drain has given it up. -/
structure Write (Frame : Type) where
  revision : Nat
  frame : Frame
  effected : Bool
  resolved : Bool
  late : Bool

/-- Where the active drain is. -/
inductive Drain where
  /-- At the first `#write`. -/
  | first (write : Nat)
  /-- At a `#write` of the loop. -/
  | next (write : Nat)
  | rebuilding
  /-- At the `#write` after the rebuild. -/
  | retry (write : Nat)
  /-- Returned; the reaction that clears `#active` has not run. -/
  | ended

/-- The write it waits for. -/
def Drain.awaits : Drain → Option Nat
  | .first write => some write
  | .next write => some write
  | .retry write => some write
  | .rebuilding => none
  | .ended => none

/-- The fields of `LatestFrameRenderer`. `rendered` is `#rendered` where `#hasRendered` holds. -/
structure LatestFrameRenderer (Frame : Type) where
  desired : Option (DesiredFrame Frame)
  revision : Nat
  attemptedRevision : Nat
  rendered : Option Frame
  active : Option Drain
  writes : List (Write Frame)
  lens : Option Frame
  lastRequest : Option Frame

namespace LatestFrameRenderer

variable {Frame : Type}

def new : LatestFrameRenderer Frame where
  desired := none
  revision := 0
  attemptedRevision := 0
  rendered := none
  active := none
  writes := []
  lens := none
  lastRequest := none

/-- The beginning of `#write`, up to its `await`. `place` is where the drain waits for it. -/
def write (s : LatestFrameRenderer Frame) (desired : DesiredFrame Frame) (place : Nat → Drain) :
    LatestFrameRenderer Frame :=
  { s with
    attemptedRevision := desired.revision
    active := some (place s.writes.length)
    writes := s.writes ++
      [{ revision := desired.revision, frame := desired.frame, effected := false,
         resolved := false, late := false }] }

/-- `#start`, with `#drain` up to its first `await`. -/
def start (s : LatestFrameRenderer Frame) : LatestFrameRenderer Frame :=
  if s.active.isSome then s
  else
    match s.desired with
    | none => { s with active := some .ended }
    | some desired => s.write desired .first

/-- `this.#desired = { revision: ++this.#revision, frame }`. -/
def setDesired (s : LatestFrameRenderer Frame) (frame : Frame) : LatestFrameRenderer Frame :=
  { s with
    revision := s.revision + 1
    desired := some { revision := s.revision + 1, frame := frame } }

/-- The two tests that drop a request. -/
def skips [DecidableEq Frame] (s : LatestFrameRenderer Frame) (frame : Frame) : Bool :=
  (s.active.isSome && s.desired.any (fun desired => desired.frame = frame)) ||
    (s.active.isNone && s.rendered = some frame)

def request [DecidableEq Frame] (s : LatestFrameRenderer Frame) (frame : Frame) :
    LatestFrameRenderer Frame :=
  let s := { s with lastRequest := some frame }
  if s.skips frame then s else (s.setDesired frame).start

def setWrite (s : LatestFrameRenderer Frame) (index : Nat) (write : Write Frame) :
    LatestFrameRenderer Frame :=
  { s with writes := s.writes.set index write }

/-- A write paints the lens. -/
def effect (s : LatestFrameRenderer Frame) (index : Nat) : Option (LatestFrameRenderer Frame) :=
  match s.writes[index]? with
  | none => none
  | some write =>
      if write.effected then none
      else some { s.setWrite index { write with effected := true } with lens := some write.frame }

def reassertAfterLateWrite (s : LatestFrameRenderer Frame) (stale : Nat) :
    LatestFrameRenderer Frame :=
  match s.desired with
  | none => s
  | some latest =>
      if latest.revision ≤ stale then s else (s.setDesired latest.frame).start

/-- `while (this.#desired && this.#desired.revision > desired.revision)`, with what follows its
test. -/
def loop (s : LatestFrameRenderer Frame) (revision : Nat) : LatestFrameRenderer Frame :=
  match s.desired with
  | none => { s with active := some .ended }
  | some desired =>
      if desired.revision > revision then s.write desired .next
      else { s with active := some .ended }

/-- A write that has painted the lens resolves. If it was given up, the newest frame is asserted
again; otherwise its drain goes on. -/
def resolve (s : LatestFrameRenderer Frame) (index : Nat) : Option (LatestFrameRenderer Frame) :=
  match s.writes[index]? with
  | none => none
  | some write =>
      if write.effected && !write.resolved then
        let s := s.setWrite index { write with resolved := true }
        if write.late then some (s.reassertAfterLateWrite write.revision)
        else if s.active.bind Drain.awaits = some index then
          let s := { s with rendered := some write.frame }
          match s.active with
          | some (.retry _) => some { s with active := some .ended }
          | _ => some (s.loop write.revision)
        else none
      else none

/-- The drain gives up the write it waits for. -/
def timeout (rebuild : Bool) (s : LatestFrameRenderer Frame) : Option (LatestFrameRenderer Frame) :=
  match s.active with
  | none => none
  | some drain =>
      match drain.awaits with
      | none => none
      | some index =>
          match s.writes[index]? with
          | none => none
          | some write =>
              let s := s.setWrite index { write with late := true }
              match drain with
              | .first _ =>
                  if rebuild then some { s with active := some .rebuilding }
                  else some { s with active := some .ended }
              | _ => some { s with active := some .ended }

/-- The rebuild has succeeded: one retry, of the newest frame. -/
def rebuilt (s : LatestFrameRenderer Frame) : Option (LatestFrameRenderer Frame) :=
  match s.active with
  | some .rebuilding =>
      match s.desired with
      | none => some { s with active := some .ended }
      | some desired => some (s.write desired .retry)
  | _ => none

/-- The reaction to the end of a drain. -/
def finish (s : LatestFrameRenderer Frame) : Option (LatestFrameRenderer Frame) :=
  match s.active with
  | some .ended =>
      let s := { s with active := none }
      if s.desired.any (fun desired => desired.revision > s.attemptedRevision) then some s.start
      else some s
  | _ => none

/-- What can happen next. -/
inductive Op (Frame : Type) where
  | request (frame : Frame)
  | effect (write : Nat)
  | resolve (write : Nat)
  | timeout
  | rebuilt
  | finish

def step [DecidableEq Frame] (rebuild : Bool) (s : LatestFrameRenderer Frame) :
    Op Frame → Option (LatestFrameRenderer Frame)
  | .request frame => some (s.request frame)
  | .effect index => s.effect index
  | .resolve index => s.resolve index
  | .timeout => s.timeout rebuild
  | .rebuilt => s.rebuilt
  | .finish => s.finish

/-- The step as a machine without answers. -/
def machine [DecidableEq Frame] (rebuild : Bool) (s : LatestFrameRenderer Frame)
    (op : Op Frame) : Option (LatestFrameRenderer Frame × Unit) :=
  (s.step rebuild op).map (fun t => (t, ()))

end LatestFrameRenderer

end Herden.Glasses.Renderer
