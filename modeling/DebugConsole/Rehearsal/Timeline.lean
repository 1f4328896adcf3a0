set_option autoImplicit false

/-!
# Virtual time

Rehearsals run on a clock that stands still while anything can happen, and then jumps to the next
timer.  `ready` queues what can happen now, in the order in which it became possible.  Some of it is
passed on several times before it happens, and goes to the back of the queue each time.
-/

namespace DebugConsole.Rehearsal

/-- Something that happens later. -/
structure Timer (α : Type) where
  due : Float
  event : α

/-- Something that can happen now. -/
structure Turn (α : Type) where
  event : α
  /-- how often it goes to the back of the queue first -/
  laps : Nat

/-- A clock with what happens now and later. -/
structure Timeline (α : Type) where
  now : Float
  ready : List (Turn α)
  /-- in the order in which they were set -/
  timers : List (Timer α)

namespace Timeline

variable {α : Type}

/-- The clock before anything happens. -/
def start : Timeline α := ⟨0.0, [], []⟩

/-- Something can happen now, after some laps of the queue. -/
def enqueueAfter (t : Timeline α) (laps : Nat) (event : α) : Timeline α :=
  { t with ready := t.ready ++ [⟨event, laps⟩] }

/-- Something can happen now. -/
def enqueue (t : Timeline α) (event : α) : Timeline α := t.enqueueAfter 0 event

/-- Some things can happen now. -/
def enqueueAll (t : Timeline α) (events : List α) : Timeline α := events.foldl enqueue t

/-- Something happens before all else. -/
def enqueueFirst (t : Timeline α) (event : α) : Timeline α :=
  { t with ready := ⟨event, 0⟩ :: t.ready }

/-- Something happens after some seconds.  Where they do not move the clock at all, it happens now,
after everything that is queued has had its turn. -/
def after (t : Timeline α) (seconds : Float) (event : α) : Timeline α :=
  let due := t.now + seconds
  if t.now < due then { t with timers := t.timers ++ [⟨due, event⟩] } else t.enqueueAfter 1 event

/-- When the earliest timer is due. -/
def earliest? : List (Timer α) → Option Float
  | [] => none
  | timer :: rest =>
    match earliest? rest with
    | none => some timer.due
    | some due => some (if due < timer.due then due else timer.due)

/-- The first turn of the queue: what happens in it, if it is not passed on to the back. -/
def next? (t : Timeline α) : Option (Option α × Timeline α) :=
  match t.ready with
  | [] => none
  | ⟨event, 0⟩ :: rest => some (some event, { t with ready := rest })
  | ⟨event, laps + 1⟩ :: rest => some (none, { t with ready := rest ++ [⟨event, laps⟩] })

/-- Moves the clock to the next timers, if they are due at the given time at the latest.  Timers
that are due at one time go off together, before anything that one of them makes possible. -/
def jump? (t : Timeline α) (latest : Float) : Option (Timeline α) :=
  match earliest? t.timers with
  | none => none
  | some due =>
    if due ≤ latest then
      let (now, later) := t.timers.partition fun timer => decide (timer.due ≤ due)
      let ready := t.ready ++ now.map fun timer => ⟨timer.event, 0⟩
      some { now := due, ready, timers := later }
    else none

end Timeline

/-- More events than any rehearsal has: a bound on the loops over them. -/
def eventBound : Nat := 10000000

end DebugConsole.Rehearsal
