import PeerOverlay.Table

/-!
# Timers

Timers are set under a key and deliver an event when they are due, once or
periodically.  A key stands for at most one timer: setting another one under
it, or clearing it, stops the timer that it stands for.  Taking a key makes it
stand for nothing, but lets the timer run.

Time is in whole milliseconds.  A timer begins to wait when it is set, and a
periodic one begins to wait again whenever it rings.
-/

namespace PeerOverlay

structure Alarm (ε : Type) where
  /-- Tells this timer from every other one. -/
  number : Nat
  /-- Timers that are due at the same time ring in the order of their ranks. -/
  rank : Nat
  due : Nat
  /-- How long after ringing a periodic timer rings again. -/
  period : Option Nat
  event : ε
  deriving Repr

structure Timers (κ ε : Type) where
  /-- The number of the timer that a key stands for. -/
  registered : Table κ Nat
  running : List (Alarm ε)
  /-- Above all numbers and ranks in use. -/
  next : Nat

namespace Timers

variable {κ ε : Type} [DecidableEq κ]

def empty : Timers κ ε where
  registered := .empty
  running := []
  next := 0

def stop (timers : Timers κ ε) (number : Nat) : Timers κ ε :=
  { timers with running := timers.running.filter (·.number ≠ number) }

/-- Make a key stand for nothing and stop the timer that it stood for. -/
def clear (timers : Timers κ ε) (key : κ) : Timers κ ε :=
  match timers.registered.get? key with
  | none => timers
  | some number =>
      { timers.stop number with registered := timers.registered.erase key }

/-- The longest wait that is counted from the moment at which it begins: thirty
years of 365 days, in milliseconds. -/
def longestWait : Nat := 30 * 365 * 24 * 60 * 60 * 1000

/-- Set a timer.  A periodic timer whose period is zero never rings. -/
def set (timers : Timers κ ε) (key : κ) (now delay : Nat) (periodic : Bool) (event : ε) :
    Timers κ ε :=
  let kept :=
    match timers.registered.get? key with
    | none => timers.running
    | some number => (timers.stop number).running
  let alarm : Alarm ε := {
    number := timers.next
    rank := timers.next
    due := now + delay
    period := if periodic then some delay else none
    event := event
  }
  {
    registered := timers.registered.insert key timers.next
    running := if periodic ∧ delay = 0 then kept else kept ++ [alarm]
    next := timers.next + 1
  }

/-- Deliver an event once after a delay, at the latest after the longest wait. -/
def setTimeout (timers : Timers κ ε) (key : κ) (now delay : Nat) (event : ε) : Timers κ ε :=
  timers.set key now (min delay longestWait) false event

/-- Deliver an event after every period, first after one period. -/
def setInterval (timers : Timers κ ε) (key : κ) (now period : Nat) (event : ε) :
    Timers κ ε :=
  timers.set key now period true event

/-- Make a key stand for nothing, and tell whether it stood for a timer. -/
def takeFired (timers : Timers κ ε) (key : κ) : Bool × Timers κ ε :=
  (timers.registered.contains key,
    { timers with registered := timers.registered.erase key })

def isSet (timers : Timers κ ε) (key : κ) : Bool :=
  timers.registered.contains key

def clearAll (timers : Timers κ ε) : Timers κ ε :=
  { timers with
    registered := .empty
    running :=
      timers.running.filter fun alarm => !timers.registered.values.contains alarm.number }

def size (timers : Timers κ ε) : Nat :=
  timers.registered.size

/-! ## What the keys stand for -/

theorem isSet_set (timers : Timers κ ε) (key : κ) (now delay : Nat) (periodic : Bool)
    (event : ε) (tested : κ) :
    (timers.set key now delay periodic event).isSet tested =
      (tested = key || timers.isSet tested) := by
  simp only [set, isSet, Table.contains, Table.get?_insert, eq_comm (a := key)]
  by_cases same : tested = key <;> simp [same]

theorem isSet_clear (timers : Timers κ ε) (key tested : κ) :
    (timers.clear key).isSet tested = (tested ≠ key && timers.isSet tested) := by
  unfold clear
  split
  · next absent =>
      by_cases same : tested = key
      · subst same
        simp [isSet, Table.contains, absent]
      · simp [same]
  · simp only [isSet, Table.contains, Table.get?_erase, eq_comm (a := key)]
    by_cases same : tested = key <;> simp [same]

theorem isSet_takeFired (timers : Timers κ ε) (key tested : κ) :
    (timers.takeFired key).2.isSet tested = (tested ≠ key && timers.isSet tested) := by
  simp only [takeFired, isSet, Table.contains, Table.get?_erase, eq_comm (a := key)]
  by_cases same : tested = key <;> simp [same]

theorem isSet_clearAll (timers : Timers κ ε) (tested : κ) :
    timers.clearAll.isSet tested = false := rfl

/-! ## Ringing -/

omit [DecidableEq κ] in
def nextDue? (timers : Timers κ ε) : Option Nat :=
  timers.running.foldl
    (fun earliest alarm => some (earliest.elim alarm.due (min alarm.due)))
    none

omit [DecidableEq κ] in
/-- The timers that are due, in the order in which they ring. -/
def dueAlarms (timers : Timers κ ε) (now : Nat) : List (Alarm ε) :=
  (timers.running.filter (·.due ≤ now)).mergeSort fun first second =>
    first.due < second.due ∨ (first.due = second.due ∧ first.rank ≤ second.rank)

omit [DecidableEq κ] in
/-- Let the timer with a number ring.  A timer that was stopped stays silent, and
a periodic one rings again after its period or the longest wait. -/
def ring (timers : Timers κ ε) (number now : Nat) : Option ε × Timers κ ε :=
  match timers.running.find? (·.number = number) with
  | none => (none, timers)
  | some alarm =>
      let others := timers.running.filter (·.number ≠ number)
      match alarm.period with
      | none => (some alarm.event, { timers with running := others })
      | some period =>
          let again := { alarm with due := now + min period longestWait, rank := timers.next }
          (some alarm.event,
            { timers with running := others ++ [again], next := timers.next + 1 })

omit [DecidableEq κ] in
/-- Let the given timers ring at a time; the events that they deliver. -/
def ringAll (timers : Timers κ ε) (now : Nat) : List (Alarm ε) → List (Nat × ε) × Timers κ ε
  | [] => ([], timers)
  | alarm :: rest =>
      let (event, timers) := timers.ring alarm.number now
      let (events, timers) := ringAll timers now rest
      (event.toList.map (fun event => (now, event)) ++ events, timers)

omit [DecidableEq κ] in
/-- Let time pass up to a moment: every timer rings when it is due.  Each round
moves to a later time, so no more rounds are needed than there is time. -/
def advance (timers : Timers κ ε) (until_ : Nat) : Nat → List (Nat × ε) × Timers κ ε
  | 0 => ([], timers)
  | rounds + 1 =>
      match timers.nextDue? with
      | none => ([], timers)
      | some due =>
          if due ≤ until_ then
            let (events, timers) := timers.ringAll due (timers.dueAlarms due)
            let (later, timers) := advance timers until_ rounds
            (events ++ later, timers)
          else
            ([], timers)

omit [DecidableEq κ] in
/-- Let time pass from one moment to another; the events that are delivered,
each with its time. -/
def pass (timers : Timers κ ε) (now duration : Nat) : List (Nat × ε) × Timers κ ε :=
  timers.advance (now + duration) (duration + 1)

end Timers

end PeerOverlay
