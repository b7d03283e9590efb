import Mathlib.Data.List.Induction
import PeerOverlay.Proofs.Timers.Passing

/-!
# Timers in use

Timers are set, cleared and taken while time passes.  Whether a key is set can be read off what was
done under it last: a key is set from the moment at which a timer is set under it until it is
cleared or taken, whether the timer has rung or not.
-/

namespace PeerOverlay.Timers

variable {κ ε : Type} [DecidableEq κ]

/-- What is done with timers.  Timers of both kinds are cleared alike. -/
inductive Use (κ ε : Type) where
  | setTimeout (key : κ) (delay : Nat) (event : ε)
  | setInterval (key : κ) (period : Nat) (event : ε)
  | clear (key : κ)
  | takeFired (key : κ)
  | clearAll
  | pass (duration : Nat)
  deriving DecidableEq, Repr

namespace Use

def sets (use : Use κ ε) (key : κ) : Bool :=
  match use with
  | .setTimeout other _ _ | .setInterval other _ _ => other = key
  | _ => false

/-- Whether the timer that a key stands for is stopped. -/
def stops (use : Use κ ε) (key : κ) : Bool :=
  match use with
  | .setTimeout other _ _ | .setInterval other _ _ | .clear other => other = key
  | .clearAll => true
  | _ => false

/-- Whether a key is made to stand for nothing while its timer runs on. -/
def takes (use : Use κ ε) (key : κ) : Bool :=
  match use with
  | .takeFired other => other = key
  | _ => false

/-- Whether a key no longer stands for the timer that it stood for. -/
def touches (use : Use κ ε) (key : κ) : Bool :=
  use.stops key || use.takes key

omit [DecidableEq κ] in
def duration : Use κ ε → Nat
  | .pass duration => duration
  | _ => 0

theorem touches_of_sets {use : Use κ ε} {key : κ} (sets : use.sets key = true) :
    use.touches key = true := by
  cases use with
  | setTimeout other delay event => exact Bool.or_eq_true_iff.2 (.inl sets)
  | setInterval other period event => exact Bool.or_eq_true_iff.2 (.inl sets)
  | _ => cases sets

section Touches

variable (key other : κ) (time : Nat) (event : ε)

@[simp]
theorem touches_setTimeout :
    (setTimeout other time event).touches key = decide (other = key) := Bool.or_false _

@[simp]
theorem touches_setInterval :
    (setInterval other time event).touches key = decide (other = key) := Bool.or_false _

@[simp]
theorem touches_clear : (clear other : Use κ ε).touches key = decide (other = key) :=
  Bool.or_false _

@[simp]
theorem touches_takeFired : (takeFired other : Use κ ε).touches key = decide (other = key) := rfl

@[simp]
theorem touches_clearAll : (clearAll : Use κ ε).touches key = true := rfl

@[simp]
theorem touches_pass : (pass time : Use κ ε).touches key = false := rfl

end Touches

end Use

/-- Timers, the time, and the events that were delivered, each with its time. -/
structure Clocked (κ ε : Type) where
  timers : Timers κ ε
  now : Nat
  delivered : List (Nat × ε)

namespace Clocked

omit [DecidableEq κ] in
/-- No timer has been set yet. -/
def start (now : Nat) : Clocked κ ε where
  timers := .empty
  now := now
  delivered := []

def use (clocked : Clocked κ ε) : Use κ ε → Clocked κ ε
  | .setTimeout key delay event =>
      { clocked with timers := clocked.timers.setTimeout key clocked.now delay event }
  | .setInterval key period event =>
      { clocked with timers := clocked.timers.setInterval key clocked.now period event }
  | .clear key => { clocked with timers := clocked.timers.clear key }
  | .takeFired key => { clocked with timers := (clocked.timers.takeFired key).2 }
  | .clearAll => { clocked with timers := clocked.timers.clearAll }
  | .pass duration => {
      timers := (clocked.timers.pass clocked.now duration).2
      now := clocked.now + duration
      delivered := clocked.delivered ++ (clocked.timers.pass clocked.now duration).1
    }

def useAll (clocked : Clocked κ ε) (uses : List (Use κ ε)) : Clocked κ ε :=
  uses.foldl use clocked

theorem useAll_concat (clocked : Clocked κ ε) (uses : List (Use κ ε)) (use : Use κ ε) :
    clocked.useAll (uses ++ [use]) = (clocked.useAll uses).use use :=
  List.foldl_append

/-- Whether no timer is late. -/
def Timely (clocked : Clocked κ ε) : Prop :=
  clocked.timers.Timely clocked.now

end Clocked

/-- Whether the use that touched a key last has set a timer under it. -/
def isRegistered (key : κ) (uses : List (Use κ ε)) : Bool :=
  (uses.reverse.find? fun use => use.touches key).any fun use => use.sets key

variable {timers : Timers κ ε} {clocked : Clocked κ ε} {key : κ} {uses later : List (Use κ ε)}
  {now number : Nat}

/-! ## Timers that are set and stopped -/

namespace Timely

/-- Timers that run on, with the keys that they have. -/
theorem of_fewer {fewer : Timers κ ε} (timely : timers.Timely now) (sound : fewer.Sound)
    (running : ∀ alarm ∈ fewer.running, alarm ∈ timers.running) : fewer.Timely now where
  sound := sound
  ahead := fun alarm runs => timely.ahead alarm (running alarm runs)
  waits := fun alarm runs => timely.waits alarm (running alarm runs)

theorem set (timely : timers.Timely now) (key : κ) (delay : Nat) (periodic : Bool) (event : ε) :
    (timers.set key now delay periodic event).Timely now := by
  have cleared : ∀ alarm ∈ (timers.clear key).running, alarm ∈ timers.running :=
    fun alarm runs => (mem_running_clear.1 runs).1
  refine ⟨timely.sound.set key now delay periodic event, ?_, ?_⟩
  · intro alarm runs
    rw [running_set] at runs
    split at runs
    · exact timely.ahead alarm (cleared alarm runs)
    · rcases List.mem_append.1 runs with old | new
      · exact timely.ahead alarm (cleared alarm old)
      · rw [List.mem_singleton.1 new]
        exact Nat.le_add_right _ _
  · intro alarm runs
    rw [running_set] at runs
    split at runs
    · exact timely.waits alarm (cleared alarm runs)
    · next rings =>
        rcases List.mem_append.1 runs with old | new
        · exact timely.waits alarm (cleared alarm old)
        · rw [List.mem_singleton.1 new]
          intro period again
          cases periodic with
          | false => cases again
          | true =>
              cases again
              exact Nat.pos_of_ne_zero fun none_ => rings ⟨rfl, none_⟩

end Timely

namespace Clocked

theorem timely_start (now : Nat) : (start now : Clocked κ ε).Timely :=
  timely_empty now

namespace Timely

theorem use (timely : clocked.Timely) (use : Use κ ε) : (clocked.use use).Timely := by
  cases use with
  | setTimeout key delay event => exact Timers.Timely.set timely key _ false event
  | setInterval key period event => exact Timers.Timely.set timely key period true event
  | clear key =>
      exact Timers.Timely.of_fewer timely (timely.sound.clear key)
        fun alarm runs => (mem_running_clear.1 runs).1
  | takeFired key =>
      exact Timers.Timely.of_fewer timely (timely.sound.takeFired key) fun alarm runs => runs
  | clearAll =>
      exact Timers.Timely.of_fewer timely timely.sound.clearAll
        fun alarm runs => (mem_running_clearAll.1 runs).1
  | pass duration =>
      have passed := (Timers.Timely.elapses_pass timely duration).timely
      exact passed.of_ahead fun alarm runs => Nat.le_of_succ_le (passed.ahead alarm runs)

theorem useAll (timely : clocked.Timely) (uses : List (Use κ ε)) :
    (clocked.useAll uses).Timely := by
  induction uses generalizing clocked with
  | nil => exact timely
  | cons use later hypothesis => exact hypothesis (timely.use use)

end Timely

end Clocked

/-! ## Keys that are set -/

namespace Clocked

/-- A use that touches a key makes it stand for the timer that is set, or for nothing. -/
theorem get?_use (timely : clocked.Timely) (use : Use κ ε) (key : κ) :
    (clocked.use use).timers.registered.get? key =
      if use.touches key then if use.sets key then some clocked.timers.next else none
      else clocked.timers.registered.get? key := by
  cases use with
  | setTimeout other delay event =>
      rw [Clocked.use, setTimeout, get?_set]
      by_cases same : other = key
      · simp [Use.sets, same]
      · simp [same, Ne.symm same]
  | setInterval other period event =>
      rw [Clocked.use, setInterval, get?_set]
      by_cases same : other = key
      · simp [Use.sets, same]
      · simp [same, Ne.symm same]
  | clear other =>
      rw [Clocked.use, get?_clear]
      simp [Use.sets, eq_comm]
  | takeFired other =>
      rw [Clocked.use, get?_takeFired]
      simp [Use.sets, eq_comm]
  | clearAll => rfl
  | pass duration =>
      rw [Clocked.use, (Timers.Timely.elapses_pass timely duration).registered]
      rfl

theorem isSet_use (timely : clocked.Timely) (use : Use κ ε) (key : κ) :
    (clocked.use use).timers.isSet key =
      if use.touches key then use.sets key else clocked.timers.isSet key := by
  rw [isSet, Table.contains, get?_use timely use key]
  cases use.touches key
  · rfl
  · cases use.sets key <;> rfl

end Clocked

theorem isRegistered_concat (uses : List (Use κ ε)) (use : Use κ ε) (key : κ) :
    isRegistered key (uses ++ [use]) =
      if use.touches key then use.sets key else isRegistered key uses := by
  unfold isRegistered
  rw [List.reverse_append, List.reverse_singleton, List.singleton_append, List.find?_cons]
  cases use.touches key <;> rfl

/-- The keys that are set are those that were touched last when a timer was set under them. -/
theorem isSet_useAll (start : Nat) (uses : List (Use κ ε)) (key : κ) :
    ((Clocked.start start).useAll uses).timers.isSet key = isRegistered key uses := by
  induction uses using List.reverseRecOn with
  | nil => rfl
  | append_singleton earlier last hypothesis =>
      have timely := (Clocked.timely_start start).useAll earlier
      rw [isRegistered_concat, ← hypothesis, Clocked.useAll_concat, Clocked.isSet_use timely]

/-- A key under which a timer was set is still set if nothing has touched it since, or if it was
set again. -/
theorem isRegistered_append_cons {use : Use κ ε} (sets : use.sets key = true) :
    isRegistered key (uses ++ use :: later) = true ↔
      (∀ other ∈ later, other.touches key = false) ∨ isRegistered key later = true := by
  unfold isRegistered
  rw [List.reverse_append, List.reverse_cons, List.append_assoc, List.find?_append]
  cases found : later.reverse.find? fun other => other.touches key with
  | none =>
      rw [Option.none_or, List.singleton_append, List.find?_cons, Use.touches_of_sets sets]
      simpa [sets] using found
  | some last =>
      have touched : ¬ ∀ other ∈ later, other.touches key = false := by
        intro untouched
        have member := List.mem_reverse.1 (List.mem_of_find?_eq_some found)
        have touches : last.touches key = true := by simpa using List.find?_some found
        exact Bool.noConfusion ((untouched last member).symm.trans touches)
      simp [touched]

end PeerOverlay.Timers
