import PeerOverlay.Network.Act

/-!
# Running a network

Tasks come up one by one and are done in that order, each as long as it is
enabled.  A task that does a lot makes way for the others in between.  When
nothing is left to be done, time passes to the moment at which the next timer is
due.
-/

namespace PeerOverlay.Network

/-- Let the tasks that have come up wait behind those that wait already. -/
def gather (network : Network) : Network :=
  let waiting := network.ready ++ network.yielded
  let added := network.enabledTasks.filter fun task => !waiting.contains task
  { network with ready := network.ready ++ added }

/-! ## Making way -/

/-- The effort after which a task makes way for the others. -/
def longestEffort : Nat := 128

/-- The effort of one step of an agent.  An agent that was left alone finds that
out again whenever it looks for a message. -/
def effortOfAgent (released : Bool) : Agent.Task → Nat
  | .start => 0
  | .message _ _ => if released then 2 else 1
  | .finish true => if released then 2 else 1
  | .finish false => 1
  | .alarm _ _ => 1
  | .relay _ _ => 1

def effortOf (network : Network) : Task → Nat
  | .agent link =>
      let released := (network.agents.get? link).any (·.agent.released)
      (network.agentTask? link).elim 0 (effortOfAgent released)
  | _ => 1

/-- Whether the first task can take another step before it makes way. -/
def mayGoOn (network : Network) (task : Task) : Bool :=
  network.effort + network.effortOf task ≤ longestEffort

def goOn (network : Network) (task : Task) : Network :=
  let effort := network.effort + network.effortOf task
  { (network.act (.plain network.turns) task).gather with effort := effort }

/-- The first task makes way until all others are done. -/
def makeWay (network : Network) (task : Task) (others : List Task) : Network :=
  { network with ready := others, yielded := task :: network.yielded, effort := 0 }

/-- Nothing is left of the first task. -/
def dismiss (network : Network) (others : List Task) : Network :=
  { network with ready := others, effort := 0 }

/-- The tasks that have made way come up again. -/
def resume (network : Network) : Network :=
  { network with ready := network.yielded, yielded := [] }

/-- Do what can be done at this moment, in a number of steps at most. -/
def settleWithin : Nat → Network → Network
  | 0, network => network
  | steps + 1, network =>
      match network.ready with
      | [] =>
          if network.yielded.isEmpty then network else settleWithin steps network.resume
      | task :: others =>
          if !network.isEnabled task then
            settleWithin steps (network.dismiss others)
          else if network.mayGoOn task then
            settleWithin steps (network.goOn task)
          else
            settleWithin steps (network.makeWay task others)

def patience : Nat := 1000000

def settle (network : Network) : Network :=
  settleWithin patience network.gather

def nextDue? (network : Network) : Option Nat :=
  network.timers.foldl
    (fun earliest pending => some (earliest.elim pending.due (min pending.due)))
    none

/-- Let time pass up to a moment, stopping whenever a timer is due, at most a
number of times. -/
def passTo (moment : Nat) : Nat → Network → Network
  | 0, network => { network with now := moment }.settle
  | stops + 1, network =>
      match network.nextDue? with
      | none => { network with now := moment }.settle
      | some due =>
          if moment < due then
            { network with now := moment }.settle
          else
            passTo moment stops { network with now := max network.now due }.settle

/-- Let a duration pass, once nothing is left to be done at this moment.  Each
stop is at a later time, so there are no more stops than milliseconds. -/
def pass (network : Network) (duration : Nat) : Network :=
  passTo (network.now + duration) (duration + 1) network.settle

end PeerOverlay.Network
