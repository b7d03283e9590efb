import PeerOverlay.Network.State

/-!
# Tasks

A task does one thing: a timer rings, a manager handles one event, an agent
takes one step, or a pump moves one message.  A task can be done as long as it
is enabled, and any enabled task may be the next one.
-/

namespace PeerOverlay.Network

/-! ## Which tasks are enabled -/

/-- The link of an agent and what the agent does next. -/
def agentTask? (network : Network) (id : LinkId) : Option Agent.Task :=
  match network.agents.get? id, network.links.get? id with
  | some attendance, some link => attendance.agent.nextTask? link
  | _, _ => none

def pumpMove? (network : Network) (source : LinkId) : Option Pump.Move := do
  let pump ← network.pumps.get? source
  pump.next? (← network.links.get? source) (← network.links.get? pump.target)

/-- Whether the event loop of a node has anything to do. -/
def Member.isBusy (member : Member) : Bool :=
  member.loop == .running &&
    (member.manager.stopped || !member.parts.isEmpty || !member.events.isEmpty ||
      member.checkDue)

def isDue {κ ε : Type} (timers : Timers κ ε) (number now : Nat) : Bool :=
  timers.running.any fun alarm => alarm.number == number && alarm.due ≤ now

def isEnabled (network : Network) : Task → Bool
  | .ring link number =>
      (network.agents.get? link).any fun attendance =>
        isDue attendance.agent.timers number network.now
  | .chime number => isDue network.clock number network.now
  | .manager node => (network.members.get? node).any Member.isBusy
  | .agent link => (network.agentTask? link).isSome
  | .pump source => (network.pumpMove? source).isSome

/-- A timer of a network and the task to let it ring. -/
structure Pending where
  due : Nat
  rank : Nat
  task : Task

def timers (network : Network) : List Pending :=
  let chimes := network.clock.running.map fun alarm =>
    { due := alarm.due, rank := alarm.rank, task := .chime alarm.number }
  network.agents.rows.foldl
    (fun known (link, attendance) =>
      known ++ attendance.agent.timers.running.map fun alarm =>
        { due := alarm.due, rank := alarm.rank, task := .ring link alarm.number })
    chimes

/-- The timers that are due, in the order in which they ring. -/
def dueTimers (network : Network) : List Task :=
  let due := network.timers.filter (·.due ≤ network.now)
  (due.mergeSort fun first second =>
    first.due < second.due ∨ (first.due = second.due ∧ first.rank ≤ second.rank)).map
    Pending.task

/-- All enabled tasks: timers, managers, agents, pumps. -/
def enabledTasks (network : Network) : List Task :=
  network.dueTimers ++
    (network.members.keys.map Task.manager).filter network.isEnabled ++
    (network.agents.keys.map Task.agent).filter network.isEnabled ++
    (network.pumps.keys.map Task.pump).filter network.isEnabled

/-! ## Doing a task -/

def ring (network : Network) (link : LinkId) (number : Nat) : Network :=
  match network.agents.get? link with
  | none => network
  | some attendance =>
      let timers := { attendance.agent.timers with next := network.serial }
      let (alarm, timers) := timers.ring number network.now
      let agent :=
        { attendance.agent with
          timers := timers
          rung := attendance.agent.rung ++ alarm.toList }
      { network with
        serial := timers.next
        agents := network.agents.insert link { attendance with agent := agent } }

/-- A timer of a node rings.  A delayed check is over then. -/
def chime (network : Network) (number : Nat) : Network :=
  let (chime, clock) :=
    { network.clock with next := network.serial }.ring number network.now
  let network := { network with clock := clock, serial := clock.next }
  match chime with
  | none => network
  | some (.delayedCheck node tag) =>
      let clock := network.clock.clear (.delayedCheck node tag)
      { network with clock := clock }.notify node .checkPeerCount
  | some (.periodicCheck node) =>
      network.changeMember node fun member => { member with checkDue := true }

/-- Give up what an event that nobody handles stands for. -/
def discard (network : Network) (event : Event) : Network :=
  match event with
  | .connection link => network.changeLink link Link.abandon
  | _ => network

/-- The event loop of a node is gone, and so are the events that wait. -/
def endLoop (network : Network) (node : NodeName) (member : Member) : Network :=
  (member.events.foldl discard network).changeMember node fun member =>
    { member with events := [], checkDue := false, loop := .stopped }

/-- The event loop of a node comes to its end: the links of the node are closed. -/
def halt (network : Network) (node : NodeName) (member : Member) : Network :=
  let links := network.links.closeAll member.manager.slots.keys "peer manager shutdown"
  let clock := network.clock.clear (.periodicCheck node)
  { network with links := links, clock := clock }.endLoop node member

/-- One step of the event loop of a node: a part of the reaction to an event, or
else the next event is taken. -/
def actManager (choices : Choices) (network : Network) (node : NodeName) (member : Member) :
    Network :=
  let around := network.managerSurroundings member choices
  let turn := Manager.Turn.start member.manager network.links
  match member.parts, member.events with
  | part :: others, _ =>
      let network := network.changeMember node fun member => { member with parts := others }
      network.conclude node (part.perform around turn)
  | [], event :: others =>
      if member.manager.stopped then
        network.halt node member
      else
        let (parts, turn) := Manager.take event turn
        let network := network.changeMember node fun member =>
          { member with events := others, parts := parts }
        network.conclude node turn
  | [], [] =>
      if member.manager.stopped then
        network.halt node member
      else
        network.changeMember node fun member =>
          { member with checkDue := false, parts := [.checkPeerCount] }

/-- One step of an agent.  What it tells its manager waits there. -/
def actAgent (choices : Choices) (network : Network) (attendance : Attendance) (link : Link) :
    Network :=
  match network.members.get? attendance.owner with
  | none => network
  | some member =>
      let around := network.agentSurroundings member choices
      let agent := attendance.agent
      let agent := { agent with timers := { agent.timers with next := network.serial } }
      match agent.step around link with
      | none => network
      | some turn =>
          let network :=
            { network with
              serial := turn.agent.timers.next
              links := network.links.insert link.id turn.link
              agents := network.agents.insert link.id { attendance with agent := turn.agent } }
          turn.events.foldl (fun network event => network.notify attendance.owner event) network

def actPump (network : Network) (id : LinkId) (pump : Pump) (source target : Link) : Network :=
  match pump.next? source target with
  | none => network
  | some move =>
      let turn := pump.perform source target move
      { network with
        links := (network.links.insert id turn.source).insert pump.target turn.target
        pumps :=
          match turn.pump with
          | none => network.pumps.erase id
          | some pump => network.pumps.insert id pump }

def perform (choices : Choices) (network : Network) : Task → Network
  | .ring link number => network.ring link number
  | .chime number => network.chime number
  | .manager node =>
      match network.members.get? node with
      | none => network
      | some member => network.actManager choices node member
  | .agent id =>
      match network.agents.get? id, network.links.get? id with
      | some attendance, some link => network.actAgent choices attendance link
      | _, _ => network
  | .pump id =>
      match network.pumps.get? id, network.links.get? id with
      | some pump, some source =>
          match network.links.get? pump.target with
          | none => network
          | some target => network.actPump id pump source target
      | _, _ => network

/-- Do a task and note that it is done. -/
def act (choices : Choices) (network : Network) (task : Task) : Network :=
  let network := network.perform choices task
  { network with turns := network.turns + 1 }

end PeerOverlay.Network
