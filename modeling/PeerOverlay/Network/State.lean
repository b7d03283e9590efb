import PeerOverlay.Agent.Step
import PeerOverlay.Manager.Handle
import PeerOverlay.Network.Pump

/-!
# Networks of nodes

A network is a number of nodes, each with a manager and its event loop, the
links between them or to the outside, the agents that attend to the links, and
the time.  Whatever can be done at a moment waits as a task.
-/

namespace PeerOverlay

abbrev NodeName := String

namespace Network

/-- How far the event loop of a node has come. -/
inductive Loop where
  | idle
  | running
  | stopped
  deriving DecidableEq, Repr

structure Member where
  manager : Manager
  chain : Chain
  connectors : Connectors
  /-- Events that wait for the manager. -/
  events : List Event
  loop : Loop
  /-- Whether it is time for the periodic check of the number of peers. -/
  checkDue : Bool
  /-- What is left of the reaction to the last event. -/
  parts : List Manager.Part

/-- A node whose event loop has not started. -/
def Member.new (manager : Manager) (chain : Chain) (connectors : Connectors) : Member where
  manager := manager
  chain := chain
  connectors := connectors
  events := []
  loop := .idle
  checkDue := false
  parts := []

/-- Let an event wait for the manager.  After the end of the event loop it is
lost. -/
def Member.notify (member : Member) (event : Event) : Member :=
  if member.loop = .stopped then
    member
  else
    { member with events := member.events ++ [event] }

/-- The agent of a link and its node. -/
structure Attendance where
  agent : Agent
  owner : NodeName

inductive Chime where
  | periodicCheck (node : NodeName)
  | delayedCheck (node : NodeName) (number : Nat)
  deriving DecidableEq, Repr

/-- What can be done at a moment. -/
inductive Task where
  | ring (link : LinkId) (number : Nat)
  | chime (number : Nat)
  | manager (node : NodeName)
  | agent (link : LinkId)
  | pump (source : LinkId)
  deriving DecidableEq, Repr

structure Report where
  node : NodeName
  effect : Manager.Effect
  deriving Repr

/-- What is left to chance in one task. -/
structure Choices where
  /-- The number of the next ping. -/
  nonce : UInt32
  /-- Draws the addresses that answer a query. -/
  queryLots : List Nat
  /-- Draws the address to connect to. -/
  pickLots : List Nat
  /-- Draws the agents that pass addresses on. -/
  relayLots : List Nat

/-- Choices that keep every order, with numbers of pings that are all different. -/
def Choices.plain (turn : Nat) : Choices where
  nonce := UInt32.ofNat ((turn + 1) * 2654435761)
  queryLots := []
  pickLots := []
  relayLots := []

end Network

open Network in
structure Network where
  now : Nat
  /-- The time in milliseconds since 1970 at the start. -/
  epoch : Int64
  /-- Above the numbers and ranks of all timers. -/
  serial : Nat
  turns : Nat
  members : Table NodeName Member
  links : Links
  agents : Table LinkId Attendance
  /-- The pumps, by the links at which they start. -/
  pumps : Table LinkId Pump
  clock : Timers Chime Chime
  /-- Tasks in the order in which they came up. -/
  ready : List Task
  /-- Tasks that have made way for the others, the last one first. -/
  yielded : List Task
  /-- The effort that the first task has made without making way. -/
  effort : Nat
  journal : List Report

namespace Network

def empty (epoch : Int64) : Network where
  now := 0
  epoch := epoch
  serial := 0
  turns := 0
  members := .empty
  links := .empty
  agents := .empty
  pumps := .empty
  clock := .empty
  ready := []
  yielded := []
  effort := 0
  journal := []

def wallClock (network : Network) : Int64 :=
  network.epoch + Int64.ofNat network.now

def changeMember (network : Network) (node : NodeName) (change : Member → Member) : Network :=
  { network with members := network.members.modify node change }

def changeLink (network : Network) (link : LinkId) (change : Link → Link) : Network :=
  { network with links := network.links.modify link change }

def changeAgent (network : Network) (link : LinkId) (change : Agent → Agent) : Network :=
  { network with
    agents := network.agents.modify link fun attendance =>
      { attendance with agent := change attendance.agent } }

def notify (network : Network) (node : NodeName) (event : Event) : Network :=
  network.changeMember node fun member => member.notify event

def attend (network : Network) (node : NodeName) (link : LinkId) : Network :=
  { network with agents := network.agents.insert link ⟨.new, node⟩ }

/-- The agent of a link is asked to pass addresses on.  An agent that has
finished hears nothing. -/
def relay (network : Network) (link : LinkId) (addresses : List PeerAddress) : Network :=
  network.changeAgent link fun agent =>
    if agent.phase = .closed then
      agent
    else
      { agent with relays := agent.relays ++ [addresses] }

/-- The agent of a link is left alone by its manager. -/
def release (network : Network) (link : LinkId) : Network :=
  network.changeAgent link fun agent => { agent with released := true }

def chimeAfter (network : Network) (chime : Chime) (delay : Nat) : Network :=
  let clock := { network.clock with next := network.serial }
  let clock := clock.setTimeout chime network.now delay chime
  { network with clock := clock, serial := clock.next }

def carryOut (node : NodeName) (network : Network) (effect : Manager.Effect) : Network :=
  let network := { network with journal := network.journal ++ [⟨node, effect⟩] }
  match effect with
  | .attend link => network.attend node link
  | .relay link addresses => network.relay link addresses
  | .release link => network.release link
  | .recheck none => network.notify node .checkPeerCount
  | .recheck (some delay) => network.chimeAfter (.delayedCheck node network.serial) delay
  | .dial _ _ _ => network
  | .handSignal _ _ => network
  | .publish _ => network

def managerSurroundings (network : Network) (member : Member) (choices : Choices) :
    Manager.Surroundings where
  now := network.now
  connectors := member.connectors
  pickLots := choices.pickLots
  relayLots := choices.relayLots

def agentSurroundings (network : Network) (member : Member) (choices : Choices) :
    Agent.Surroundings where
  config := member.manager.config
  chain := member.chain
  book := member.manager.book
  now := network.now
  wallClock := network.wallClock
  nonce := choices.nonce
  lots := choices.queryLots

/-- The manager of a node has taken a turn: what it wants is done. -/
def conclude (network : Network) (node : NodeName) (turn : Manager.Turn) : Network :=
  let network := { network with links := turn.links }
  let network := network.changeMember node fun member =>
    { member with manager := turn.manager }
  turn.effects.foldl (carryOut node) network

end Network

end PeerOverlay
