import PeerOverlay.AddressBook.Book
import PeerOverlay.Chain
import PeerOverlay.Config
import PeerOverlay.Event
import PeerOverlay.Timers

/-!
# The agent of a link

An agent leads one link through the exchange of versions, keeps it alive and
exchanges addresses on it.  A turn of the agent is worked out on the agent, its
link and the events that it tells the manager.
-/

namespace PeerOverlay

/-- How far an agent has come. -/
inductive Agent.Phase where
  /-- The version of this node has not been sent. -/
  | awaitingHandshake
  /-- The version of this node is on its way. -/
  | handshakeInFlight
  | established
  | closed
  deriving DecidableEq, Repr

/-- What an agent waits for. -/
inductive Agent.Alarm where
  | versionRetry
  | versionTimeout
  | connectivity
  | announceAddress
  | pingTimeout (nonce : UInt32)
  deriving DecidableEq, Repr

structure Agent where
  started : Bool
  phase : Agent.Phase
  versionReceived : Bool
  versionSent : Bool
  versionAttempts : Nat
  /-- Messages that came out of order. -/
  discarded : Nat
  peer : Option Peer
  /-- The addresses that the peer knows, and since when. -/
  known : Table Endpoint Nat
  timers : Timers Agent.Alarm Agent.Alarm
  /-- Alarms that have rung and wait to be answered. -/
  rung : List Agent.Alarm
  /-- Addresses that the manager wants to be passed on. -/
  relays : List (List PeerAddress)
  /-- Whether the manager has left the agent alone. -/
  released : Bool

namespace Agent

def new : Agent where
  started := false
  phase := .awaitingHandshake
  versionReceived := false
  versionSent := false
  versionAttempts := 0
  discarded := 0
  peer := none
  known := .empty
  timers := .empty
  rung := []
  relays := []
  released := false

instance : Inhabited Agent := ⟨new⟩

/-- What an agent finds around it when it takes a turn. -/
structure Surroundings where
  config : Config
  chain : Chain
  book : AddressBook
  now : Nat
  /-- The time in milliseconds since 1970. -/
  wallClock : Int64
  /-- A random number for the next ping. -/
  nonce : UInt32
  lots : List Nat

structure Turn where
  agent : Agent
  link : Link
  /-- What the manager is told, in order. -/
  events : List Event

namespace Turn

def emit (turn : Turn) (event : Event) : Turn :=
  { turn with events := turn.events ++ [event] }

/-- Queue a message; whether there was room. -/
def send (turn : Turn) (message : Message) : Bool × Turn :=
  let (queued, link) := turn.link.send message
  (queued, { turn with link := link })

def sendIfRoom (turn : Turn) (message : Message) : Turn :=
  (turn.send message).2

def close (turn : Turn) (reason : String) : Turn :=
  { turn with link := turn.link.close reason }

def update (turn : Turn) (change : Agent → Agent) : Turn :=
  { turn with agent := change turn.agent }

def setTimeout (turn : Turn) (alarm : Alarm) (now delay : Nat) : Turn :=
  turn.update fun agent =>
    { agent with timers := agent.timers.setTimeout alarm now delay alarm }

def setInterval (turn : Turn) (alarm : Alarm) (now period : Nat) : Turn :=
  turn.update fun agent =>
    { agent with timers := agent.timers.setInterval alarm now period alarm }

def clearAlarm (turn : Turn) (alarm : Alarm) : Turn :=
  turn.update fun agent => { agent with timers := agent.timers.clear alarm }

/-- Take a single alarm that has rung; whether it is still wanted. -/
def takeAlarm (turn : Turn) (alarm : Alarm) : Bool × Turn :=
  let (wanted, timers) := turn.agent.timers.takeFired alarm
  (wanted, turn.update fun agent => { agent with timers := timers })

def discard (turn : Turn) : Turn :=
  turn.update fun agent => { agent with discarded := agent.discarded + 1 }

/-- The peer knows some addresses from now on. -/
def noteKnown (turn : Turn) (addresses : List PeerAddress) (now : Nat) : Turn :=
  turn.update fun agent =>
    { agent with
      known := addresses.foldl (fun known address => known.insert address.endpoint now)
        agent.known }

end Turn

end Agent

end PeerOverlay
