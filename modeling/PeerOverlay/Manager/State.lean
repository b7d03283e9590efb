import PeerOverlay.AddressBook.Book
import PeerOverlay.Config
import PeerOverlay.Connector
import PeerOverlay.Event
import PeerOverlay.ForwardStore

/-!
# The manager of a node

A manager admits links, counts them by network address, keeps the wanted number
of connections open, passes addresses on and routes signals.  A turn of the
manager is worked out on the manager, the links and what it wants to be done.
-/

namespace PeerOverlay

/-- A network address that names a physical host. -/
def Manager.countable (netAddress : Option NetAddress) : Option NetAddress :=
  netAddress.filter fun netAddress => !netAddress.isPseudo

/-- What a manager keeps of an admitted link. -/
structure Manager.Slot where
  protocol : Protocol
  /-- Where the transport sees the other end. -/
  observed : Option NetAddress
  /-- The network address under which the link is counted. -/
  countedUnder : Option NetAddress
  peer : Option Peer
  deriving Repr

/-- The slot of a link whose peer is not known yet. -/
def Manager.Slot.ofLink (link : Link) : Manager.Slot where
  protocol := link.protocol
  observed := link.netAddress
  countedUnder := countable link.netAddress
  peer := none

structure Manager where
  config : Config
  book : AddressBook
  slots : Table LinkId Manager.Slot
  /-- The number of links that are counted under each network address. -/
  connectionCounts : Table NetAddress Nat
  /-- The attempts to connect whose outcome is not known. -/
  connectingCount : Nat
  /-- Whether connections are opened without being asked for. -/
  autoConnect : Bool
  /-- What to go back to when the host comes back online. -/
  savedAutoConnect : Bool
  offline : Bool
  /-- Whether the manager was told to stop. -/
  stopped : Bool
  /-- The traffic of links that are gone. -/
  bytesSent : UInt64
  bytesReceived : UInt64
  forwards : ForwardStore

namespace Manager

/-- The manager of a node that has no link yet. -/
def new (config : Config) (book : AddressBook) : Manager where
  config := config
  book := book
  slots := .empty
  connectionCounts := .empty
  connectingCount := 0
  autoConnect := false
  savedAutoConnect := false
  offline := false
  stopped := false
  bytesSent := 0
  bytesReceived := 0
  forwards := .withLimits config.signalStoreCapacity config.signalMaxAge

/-! ## Views -/

def peers (manager : Manager) : List Peer :=
  manager.slots.values.filterMap Slot.peer

def peerCount (manager : Manager) : Nat :=
  manager.peers.length

def hasMaxPeers (manager : Manager) : Bool :=
  manager.config.peerCountMax ≤ manager.peerCount

def peerCountOver (manager : Manager) (protocol : Protocol) : Nat :=
  manager.peers.countP fun peer => peer.address.protocol == protocol

def connectionCount (manager : Manager) (netAddress : NetAddress) : Nat :=
  (manager.connectionCounts.get? netAddress).getD 0

def ownLinks (manager : Manager) (links : Links) : List Link :=
  manager.slots.keys.filterMap links.get?

/-- All bytes that were sent, over links that are gone and links that are not. -/
def totalSent (manager : Manager) (links : Links) : UInt64 :=
  (manager.ownLinks links).foldl (fun total link => total + link.sent) manager.bytesSent

def totalReceived (manager : Manager) (links : Links) : UInt64 :=
  (manager.ownLinks links).foldl (fun total link => total + link.received)
    manager.bytesReceived

/-! ## Counting -/

def count (manager : Manager) (netAddress : NetAddress) : Manager :=
  { manager with
    connectionCounts :=
      manager.connectionCounts.insert netAddress (manager.connectionCount netAddress + 1) }

theorem connectionCount_count (manager : Manager) (netAddress tested : NetAddress) :
    (manager.count netAddress).connectionCount tested =
      manager.connectionCount tested + if tested = netAddress then 1 else 0 := by
  simp only [count, connectionCount, Table.get?_insert, eq_comm (a := netAddress)]
  by_cases same : tested = netAddress <;> simp [same]

def release (manager : Manager) (netAddress : NetAddress) : Manager :=
  { manager with
    connectionCounts :=
      if manager.connectionCount netAddress ≤ 1 then
        manager.connectionCounts.erase netAddress
      else
        manager.connectionCounts.insert netAddress (manager.connectionCount netAddress - 1) }

theorem connectionCount_release (manager : Manager) (netAddress tested : NetAddress) :
    (manager.release netAddress).connectionCount tested =
      manager.connectionCount tested - if tested = netAddress then 1 else 0 := by
  unfold release connectionCount
  split
  · next few =>
      simp only [Table.get?_erase, eq_comm (a := netAddress)]
      by_cases same : tested = netAddress
      · subst same
        simp
        omega
      · simp [same]
  · simp only [Table.get?_insert, eq_comm (a := netAddress)]
    by_cases same : tested = netAddress <;> simp [same]

/-- Give a link a slot, and count it under a network address if there is one. -/
def seat (manager : Manager) (id : LinkId) (slot : Slot) (netAddress : Option NetAddress) :
    Manager :=
  let manager := netAddress.elim manager manager.count
  { manager with slots := manager.slots.insert id slot }

/-- An attempt to connect to an address has come to its outcome, if it was
under way. -/
def finishConnecting (manager : Manager) (address : PeerAddress) : Manager :=
  if manager.book.isConnecting address then
    { manager with connectingCount := manager.connectingCount - 1 }
  else
    manager

/-- The attempt that has opened a link, if there was one, has come to its
outcome. -/
def finishAttempt (manager : Manager) (link : Link) : Manager :=
  link.peerAddress.elim manager manager.finishConnecting

/-! ## Turns -/

inductive Effect where
  /-- An agent attends to a link from now on. -/
  | attend (link : LinkId)
  /-- The agent of a link passes addresses on. -/
  | relay (link : LinkId) (addresses : List PeerAddress)
  /-- The agent of a link is not asked for anything any more. -/
  | release (link : LinkId)
  /-- A connector was asked to connect to an address through a link. -/
  | dial (address : PeerAddress) (via : Option LinkId) (started : Bool)
  /-- A signal for this node goes to the connector. -/
  | handSignal (link : LinkId) (signal : Signal)
  | publish (news : PeerNews)
  /-- The number of peers is checked again, after a delay. -/
  | recheck (delay : Option Nat)
  deriving Repr

/-- What a manager finds around it when it takes a turn. -/
structure Surroundings where
  now : Nat
  connectors : Connectors
  /-- Draws the address to connect to. -/
  pickLots : List Nat
  /-- Draws the agents that pass addresses on. -/
  relayLots : List Nat

structure Turn where
  manager : Manager
  links : Links
  /-- What is to be done, in order. -/
  effects : List Effect

namespace Turn

def start (manager : Manager) (links : Links) : Turn where
  manager := manager
  links := links
  effects := []

def emit (turn : Turn) (effect : Effect) : Turn :=
  { turn with effects := turn.effects ++ [effect] }

def update (turn : Turn) (change : Manager → Manager) : Turn :=
  { turn with manager := change turn.manager }

def updateBook (turn : Turn) (change : AddressBook → AddressBook) : Turn :=
  turn.update fun manager => { manager with book := change manager.book }

def close (turn : Turn) (link : LinkId) (reason : String) : Turn :=
  { turn with links := turn.links.close link reason }

def closeAll (turn : Turn) (reason : String) : Turn :=
  { turn with links := turn.links.closeAll turn.manager.slots.keys reason }

end Turn

end Manager

end PeerOverlay
