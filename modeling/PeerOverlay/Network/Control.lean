import PeerOverlay.Network.Run

/-!
# What happens to a network from outside

Nodes join, links are opened and handed over, and the owners of nodes use the
controls of their managers.
-/

namespace PeerOverlay.Network

/-! ## Nodes -/

/-- A node joins.  Its event loop does not run yet. -/
def join (network : Network) (node : NodeName) (member : Member) : Network :=
  { network with members := network.members.insert node member }

/-- Let the number of peers of a node be checked periodically. -/
def checkPeriodically (network : Network) (node : NodeName) (period : Nat) : Network :=
  let chime := Chime.periodicCheck node
  let clock := { network.clock with next := network.serial }
  let clock := clock.setInterval chime network.now period chime
  { network with clock := clock, serial := clock.next }

/-- Start the event loop of a node.  It can be started only once, and without a
period for the check of the number of peers it ends at once. -/
def run (network : Network) (node : NodeName) : Network :=
  match network.members.get? node with
  | none => network
  | some member =>
      let period := member.manager.config.peerCountCheckInterval
      if member.loop ≠ .idle then
        network
      else if period = 0 then
        network.endLoop node member
      else
        let network := network.changeMember node fun member => { member with loop := .running }
        network.checkPeriodically node period

def isRunning (network : Network) (node : NodeName) : Bool :=
  (network.members.get? node).any fun member => member.loop == .running

def handle (network : Network) (node : NodeName) (event : Event) : Network :=
  match network.members.get? node with
  | none => network
  | some member =>
      let around := network.managerSurroundings member (.plain network.turns)
      let turn := Manager.Turn.start member.manager network.links
      network.conclude node (Manager.handle around event turn)

def follow (network : Network) (node : NodeName) (control : Manager.Control) :
    Except DialError Unit × Network :=
  match network.members.get? node with
  | none => (.ok (), network)
  | some member =>
      let around := network.managerSurroundings member (.plain network.turns)
      let turn := Manager.Turn.start member.manager network.links
      let (answer, turn) := Manager.follow around control turn
      (answer, network.conclude node turn)

def changeBook (network : Network) (node : NodeName) (change : AddressBook → AddressBook) :
    Network :=
  network.changeMember node fun member =>
    { member with manager := { member.manager with book := change member.manager.book } }

/-- The events that wait for the manager of a node, taken away from it. -/
def takeEvents (network : Network) (node : NodeName) : List Event × Network :=
  (((network.members.get? node).map Member.events).getD [],
    network.changeMember node fun member => { member with events := [] })

/-! ## Links -/

def openLink (network : Network) (link : Link) : Network :=
  { network with links := network.links.insert link.id link }

/-- Hand a link to the manager of a node.  After the end of its event loop the
link is closed at once. -/
def handOver (network : Network) (node : NodeName) (link : LinkId) : Network :=
  match network.members.get? node with
  | none => network
  | some member =>
      if member.loop = .stopped then
        network.changeLink link fun link => (link.close "peer manager stopped").abandon
      else
        network.notify node (.connection link)

def couple (network : Network) (first second : LinkId) : Network :=
  { network with
    pumps := (network.pumps.insert first ⟨second, none⟩).insert second ⟨first, none⟩ }

/-- Queue a message on a link; whether that was possible. -/
def send (network : Network) (link : LinkId) (message : Message) : Bool × Network :=
  let (queued, links) := network.links.send link message
  (queued, { network with links := links })

/-- Deliver a message on a link; whether that was possible. -/
def deliver (network : Network) (id : LinkId) (message : Message) : Bool × Network :=
  match network.links.get? id with
  | none => (false, network)
  | some link =>
      let (delivered, link) := link.deliver message
      (delivered, { network with links := network.links.insert id link })

def take (network : Network) (id : LinkId) (count : Nat) : List Message × Network :=
  match network.links.get? id with
  | none => ([], network)
  | some link =>
      let (messages, link) := link.take count
      (messages, { network with links := network.links.insert id link })

end PeerOverlay.Network
