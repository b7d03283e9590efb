import PeerOverlay.Manager.Dialing

/-!
# Links that end

A link that has ended gives back what it was counted for.  An address to which
no connection came about has failed, and a peer that breaks the rules is banned.
-/

namespace PeerOverlay.Manager

/-- The traffic of a link that has ended is kept. -/
def keepTraffic (manager : Manager) (link : Link) : Manager :=
  { manager with
    bytesSent := manager.bytesSent + link.sent
    bytesReceived := manager.bytesReceived + link.received }

def vacate (id : LinkId) (slot : Slot) (links : Links) (manager : Manager) : Manager :=
  let manager := { manager with slots := manager.slots.erase id }
  let manager := slot.countedUnder.elim manager manager.release
  (links.get? id).elim manager manager.keepTraffic

def losePeer (id : LinkId) (peer : Peer) (turn : Turn) : Turn :=
  let turn := turn.updateBook fun book => book.markDisconnected id
  (turn.emit (.publish (.left peer))).emit (.publish .changed)

def missPeer (id : LinkId) (turn : Turn) : Turn :=
  turn.updateBook fun book => (turn.links.peerAddress? id).elim book book.miss

/-- A link has ended; its agent is left alone from now on. -/
def onClosed (id : LinkId) (turn : Turn) : Turn :=
  match turn.manager.slots.get? id with
  | none => turn
  | some slot =>
      let turn := (turn.update (vacate id slot turn.links)).emit (.release id)
      match slot.peer with
      | some peer => losePeer id peer turn
      | none => missPeer id turn

def onConnectFailed (address : PeerAddress) (turn : Turn) : Turn :=
  let turn := turn.update fun manager => manager.finishConnecting address
  turn.updateBook fun book => book.markUnreachable address

/-- The address for which the other end of a link is answerable. -/
def accountableAddress? (manager : Manager) (links : Links) (id : LinkId) :
    Option PeerAddress :=
  let peer := (manager.slots.get? id).bind Slot.peer
  (peer.map Peer.address).orElse fun _ => links.peerAddress? id

def banLink (around : Surroundings) (id : LinkId) (reason : String) (turn : Turn) : Turn :=
  let address? := turn.manager.accountableAddress? turn.links id
  let turn := turn.updateBook fun book =>
    address?.elim book fun address => book.ban address around.now
  turn.close id reason

end PeerOverlay.Manager
