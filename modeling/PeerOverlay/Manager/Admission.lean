import PeerOverlay.Manager.Dialing

/-!
# Admitting links and peers

A new link is refused if there are too many from its network address, if its
peer is connected already, or if there are enough peers.  All of that is checked
again when the peer has announced itself.
-/

namespace PeerOverlay.Manager

inductive Refusal where
  | tooManyPerIp
  | duplicate
  | tooManyPeers
  | banned
  deriving DecidableEq, Repr

def Refusal.reason : Refusal → String
  | tooManyPerIp => "connection limit per IP reached"
  | duplicate => "duplicate connection"
  | tooManyPeers => "max peer count reached"
  | banned => "peer is banned"

/-- Whether as many links are counted under a network address as may be. -/
def isFull (manager : Manager) (protocol : Protocol) (netAddress : NetAddress) : Bool :=
  manager.config.perIpMax protocol ≤ manager.connectionCount netAddress

/-! ## New links -/

def linkRefusal? (manager : Manager) (link : Link) : Option Refusal :=
  if (countable link.netAddress).any (manager.isFull link.protocol) then
    some .tooManyPerIp
  else if link.peerAddress.any manager.book.isConnected then
    some .duplicate
  else if manager.hasMaxPeers then
    some .tooManyPeers
  else
    none

/-- Close a link to which no agent attends.  If its address was being dialed,
that has failed. -/
def reject (id : LinkId) (link : Link) (refusal : Refusal) (turn : Turn) : Turn :=
  let turn := turn.close id refusal.reason
  let turn := { turn with links := turn.links.modify id Link.abandon }
  turn.updateBook fun book => link.peerAddress.elim book book.giveUp

def takeIn (id : LinkId) (link : Link) (turn : Turn) : Turn :=
  let turn := turn.update fun manager =>
    manager.seat id (.ofLink link) (countable link.netAddress)
  (turn.emit (.attend id)).emit (.recheck turn.manager.config.addressUpdateDelay)

def onConnection (id : LinkId) (turn : Turn) : Turn :=
  match turn.links.get? id with
  | none => turn
  | some link =>
      let turn := turn.update fun manager => manager.finishAttempt link
      match turn.manager.linkRefusal? link with
      | some refusal => reject id link refusal turn
      | none => takeIn id link turn

/-! ## New peers -/

/-- The network address of a peer.  What the transport sees counts, unless it
is missing or private and the peer has announced a public one. -/
def resolve (observed announced : Option NetAddress) : Option NetAddress :=
  let isPublic (netAddress : NetAddress) : Bool := !netAddress.isPrivate
  (observed.filter isPublic).orElse fun _ =>
    (announced.filter isPublic).orElse fun _ =>
      observed.orElse fun _ => announced

/-- The peer of a slot with its network address. -/
def Slot.locate (slot : Slot) (peer : Peer) : Peer :=
  { peer with
    address :=
      { peer.address with netAddress := resolve slot.observed peer.address.netAddress } }

def hasOtherPeer (manager : Manager) (link : LinkId) (address : PeerAddress) : Bool :=
  manager.slots.rows.any fun (other, slot) =>
    other != link && slot.peer.any fun peer => peer.address.samePeer address

/-- The network address under which a link has still to be counted once its
peer is known. -/
def Slot.uncounted (slot : Slot) (peer : Peer) : Option NetAddress :=
  if slot.countedUnder.isSome then none else countable peer.address.netAddress

def Slot.accept (slot : Slot) (peer : Peer) : Slot :=
  { slot with
    countedUnder := slot.countedUnder.orElse fun _ => slot.uncounted peer
    peer := some peer }

def peerRefusal? (manager : Manager) (now : Nat) (slot : Slot) (peer : Peer) :
    Option Refusal :=
  if (slot.uncounted peer).any (manager.isFull slot.protocol) then
    some .tooManyPerIp
  else if manager.book.isConnected peer.address ||
      manager.hasOtherPeer peer.link peer.address then
    some .duplicate
  else if manager.book.isBanned peer.address now then
    some .banned
  else if manager.hasMaxPeers then
    some .tooManyPeers
  else
    none

/-- Pass addresses on to some agents other than the one they came from. -/
def relayToAgents (around : Surroundings) (source : LinkId) (addresses : List PeerAddress)
    (turn : Turn) : Turn :=
  if turn.manager.config.relayBatchMax < addresses.length then
    turn
  else
    let others := turn.manager.slots.rows.filter fun (link, slot) =>
      link != source && slot.peer.isSome
    let chosen := (draw around.relayLots (others.map (·.1))).take
      turn.manager.config.peerCountRelay
    chosen.foldl (fun turn link => turn.emit (.relay link addresses)) turn

def acceptPeer (around : Surroundings) (slot : Slot) (peer : Peer) (turn : Turn) : Turn :=
  let turn := turn.update fun manager =>
    { manager.seat peer.link (slot.accept peer) (slot.uncounted peer) with
      book := manager.book.markConnected peer.link peer.address }
  let turn := relayToAgents around peer.link [peer.address] turn
  (turn.emit (.publish (.joined peer))).emit (.publish .changed)

def onHandshake (around : Surroundings) (peer : Peer) (turn : Turn) : Turn :=
  match turn.manager.slots.get? peer.link with
  | none => turn
  | some slot =>
      let peer := slot.locate peer
      match turn.manager.peerRefusal? around.now slot peer with
      | some refusal => turn.close peer.link refusal.reason
      | none => acceptPeer around slot peer turn

end PeerOverlay.Manager
