import PeerOverlay.Agent.Handshake

/-!
# Exchanging addresses

Addresses that come from the peer go to the manager.  Addresses go to the peer
on request, when the manager passes them on, and when this node announces
itself.  What the peer knows is not told again for a while.
-/

namespace PeerOverlay.Agent

/-- Whether an address may be told to other nodes at all. -/
def isForwardable (config : Config) (address : PeerAddress) : Bool :=
  match address.protocol with
  | .direct => true
  | .relayed => address.distance < config.maxRelayDistance
  | .unreachable => false

/-- Whether enough time has passed since the peer got to know an address. -/
def isUnthrottled (config : Config) (known : Table Endpoint Nat) (now : Nat)
    (address : PeerAddress) : Bool :=
  match known.get? address.endpoint with
  | none => true
  | some since => config.relayThrottle ≤ now - since

def canRelay (around : Surroundings) (agent : Agent) (address : PeerAddress) : Bool :=
  isForwardable around.config address &&
    !address.samePeer around.config.peerAddress &&
    isUnthrottled around.config agent.known around.now address

/-- Addresses have come.  Too many of them are a reason for a ban. -/
def onAddresses (around : Surroundings) (addresses : List PeerAddress) (turn : Turn) : Turn :=
  if around.config.maxAddrPerMessage < addresses.length then
    let reason := "addr message too large"
    (turn.emit (.ban turn.link.id reason)).close reason
  else
    let turn := turn.noteKnown addresses around.now
    turn.emit (.addresses turn.link.id addresses)

def onGetAddresses (around : Surroundings) (protocols : Protocols) (services : Services)
    (turn : Turn) : Turn :=
  let found := around.book.query protocols services around.now around.lots
  let told := (found.filter (canRelay around turn.agent)).take around.config.maxAddrPerMessage
  let turn := turn.noteKnown told around.now
  turn.sendIfRoom (.addresses told)

def relayAddresses (around : Surroundings) (addresses : List PeerAddress) (turn : Turn) :
    Turn :=
  if turn.agent.phase ≠ .established then
    turn
  else
    let told := addresses.filter (canRelay around turn.agent)
    if told.isEmpty then
      turn
    else
      let turn := turn.noteKnown told around.now
      turn.sendIfRoom (.addresses told)

/-- Announce this node again, seen just now. -/
def announceAddress (around : Surroundings) (turn : Turn) : Turn :=
  turn.sendIfRoom
    (.addresses [{ around.config.peerAddress with timestamp := around.wallClock }])

end PeerOverlay.Agent
