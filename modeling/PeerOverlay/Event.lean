import PeerOverlay.Link

/-!
# Peers and events

A connected node becomes a peer by announcing itself.  Agents and transports
tell the manager of a node what happens on the links through events, and the
manager publishes news of its peers.
-/

namespace PeerOverlay

/-- A node that has announced itself on a link. -/
structure Peer where
  link : LinkId
  address : PeerAddress
  version : UInt32
  startHeight : UInt32
  totalWork : UInt64
  deriving DecidableEq, Repr

/-- What a manager publishes. -/
inductive PeerNews where
  | joined (peer : Peer)
  | left (peer : Peer)
  | changed
  deriving DecidableEq, Repr

/-- What a manager reacts to. -/
inductive Event where
  /-- A transport has opened a link. -/
  | connection (link : LinkId)
  /-- An attempt to connect has failed before there was a link. -/
  | connectFailed (address : PeerAddress)
  | handshake (peer : Peer)
  | addresses (link : LinkId) (addresses : List PeerAddress)
  | signal (link : LinkId) (signal : Signal)
  | ban (link : LinkId) (reason : String)
  | closed (link : LinkId) (byRemote : Bool)
  | checkPeerCount
  deriving DecidableEq, Repr

end PeerOverlay
