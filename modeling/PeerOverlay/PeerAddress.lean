import PeerOverlay.FlagText
import PeerOverlay.NetAddress

/-!
# Peer addresses

A peer is located by its endpoint; two addresses with the same endpoint are the
address of the same peer.  What else an address says is refreshed as news of
the peer arrive.
-/

namespace PeerOverlay

/-! ## Services and protocols -/

structure Services where
  bits : UInt32
  deriving DecidableEq, Repr

namespace Services

def names : FlagNames where
  width := 32
  names := [("NANO", 1), ("LIGHT", 2), ("FULL", 4)]

def none : Services := ⟨0⟩
def nano : Services := ⟨1⟩
def light : Services := ⟨2⟩
def full : Services := ⟨4⟩

/-- Every service that has a name. -/
def all : Services := ⟨7⟩

/-- Whether two sets of services share one. -/
def intersects (some other : Services) : Bool :=
  some.bits &&& other.bits != 0

def render (services : Services) : String :=
  names.render services.bits.toNat

def read? (text : String) : Option Services :=
  (names.read? text).map fun bits => ⟨UInt32.ofNat bits⟩

end Services

inductive Protocol where
  /-- Over a socket. -/
  | direct
  /-- Over a data channel that is negotiated through signals. -/
  | relayed
  /-- Not at all: the peer accepts no connections. -/
  | unreachable
  deriving DecidableEq, Repr

def Protocol.name : Protocol → String
  | direct => "direct"
  | relayed => "relayed"
  | unreachable => "unreachable"

structure Protocols where
  bits : UInt8
  deriving DecidableEq, Repr

namespace Protocols

def names : FlagNames where
  width := 8
  names := [("DIRECT", 1), ("RELAYED", 2), ("UNREACHABLE", 4)]

/-- The set of one protocol. -/
def only : Protocol → Protocols
  | .direct => ⟨1⟩
  | .relayed => ⟨2⟩
  | .unreachable => ⟨4⟩

/-- The protocols over which a peer can be dialed. -/
def dialable : Protocols := ⟨3⟩

def contains (protocols : Protocols) (protocol : Protocol) : Bool :=
  protocols.bits &&& (only protocol).bits == (only protocol).bits

def render (protocols : Protocols) : String :=
  names.render protocols.bits.toNat

def read? (text : String) : Option Protocols :=
  (names.read? text).map fun bits => ⟨UInt8.ofNat bits⟩

end Protocols

/-! ## Endpoints -/

/-- The name under which signals reach a relayed peer. -/
abbrev SignalId := String

inductive Endpoint where
  | direct (host : String) (port : UInt16)
  | relayed (signalId : SignalId)
  | unreachable (peerId : String)
  deriving DecidableEq, Repr

namespace Endpoint

def protocol : Endpoint → Protocol
  | direct _ _ => .direct
  | relayed _ => .relayed
  | unreachable _ => .unreachable

def signalId? : Endpoint → Option SignalId
  | relayed signalId => some signalId
  | _ => none

def text : Endpoint → String
  | direct host port => "direct://" ++ host ++ ":" ++ toString port.toNat
  | relayed signalId => "relayed://" ++ signalId
  | unreachable peerId => "unreachable://" ++ peerId

end Endpoint

/-! ## Addresses -/

/-- An endpoint with the latest news of the peer there. -/
structure PeerAddress where
  endpoint : Endpoint
  services : Services
  /-- When the peer was last seen, in milliseconds since 1970. -/
  timestamp : Int64
  netAddress : Option NetAddress
  /-- The number of relays between a relayed peer and this node. -/
  distance : UInt8
  deriving DecidableEq, Repr

namespace PeerAddress

/-- An address without news, seen at the given time. -/
def fresh (endpoint : Endpoint) (services : Services) (timestamp : Int64) : PeerAddress where
  endpoint := endpoint
  services := services
  timestamp := timestamp
  netAddress := none
  distance := 0

def protocol (address : PeerAddress) : Protocol :=
  address.endpoint.protocol

def signalId? (address : PeerAddress) : Option SignalId :=
  address.endpoint.signalId?

/-- Whether two addresses are addresses of the same peer. -/
def samePeer (address other : PeerAddress) : Bool :=
  address.endpoint == other.endpoint

def withNetAddress (address : PeerAddress) (netAddress : NetAddress) : PeerAddress :=
  { address with netAddress := some netAddress }

def text (address : PeerAddress) : String :=
  address.endpoint.text

end PeerAddress

end PeerOverlay
