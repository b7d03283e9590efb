import PeerOverlay.PeerAddress

/-!
# Configuration

The limits and periods of a node's network layer.  Durations are in
milliseconds.
-/

namespace PeerOverlay

/-- The port of direct connections unless another is asked for. -/
def defaultPort : UInt16 := 8443

/-- What a node announces, what it looks for, and how much it allows. -/
structure Config where
  peerAddress : PeerAddress
  /-- The name under which signals reach this node. -/
  signalId : SignalId
  /-- The protocols and services of the addresses that peers are asked for. -/
  protocolMask : Protocols
  serviceMask : Services
  /-- The number of connections that this node tries to keep. -/
  peerCountDesired : Nat
  peerCountMax : Nat
  /-- The most connections of one network address. -/
  peerCountPerIpDirectMax : Nat
  peerCountPerIpRelayedMax : Nat
  /-- The most attempts to connect at a time. -/
  connectingCountMax : Nat
  /-- The number of peers to which new addresses are passed on. -/
  peerCountRelay : Nat
  /-- The size of the largest batch of addresses that is passed on. -/
  relayBatchMax : Nat
  addressUpdateDelay : Nat
  peerCountCheckInterval : Nat
  /-- The number of hops that a signal may take. -/
  signalTtlInitial : UInt8
  signalStoreCapacity : Nat
  signalMaxAge : Nat
  handshakeTimeout : Nat
  pingTimeout : Nat
  connectivityCheckInterval : Nat
  announceAddrInterval : Nat
  /-- How long an address is not told again to a peer that knows it. -/
  relayThrottle : Nat
  versionAttemptsMax : Nat
  versionRetryDelay : Nat
  /-- A peer that sends more addresses in one message is banned. -/
  maxAddrPerMessage : Nat
  /-- Relayed addresses that are as far away are not passed on. -/
  maxRelayDistance : UInt8
  deriving Repr

namespace Config

/-- The configuration of a full node.  A relayed node receives signals under
the name in its address, any other node under the given name. -/
def full (peerAddress : PeerAddress) (otherSignalId : SignalId) : Config where
  peerAddress := peerAddress
  signalId := peerAddress.signalId?.getD otherSignalId
  protocolMask := .dialable
  serviceMask := .all
  peerCountDesired := 6
  peerCountMax := 50000
  peerCountPerIpDirectMax := 25
  peerCountPerIpRelayedMax := 2
  connectingCountMax := 2
  peerCountRelay := 4
  relayBatchMax := 10
  addressUpdateDelay := 1000
  peerCountCheckInterval := 30000
  signalTtlInitial := 3
  signalStoreCapacity := 1000
  signalMaxAge := 10000
  handshakeTimeout := 3000
  pingTimeout := 10000
  connectivityCheckInterval := 60000
  announceAddrInterval := 600000
  relayThrottle := 300000
  versionAttemptsMax := 10
  versionRetryDelay := 500
  maxAddrPerMessage := 1000
  maxRelayDistance := 4

/-- The configuration of a node that can hold few connections. -/
def light (peerAddress : PeerAddress) (otherSignalId : SignalId) : Config :=
  { full peerAddress otherSignalId with
    peerCountMax := 15
    peerCountPerIpDirectMax := 1 }

def perIpMax (config : Config) : Protocol → Nat
  | .direct => config.peerCountPerIpDirectMax
  | .relayed => config.peerCountPerIpRelayedMax
  | .unreachable => config.peerCountPerIpRelayedMax

end Config

/-- The signal name made of sixteen random bytes. -/
def SignalId.ofBytes (bytes : List UInt8) : SignalId :=
  String.ofList (bytes.flatMap fun byte =>
    Numeral.render 16 (byte.toNat / 16) ++ Numeral.render 16 (byte.toNat % 16))

end PeerOverlay
