import PeerOverlay.Signal

/-!
# Messages

What two connected nodes say to each other: they announce themselves, exchange
addresses, keep the connection alive and pass on signals.
-/

namespace PeerOverlay

/-- The version of the protocol that this node speaks. -/
def protocolVersion : UInt32 := 2

/-- The oldest version of the protocol that this node understands. -/
def oldestProtocolVersion : UInt32 := 2

def isCompatible (version : UInt32) : Bool :=
  oldestProtocolVersion ≤ version

/-- The most addresses that an address book takes from or gives to one message. -/
def maxAddressesPerMessage : Nat := 1000

structure Version where
  version : UInt32
  peerAddress : PeerAddress
  genesisHash : String
  startHeight : UInt32
  totalWork : UInt64
  deriving DecidableEq, Repr

inductive Message where
  | version (version : Version)
  | addresses (addresses : List PeerAddress)
  | getAddresses (protocols : Protocols) (services : Services)
  | ping (nonce : UInt32)
  | pong (nonce : UInt32)
  | signal (signal : Signal)
  deriving DecidableEq, Repr

def Message.kind : Message → String
  | version _ => "Version"
  | addresses _ => "Addr"
  | getAddresses _ _ => "GetAddr"
  | ping _ => "Ping"
  | pong _ => "Pong"
  | signal _ => "Signal"

end PeerOverlay
