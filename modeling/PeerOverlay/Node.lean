import PeerOverlay.Bootstrap
import PeerOverlay.Chain
import PeerOverlay.Manager.Handle

/-!
# Nodes

A node is set up from a few settings: it announces itself under its public host
and starts with an address book of the given peers.
-/

namespace PeerOverlay

structure NodeSettings where
  port : UInt16
  /-- The first peers, as `host:port`. -/
  bootstrapPeers : List String
  /-- Whether the node holds few connections only. -/
  light : Bool
  /-- The host under which other nodes reach this one. -/
  publicHost : String
  deriving Repr

namespace NodeSettings

def default : NodeSettings where
  port := defaultPort
  bootstrapPeers := []
  light := false
  publicHost := "localhost"

def config (settings : NodeSettings) (timestamp : Int64) (otherSignalId : SignalId) : Config :=
  let services := if settings.light then Services.light else Services.full
  let endpoint := Endpoint.direct settings.publicHost settings.port
  let address := PeerAddress.fresh endpoint services timestamp
  if settings.light then .light address otherSignalId else .full address otherSignalId

end NodeSettings

structure Node where
  settings : NodeSettings
  chain : Chain
  manager : Manager
  links : Links

structure NodeStatus where
  port : UInt16
  signalId : SignalId
  peerCount : Nat
  connectingCount : Nat
  knownAddresses : Nat
  height : UInt32
  bytesSent : UInt64
  bytesReceived : UInt64
  deriving Repr

namespace Node

/-- A book with the addresses of some entries added to it. -/
def addEntries (timestamp : Int64) :
    List String → AddressBook → Except BootstrapError AddressBook
  | [], book => .ok book
  | entry :: rest, book =>
      match Bootstrap.read entry timestamp with
      | .error error => .error error
      | .ok address => addEntries timestamp rest (book.add address).2

def new (settings : NodeSettings) (chain : Chain) (timestamp : Int64)
    (otherSignalId : SignalId) : Except BootstrapError Node :=
  let config := settings.config timestamp otherSignalId
  let book := AddressBook.withLocal config.peerAddress.endpoint
  (addEntries timestamp settings.bootstrapPeers book).map fun book =>
    {
      settings := settings
      chain := chain
      manager := .new config book
      links := .empty
    }

def surroundings (running : Bool) (now : Nat) : Manager.Surroundings where
  now := now
  connectors := { direct := some (.socket running), relayed := none }
  pickLots := []
  relayLots := []

def follow (node : Node) (running : Bool) (now : Nat) (control : Manager.Control) :
    Except DialError Unit × Node :=
  let turn := Manager.Turn.start node.manager node.links
  let (answer, turn) := Manager.follow (surroundings running now) control turn
  (answer, { node with manager := turn.manager, links := turn.links })

def shutdown (node : Node) (running : Bool) (now : Nat) : Node :=
  let node := (node.follow running now (.disconnect "node shutdown")).2
  (node.follow running now .stop).2

def status (node : Node) : NodeStatus where
  port := node.settings.port
  signalId := node.manager.config.signalId
  peerCount := node.manager.peerCount
  connectingCount := node.manager.connectingCount
  knownAddresses := node.manager.book.size
  height := node.chain.height
  bytesSent := node.manager.totalSent node.links
  bytesReceived := node.manager.totalReceived node.links

end Node

end PeerOverlay
