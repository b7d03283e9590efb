import PeerOverlay.Message
import PeerOverlay.Json.Record
import PeerOverlay.Json.Writer

/-!
# Messages as JSON

Each part of a message has a JSON value and a reader of that value.  A message
travels as the compact text of its JSON value.
-/

namespace PeerOverlay

open Json (ofRecord ofVariant ofOption)

def Json.ofNat (value : Nat) : Json :=
  .integer value

def Json.ofText (text : String) : Json :=
  .string (some text)

namespace NetAddress

def toJson : NetAddress → Json
  | ip text => ofVariant "Ip" (.ofText text)
  | unknown => .ofText "Unknown"

def ofJson? : Json → Option NetAddress
  | .string (some "Unknown") => some unknown
  | value =>
      match value.variant? with
      | some ("Ip", content) => content.string?.map ip
      | some ("Unknown", .null) => some unknown
      | _ => none

end NetAddress

namespace Endpoint

def toJson : Endpoint → Json
  | direct host port =>
      ofVariant "Direct" (ofRecord [("host", .ofText host), ("port", .ofNat port.toNat)])
  | relayed signalId =>
      ofVariant "Relayed" (ofRecord [("signal_id", .ofText signalId)])
  | unreachable peerId =>
      ofVariant "Unreachable" (ofRecord [("peer_id", .ofText peerId)])

def ofJson? (value : Json) : Option Endpoint :=
  match value.variant? with
  | some ("Direct", content) => do
      let [some host, some port] ← content.record? ["host", "port"] | none
      return direct (← host.string?) (← port.uint16?)
  | some ("Relayed", content) => do
      let [some signalId] ← content.record? ["signal_id"] | none
      return relayed (← signalId.string?)
  | some ("Unreachable", content) => do
      let [some peerId] ← content.record? ["peer_id"] | none
      return unreachable (← peerId.string?)
  | _ => none

end Endpoint

namespace PeerAddress

def toJson (address : PeerAddress) : Json :=
  ofRecord
    [("endpoint", address.endpoint.toJson),
      ("services", .ofText address.services.render),
      ("timestamp", .integer address.timestamp.toInt),
      ("net_address", ofOption NetAddress.toJson address.netAddress),
      ("distance", .ofNat address.distance.toNat)]

def ofJson? (value : Json) : Option PeerAddress := do
  let [some endpoint, some services, some timestamp, netAddress, some distance] ←
    value.record? ["endpoint", "services", "timestamp", "net_address", "distance"] | none
  return {
    endpoint := ← Endpoint.ofJson? endpoint
    services := ← services.string?.bind Services.read?
    timestamp := ← timestamp.int64?
    netAddress := ← Json.optional? NetAddress.ofJson? netAddress
    distance := ← distance.uint8?
  }

end PeerAddress

namespace Version

def toJson (version : Version) : Json :=
  ofRecord
    [("version", .ofNat version.version.toNat),
      ("peer_address", version.peerAddress.toJson),
      ("genesis_hash", .ofText version.genesisHash),
      ("start_height", .ofNat version.startHeight.toNat),
      ("total_work", .ofNat version.totalWork.toNat)]

def ofJson? (value : Json) : Option Version := do
  let [some version, some peerAddress, some genesisHash, some startHeight, some totalWork] ←
    value.record? ["version", "peer_address", "genesis_hash", "start_height", "total_work"]
    | none
  return {
    version := ← version.uint32?
    peerAddress := ← PeerAddress.ofJson? peerAddress
    genesisHash := ← genesisHash.string?
    startHeight := ← startHeight.uint32?
    totalWork := ← totalWork.uint64?
  }

end Version

namespace Signal

def toJson (signal : Signal) : Json :=
  ofRecord
    [("sender_id", .ofText signal.senderId),
      ("recipient_id", .ofText signal.recipientId),
      ("nonce", .ofNat signal.nonce.toNat),
      ("ttl", .ofNat signal.ttl.toNat),
      ("flags", .ofText signal.flags.render),
      ("payload", ofOption Json.ofText signal.payload)]

def ofJson? (value : Json) : Option Signal := do
  let [some senderId, some recipientId, some nonce, some ttl, some flags, payload] ←
    value.record? ["sender_id", "recipient_id", "nonce", "ttl", "flags", "payload"] | none
  return {
    senderId := ← senderId.string?
    recipientId := ← recipientId.string?
    nonce := ← nonce.uint32?
    ttl := ← ttl.uint8?
    flags := ← flags.string?.bind SignalFlags.read?
    payload := ← Json.optional? Json.string? payload
  }

end Signal

namespace Message

def toJson (message : Message) : Json :=
  ofVariant message.kind
    (match message with
    | .version announced => announced.toJson
    | .addresses listed => .array (listed.map PeerAddress.toJson)
    | .getAddresses protocols services =>
        ofRecord
          [("protocol_mask", .ofText protocols.render),
            ("service_mask", .ofText services.render)]
    | .ping nonce => .ofNat nonce.toNat
    | .pong nonce => .ofNat nonce.toNat
    | .signal carried => carried.toJson)

def ofJson? (value : Json) : Option Message :=
  match value.variant? with
  | some ("Version", content) => (Version.ofJson? content).map version
  | some ("Addr", content) => (content.list? PeerAddress.ofJson?).map addresses
  | some ("GetAddr", content) => do
      let [some protocols, some services] ←
        content.record? ["protocol_mask", "service_mask"] | none
      return getAddresses
        (← protocols.string?.bind Protocols.read?) (← services.string?.bind Services.read?)
  | some ("Ping", content) => content.uint32?.map ping
  | some ("Pong", content) => content.uint32?.map pong
  | some ("Signal", content) => (Signal.ofJson? content).map signal
  | _ => none

def encode (message : Message) : List UInt8 :=
  message.toJson.render

/-- The message that the given bytes denote. -/
def decode? (bytes : List UInt8) : Option Message :=
  (Json.parse? bytes).bind ofJson?

def text (message : Message) : String :=
  message.toJson.text

end Message

end PeerOverlay
