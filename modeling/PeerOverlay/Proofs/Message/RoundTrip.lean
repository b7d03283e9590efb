import PeerOverlay.Proofs.Frame.Stream
import PeerOverlay.Proofs.Json.Record
import PeerOverlay.Proofs.Message.Size
import PeerOverlay.Proofs.Text.Flags

/-!
# Messages on a stream

What is written of a message is read back: its parts from their JSON values, the
value from its text, and the message from the frame at the front of a stream.
-/

namespace PeerOverlay

open Json

/-! ## Parts of messages -/

theorem NetAddress.undoes : Undoes ofJson? toJson where
  plain := by
    intro address
    cases address with
    | ip text => exact plain_ofVariant "Ip" (.string text)
    | unknown => exact .string "Unknown"
  reads := by
    intro address
    cases address <;> rfl

theorem NetAddress.toJson_ne_null (address : NetAddress) : address.toJson ≠ .null := by
  cases address <;> exact Json.noConfusion

theorem Endpoint.undoes : Undoes ofJson? toJson where
  plain := by
    intro endpoint
    cases endpoint with
    | direct host port =>
        refine plain_ofVariant "Direct" (plain_ofRecord ?_)
        simp [undoes_string.plain, undoes_uint16.plain]
    | relayed signalId =>
        refine plain_ofVariant "Relayed" (plain_ofRecord ?_)
        simp [undoes_string.plain]
    | unreachable peerId =>
        refine plain_ofVariant "Unreachable" (plain_ofRecord ?_)
        simp [undoes_string.plain]
  reads := by
    intro endpoint
    cases endpoint with
    | direct host port =>
        have record : (ofRecord [("host", ofText host), ("port", ofNat port.toNat)]).record?
            ["host", "port"] = some [some (ofText host), some (ofNat port.toNat)] :=
          record?_ofRecord _ (by decide) _ rfl
        simp [ofJson?, toJson, variant?_ofVariant, record, undoes_string.reads,
          undoes_uint16.reads]
    | relayed signalId =>
        have record : (ofRecord [("signal_id", ofText signalId)]).record? ["signal_id"] =
            some [some (ofText signalId)] :=
          record?_ofRecord _ (by decide) _ rfl
        simp [ofJson?, toJson, variant?_ofVariant, record, undoes_string.reads]
    | unreachable peerId =>
        have record : (ofRecord [("peer_id", ofText peerId)]).record? ["peer_id"] =
            some [some (ofText peerId)] :=
          record?_ofRecord _ (by decide) _ rfl
        simp [ofJson?, toJson, variant?_ofVariant, record, undoes_string.reads]

theorem PeerAddress.undoes : Undoes ofJson? toJson where
  plain := by
    intro address
    refine plain_ofRecord ?_
    simp [Endpoint.undoes.plain, undoes_string.plain, undoes_int64.plain, undoes_uint8.plain,
      NetAddress.undoes.plain_optional]
  reads := by
    intro address
    have record : address.toJson.record?
        ["endpoint", "services", "timestamp", "net_address", "distance"] =
          some [some address.endpoint.toJson, some (ofText address.services.render),
            some (.integer address.timestamp.toInt),
            some (ofOption NetAddress.toJson address.netAddress),
            some (ofNat address.distance.toNat)] :=
      record?_ofRecord _ (by decide) _ rfl
    have netAddress :=
      NetAddress.undoes.optional? NetAddress.toJson_ne_null address.netAddress
    simp [ofJson?, record, Endpoint.undoes.reads, undoes_string.reads,
      address.services.read?_render, undoes_int64.reads, netAddress, undoes_uint8.reads]

theorem Version.undoes : Undoes ofJson? toJson where
  plain := by
    intro version
    refine plain_ofRecord ?_
    simp [undoes_uint32.plain, PeerAddress.undoes.plain, undoes_string.plain, undoes_uint64.plain]
  reads := by
    intro version
    have record : version.toJson.record?
        ["version", "peer_address", "genesis_hash", "start_height", "total_work"] =
          some [some (ofNat version.version.toNat), some version.peerAddress.toJson,
            some (ofText version.genesisHash), some (ofNat version.startHeight.toNat),
            some (ofNat version.totalWork.toNat)] :=
      record?_ofRecord _ (by decide) _ rfl
    simp [ofJson?, record, undoes_uint32.reads, PeerAddress.undoes.reads, undoes_string.reads,
      undoes_uint64.reads]

theorem Signal.undoes : Undoes ofJson? toJson where
  plain := by
    intro signal
    refine plain_ofRecord ?_
    simp [undoes_string.plain, undoes_uint32.plain, undoes_uint8.plain,
      undoes_string.plain_optional]
  reads := by
    intro signal
    have record : signal.toJson.record?
        ["sender_id", "recipient_id", "nonce", "ttl", "flags", "payload"] =
          some [some (ofText signal.senderId), some (ofText signal.recipientId),
            some (ofNat signal.nonce.toNat), some (ofNat signal.ttl.toNat),
            some (ofText signal.flags.render), some (ofOption ofText signal.payload)] :=
      record?_ofRecord _ (by decide) _ rfl
    have payload := undoes_string.optional? (fun _ => Json.noConfusion) signal.payload
    simp [ofJson?, record, undoes_string.reads, undoes_uint32.reads, undoes_uint8.reads,
      signal.flags.read?_render, payload]

theorem Message.undoes : Undoes ofJson? toJson where
  plain := by
    intro message
    apply plain_ofVariant
    cases message with
    | version announced => exact Version.undoes.plain announced
    | addresses listed => exact PeerAddress.undoes.list.plain listed
    | getAddresses protocols services =>
        refine plain_ofRecord ?_
        simp [undoes_string.plain]
    | ping nonce => exact undoes_uint32.plain nonce
    | pong nonce => exact undoes_uint32.plain nonce
    | signal carried => exact Signal.undoes.plain carried
  reads := by
    intro message
    cases message with
    | version announced =>
        show (Version.ofJson? announced.toJson).map version = _
        rw [Version.undoes.reads, Option.map_some]
    | addresses listed =>
        show ((Json.array (listed.map PeerAddress.toJson)).list? PeerAddress.ofJson?).map
          addresses = _
        rw [PeerAddress.undoes.list.reads, Option.map_some]
    | getAddresses protocols services =>
        have record : (ofRecord [("protocol_mask", ofText protocols.render),
            ("service_mask", ofText services.render)]).record? ["protocol_mask", "service_mask"] =
              some [some (ofText protocols.render), some (ofText services.render)] :=
          record?_ofRecord _ (by decide) _ rfl
        simp [ofJson?, toJson, kind, variant?_ofVariant, record, undoes_string.reads,
          protocols.read?_render, services.read?_render]
    | ping nonce =>
        show (uint32? (ofNat nonce.toNat)).map ping = _
        rw [undoes_uint32.reads, Option.map_some]
    | pong nonce =>
        show (uint32? (ofNat nonce.toNat)).map pong = _
        rw [undoes_uint32.reads, Option.map_some]
    | signal carried =>
        show (Signal.ofJson? carried.toJson).map signal = _
        rw [Signal.undoes.reads, Option.map_some]

/-- A message is read back from its bytes. -/
theorem Message.decode?_encode (message : Message) : decode? message.encode = some message := by
  rw [decode?, encode, parse?_render (undoes.plain message), Option.bind_some,
    undoes.reads]

/-! ## Frames -/

namespace Frame

/-- A message that is not too large is encoded as a frame of its size on the wire, behind
the bytes in the buffer, and it is decoded again from whatever follows that frame.  A message
that is too large is refused, and the buffer stays as it is. -/
theorem encode_then_decode (message : Message) :
    if message.encode.length ≤ maxBodySize then
      ∃ frame, frame.length = message.wireSize ∧
        (∀ buffer, encode message buffer = (.ok (), buffer ++ frame)) ∧
        ∀ rest, decode (frame ++ rest) = (.ok (some message), rest)
    else
      ∀ buffer, encode message buffer = (.error .tooLarge, buffer) := by
  split
  · next fits =>
      refine ⟨wrap message.encode, length_wrap message.encode, ?_, ?_⟩
      · exact encode_of_le fits
      · intro rest
        rw [decode_wrap fits, message.decode?_encode]
  · next large => exact encode_of_lt (Nat.lt_of_not_le large)

end Frame

end PeerOverlay
