import Mathlib
import PeerOverlay.Frame

/-!
# The size of a message on a stream

The number of bytes of a JSON text adds up from the bytes of its parts, and the
number of bytes of a text from those of its characters.  All parts of an address
but its endpoint and its network address have a bounded size.
-/

namespace PeerOverlay

namespace Json

/-! ## Texts -/

/-- The number of bytes with which a character is written. -/
def written (char : Char) : Nat :=
  ((String.utf8EncodeChar char).flatMap escapeByte).length

/-- The number of bytes with which a text is written, without its quotes. -/
def textSize (text : String) : Nat :=
  (text.toList.map written).sum

theorem utf8_eq_flatMap (text : String) :
    utf8 text = text.toList.flatMap String.utf8EncodeChar := by
  have encoded : text.toByteArray =
      (text.toList.flatMap String.utf8EncodeChar).toByteArray := by
    rw [← String.utf8Encode_toList]
    exact List.utf8Encode.eq_1 _
  unfold utf8
  show text.toByteArray.data.toList = _
  rw [encoded]
  simp

theorem length_renderString (text : String) : (renderString text).length = textSize text + 2 := by
  unfold renderString textSize written
  rw [utf8_eq_flatMap, List.flatMap_assoc]
  simp only [List.length_append, List.length_cons, List.length_nil, List.length_flatMap]

theorem textSize_append (text other : String) :
    textSize (text ++ other) = textSize text + textSize other := by
  simp [textSize]

theorem textSize_ofList (chars : List Char) :
    textSize (String.ofList chars) = (chars.map written).sum := by
  simp [textSize]

/-- Fewer texts take no more bytes. -/
theorem sum_map_filter_le {α : Type} (size : α → Nat) (keeps : α → Bool) (items : List α) :
    ((items.filter keeps).map size).sum ≤ (items.map size).sum := by
  induction items with
  | nil => exact Nat.le_refl 0
  | cons item others hypothesis =>
      rw [List.filter_cons, List.map_cons, List.sum_cons]
      split
      · rw [List.map_cons, List.sum_cons]
        exact Nat.add_le_add_left hypothesis _
      · exact Nat.le_add_left_of_le hypothesis

theorem textSize_intercalate_le (separator : String) (texts : List String) :
    textSize (separator.intercalate texts) ≤
      (texts.map fun text => textSize text + textSize separator).sum := by
  induction texts with
  | nil => exact Nat.le_refl 0
  | cons text others hypothesis =>
      cases others with
      | nil => simp
      | cons next rest =>
          rw [String.intercalate_cons_cons, textSize_append, textSize_append, List.map_cons,
            List.sum_cons]
          omega

/-! ## Numbers -/

theorem written_digitChar {digit : Nat} (below : digit < 16) : written digit.digitChar = 1 := by
  have all : ∀ digit : Fin 16, written digit.val.digitChar = 1 := by decide
  exact all ⟨digit, below⟩

/-- Every digit takes one byte. -/
theorem textSize_digits {base : Nat} (large : 1 < base) (small : base ≤ 16) (value : Nat) :
    textSize (String.ofList (Nat.toDigits base value)) = (Nat.toDigits base value).length := by
  rw [textSize_ofList]
  induction value using Nat.strongRecOn with
  | ind value hypothesis =>
      by_cases below : value < base
      · rw [Nat.toDigits_of_lt_base below]
        simp [written_digitChar (Nat.lt_of_lt_of_le below small)]
      · have smaller : value / base < value := Nat.div_lt_self (by omega) large
        have remainder : value % base < base := Nat.mod_lt value (by omega)
        rw [Nat.toDigits_of_base_le large (Nat.le_of_not_lt below), List.map_append,
          List.sum_append, hypothesis _ smaller, List.length_append]
        simp [written_digitChar (Nat.lt_of_lt_of_le remainder small)]

theorem length_decimal_le {value digits : Nat} (some : 0 < digits) (below : value < 10 ^ digits) :
    (renderInteger.decimal value).length ≤ digits := by
  unfold renderInteger.decimal Numeral.render
  rw [List.length_map]
  exact (Nat.length_toDigits_le_iff (by decide) some).2 below

theorem length_renderInteger_int64_le (value : Int64) :
    (renderInteger value.toInt).length ≤ 20 := by
  have least := value.le_toInt
  have most := value.toInt_lt
  cases known : value.toInt with
  | ofNat magnitude =>
      rw [known, Int.ofNat_eq_natCast] at most
      have below : magnitude < 10 ^ 19 := by omega
      exact Nat.le_trans (length_decimal_le (by decide) below) (by decide)
  | negSucc magnitude =>
      rw [known] at least
      have below : magnitude + 1 < 10 ^ 19 := by omega
      exact Nat.succ_le_succ (length_decimal_le (by decide) below)

theorem length_render_uint8_le (value : UInt8) : (render (.ofNat value.toNat)).length ≤ 3 :=
  length_decimal_le (by decide) (Nat.lt_trans value.toNat_lt (by decide))

end Json

open Json

/-! ## Addresses -/

/-- The names of all services take 13 bytes, the bits without a name ten, and there
are three bars. -/
theorem Services.textSize_render_le (services : Services) : textSize services.render ≤ 35 := by
  have bar : textSize " | " = 3 := by decide
  have named : ((names.namesIn services.bits.toNat).map fun text =>
      textSize text + textSize " | ").sum ≤ 22 := by
    have all : (names.names.map fun named => textSize named.1 + textSize " | ").sum = 22 := by
      decide
    rw [← all, FlagNames.namesIn, List.map_map]
    exact sum_map_filter_le _ _ names.names
  have unnamed {rest : Nat} (below : rest < 2 ^ 32) :
      textSize ("0x" ++ String.ofList (Numeral.render 16 rest)) ≤ 10 := by
    have digits : (Nat.toDigits 16 rest).length ≤ 8 :=
      (Nat.length_toDigits_le_iff (by decide) (by decide)).2 below
    have start : textSize "0x" = 2 := by decide
    rw [textSize_append, start, Numeral.render, textSize_digits (by decide) (by decide)]
    omega
  have below : names.unnamed services.bits.toNat < 2 ^ 32 :=
    Nat.lt_of_le_of_lt (Nat.sub_le _ _) services.bits.toNat_lt
  unfold render FlagNames.render
  refine Nat.le_trans (textSize_intercalate_le _ _) ?_
  rw [List.map_append, List.sum_append]
  split
  · exact Nat.le_trans named (by decide)
  · have tail := unnamed below
    simp only [List.map_cons, List.map_nil, List.sum_cons, List.sum_nil]
    omega

theorem PeerAddress.length_render_le (address : PeerAddress) :
    address.toJson.render.length ≤
      address.endpoint.toJson.render.length +
        (ofOption NetAddress.toJson address.netAddress).render.length + 125 := by
  have services := address.services.textSize_render_le
  have timestamp := length_renderInteger_int64_le address.timestamp
  have distance := length_render_uint8_le address.distance
  have endpointName : (renderString "endpoint").length = 10 := by decide
  have servicesName : (renderString "services").length = 10 := by decide
  have timestampName : (renderString "timestamp").length = 11 := by decide
  have netAddressName : (renderString "net_address").length = 13 := by decide
  have distanceName : (renderString "distance").length = 10 := by decide
  have written : (render (.ofText address.services.render)).length ≤ 37 := by
    show (renderString address.services.render).length ≤ 37
    rw [length_renderString]
    omega
  unfold PeerAddress.toJson
  simp only [ofRecord, List.map_cons, List.map_nil, render, renderFields, Option.getD_some,
    List.length_append, List.length_cons, List.length_nil, endpointName, servicesName,
    timestampName, netAddressName, distanceName]
  omega

theorem PeerAddress.le_length_render (address : PeerAddress) :
    address.endpoint.toJson.render.length ≤ address.toJson.render.length := by
  unfold PeerAddress.toJson
  simp only [ofRecord, List.map_cons, List.map_nil, render, renderFields, List.length_append,
    List.length_cons]
  omega

/-- The number of bytes of an endpoint is that of its text, up to a few more. -/
theorem Endpoint.length_render_direct (host : String) (port : UInt16) :
    textSize host ≤ (direct host port).toJson.render.length ∧
      (direct host port).toJson.render.length ≤ textSize host + 39 := by
  have digits : (renderInteger port.toNat).length ≤ 5 :=
    length_decimal_le (by decide) (Nat.lt_trans port.toNat_lt (by decide))
  have kind : (renderString "Direct").length = 8 := by decide
  have hostName : (renderString "host").length = 6 := by decide
  have portName : (renderString "port").length = 6 := by decide
  have text := length_renderString host
  simp only [toJson, ofVariant, ofRecord, ofText, ofNat, List.map_cons, List.map_nil, render,
    renderFields, Option.getD_some, List.length_append, List.length_cons, List.length_nil, kind,
    hostName, portName]
  omega

theorem Endpoint.length_render_relayed (signalId : SignalId) :
    textSize signalId ≤ (relayed signalId).toJson.render.length ∧
      (relayed signalId).toJson.render.length ≤ textSize signalId + 39 := by
  have kind : (renderString "Relayed").length = 9 := by decide
  have name : (renderString "signal_id").length = 11 := by decide
  have text := length_renderString signalId
  simp only [toJson, ofVariant, ofRecord, ofText, List.map_cons, List.map_nil, render,
    renderFields, Option.getD_some, List.length_append, List.length_cons, List.length_nil, kind,
    name]
  omega

/-! ## Messages -/

theorem Json.length_renderItems_le {items : List Json} {most : Nat}
    (each : ∀ item ∈ items, item.render.length ≤ most) :
    (renderItems items).length ≤ items.length * (most + 1) := by
  induction items with
  | nil => exact Nat.zero_le _
  | cons item others hypothesis =>
      have first := each item List.mem_cons_self
      have rest := hypothesis fun other member => each other (List.mem_cons_of_mem item member)
      cases others with
      | nil =>
          simp only [renderItems, List.length_cons, List.length_nil]
          omega
      | cons next behind =>
          simp only [renderItems, List.length_append, List.length_cons] at rest ⊢
          rw [Nat.succ_mul]
          omega

theorem Message.length_encode_addresses (told : List PeerAddress) :
    (Message.addresses told).encode.length =
      (renderItems (told.map PeerAddress.toJson)).length + 11 := by
  have kind : (renderString "Addr").length = 6 := by decide
  simp only [encode, toJson, Message.kind, ofVariant, render, renderFields, Option.getD_some,
    List.length_append, List.length_cons, List.length_nil, kind]
  omega

/-- Addresses of a bounded size make a message of a bounded size. -/
theorem Message.length_encode_addresses_le {told : List PeerAddress} {most : Nat}
    (each : ∀ address ∈ told, address.toJson.render.length ≤ most) :
    (Message.addresses told).encode.length ≤ told.length * (most + 1) + 11 := by
  have items : (renderItems (told.map PeerAddress.toJson)).length ≤
      (told.map PeerAddress.toJson).length * (most + 1) := by
    apply length_renderItems_le
    intro item member
    obtain ⟨address, present, same⟩ := List.mem_map.1 member
    rw [← same]
    exact each address present
  rw [List.length_map] at items
  rw [length_encode_addresses]
  omega

theorem PeerAddress.sum_le_length_renderItems (told : List PeerAddress) :
    (told.map fun address => address.endpoint.toJson.render.length).sum ≤
      (renderItems (told.map toJson)).length := by
  induction told with
  | nil => exact Nat.zero_le _
  | cons address others hypothesis =>
      have first := address.le_length_render
      cases others with
      | nil => simpa [renderItems] using first
      | cons next behind =>
          have rest : (renderItems ((address :: next :: behind).map toJson)).length =
              address.toJson.render.length +
                ((renderItems ((next :: behind).map toJson)).length + 1) := by
            simp [renderItems]
          rw [List.map_cons, List.sum_cons, rest]
          omega

theorem Message.sum_le_length_encode_addresses (told : List PeerAddress) :
    (told.map fun address => address.endpoint.toJson.render.length).sum ≤
      (Message.addresses told).encode.length := by
  rw [length_encode_addresses]
  exact Nat.le_add_right_of_le (PeerAddress.sum_le_length_renderItems told)

/-- A message that is not too large can be put into a frame. -/
theorem Frame.encode_of_le {message : Message} (fits : message.encode.length ≤ maxBodySize)
    (buffer : List UInt8) : encode message buffer = (.ok (), buffer ++ wrap message.encode) :=
  if_neg (Nat.not_lt_of_le fits)

theorem Frame.encode_of_lt {message : Message} (large : maxBodySize < message.encode.length)
    (buffer : List UInt8) : encode message buffer = (.error .tooLarge, buffer) :=
  if_pos large

end PeerOverlay
