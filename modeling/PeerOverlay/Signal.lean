import PeerOverlay.PeerAddress

/-!
# Signals

Peers that cannot reach each other negotiate a connection through signals,
which other nodes pass on hop by hop.  A signal that cannot be delivered comes
back with a flag that says why.
-/

namespace PeerOverlay

/-- Why a signal came back. -/
structure SignalFlags where
  bits : UInt8
  deriving DecidableEq, Repr

namespace SignalFlags

def names : FlagNames where
  width := 8
  names := [("UNROUTABLE", 1), ("TTL_EXCEEDED", 2)]

def none : SignalFlags := ⟨0⟩
def unroutable : SignalFlags := ⟨1⟩
def ttlExceeded : SignalFlags := ⟨2⟩

def contains (flags flag : SignalFlags) : Bool :=
  flags.bits &&& flag.bits == flag.bits

def render (flags : SignalFlags) : String :=
  names.render flags.bits.toNat

def read? (text : String) : Option SignalFlags :=
  (names.read? text).map fun bits => ⟨UInt8.ofNat bits⟩

end SignalFlags

/-- A signal on its way from one relayed peer to another. -/
structure Signal where
  senderId : SignalId
  recipientId : SignalId
  nonce : UInt32
  /-- The number of hops that the signal may still take. -/
  ttl : UInt8
  flags : SignalFlags
  payload : Option String
  deriving DecidableEq, Repr

namespace Signal

/-- The flagged answer that travels back to the sender. -/
def reply (signal : Signal) (ttl : UInt8) (flags : SignalFlags) : Signal where
  senderId := signal.recipientId
  recipientId := signal.senderId
  nonce := signal.nonce
  ttl := ttl
  flags := flags
  payload := none

def isUnroutable (signal : Signal) : Bool :=
  signal.flags.contains .unroutable

def isTtlExceeded (signal : Signal) : Bool :=
  signal.flags.contains .ttlExceeded

/-- A plain signal is no answer. -/
def isPlain (signal : Signal) : Bool :=
  signal.flags.bits == 0

end Signal

end PeerOverlay
