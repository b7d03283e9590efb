import PeerOverlay.Message.Encoding

/-!
# Frames

On a byte stream each message travels in a frame: four fixed bytes, the number
of bytes of the message in four bytes, then the bytes of the message.
-/

namespace PeerOverlay

namespace Frame

def magic : List UInt8 := [0x45, 0x56, 0x4f, 0x4e]

def headerSize : Nat := 8

def maxBodySize : Nat := 4 * 1024 * 1024

/-- Why no message can be put into or taken out of a stream. -/
inductive FrameError where
  | badMagic
  | tooLarge
  | unreadable
  deriving DecidableEq, Repr

def FrameError.message : FrameError → String
  | badMagic => "IO error: Invalid magic bytes"
  | tooLarge => "IO error: Message too large"
  | unreadable => "Serialization error"

/-- A number below `2 ^ 32` as four bytes, the highest first. -/
def lengthBytes (length : Nat) : List UInt8 :=
  [UInt8.ofNat (length >>> 24), UInt8.ofNat (length >>> 16), UInt8.ofNat (length >>> 8),
    UInt8.ofNat length]

/-- The number that four bytes denote, the highest first. -/
def lengthOf (a b c d : UInt8) : Nat :=
  ((a.toNat * 256 + b.toNat) * 256 + c.toNat) * 256 + d.toNat

def wrap (body : List UInt8) : List UInt8 :=
  magic ++ lengthBytes body.length ++ body

/-! ## Buffers -/

/-- Put the frame of a message behind the bytes in a buffer; whether that was possible, and
the buffer after that. -/
def encode (message : Message) (buffer : List UInt8) : Except FrameError Unit × List UInt8 :=
  let body := message.encode
  if maxBodySize < body.length then
    (.error .tooLarge, buffer)
  else
    (.ok (), buffer ++ wrap body)

/-- Take the message at the front off a buffer, if its frame is complete; what has come of it,
and the buffer after that.  A frame whose bytes are no message is taken off all the same. -/
def decode (buffer : List UInt8) : Except FrameError (Option Message) × List UInt8 :=
  match buffer with
  | m₁ :: m₂ :: m₃ :: m₄ :: a :: b :: c :: d :: rest =>
      if [m₁, m₂, m₃, m₄] ≠ magic then
        (.error .badMagic, buffer)
      else
        let length := lengthOf a b c d
        if maxBodySize < length then
          (.error .tooLarge, buffer)
        else
          let (body, behind) := rest.splitAt length
          if body.length < length then
            (.ok none, buffer)
          else
            match Message.decode? body with
            | some message => (.ok (some message), behind)
            | none => (.error .unreadable, behind)
  | _ => (.ok none, buffer)

end Frame

def Message.wireSize (message : Message) : Nat :=
  Frame.headerSize + message.encode.length

end PeerOverlay
