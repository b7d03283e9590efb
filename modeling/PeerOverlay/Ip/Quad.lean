import PeerOverlay.Text.Pieces
import PeerOverlay.Text.Numeral

/-!
# Dotted quads

An IPv4 address is four octets.  Its text is four rows of decimal digits with
dots between them; padding with zeros is read and never written.
-/

namespace PeerOverlay.Ip

open PeerOverlay.Text

structure Quad where
  first : UInt8
  second : UInt8
  third : UInt8
  fourth : UInt8
  deriving DecidableEq, Repr

/-- The value of a row of decimal digits, if it is at most 255. -/
def octet? (digits : List Char) : Option UInt8 :=
  match Numeral.read? 10 digits with
  | some value => if value ≤ 255 then some (UInt8.ofNat value) else none
  | none => none

namespace Quad

/-- The address that a text of four octets denotes. -/
def read? (text : List Char) : Option Quad :=
  match pieces '.' text with
  | [a, b, c, d] => do
      return ⟨← octet? a, ← octet? b, ← octet? c, ← octet? d⟩
  | _ => none

def octets (quad : Quad) : List UInt8 :=
  [quad.first, quad.second, quad.third, quad.fourth]

def render (quad : Quad) : List Char :=
  glue '.' (quad.octets.map fun octet => Numeral.render 10 octet.toNat)

def toNat (quad : Quad) : Nat :=
  quad.octets.foldl (fun value octet => value * 256 + octet.toNat) 0

end Quad

/-- A block of IPv4 addresses that agree in their leading bits. -/
structure Block where
  network : Quad
  leadingBits : Nat
  deriving DecidableEq, Repr

def Block.contains (block : Block) (quad : Quad) : Bool :=
  let tail := Nat.pow 2 (32 - block.leadingBits)
  quad.toNat / tail == block.network.toNat / tail

/-- The private, shared carrier and link-local blocks. -/
def privateBlocks : List Block :=
  [⟨⟨10, 0, 0, 0⟩, 8⟩,
    ⟨⟨172, 16, 0, 0⟩, 12⟩,
    ⟨⟨192, 168, 0, 0⟩, 16⟩,
    ⟨⟨100, 64, 0, 0⟩, 10⟩,
    ⟨⟨169, 254, 0, 0⟩, 16⟩]

def Quad.isPrivate (quad : Quad) : Bool :=
  privateBlocks.any fun block => block.contains quad

end PeerOverlay.Ip
