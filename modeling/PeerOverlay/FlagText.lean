import PeerOverlay.Text.Blank
import PeerOverlay.Text.Pieces
import PeerOverlay.Text.Numeral

/-!
# The text of a set of flags

A set of flags is written as the names of its flags with bars between them.
Bits without a name follow as one hexadecimal number.
-/

namespace PeerOverlay

open PeerOverlay.Text

/-- The flags of one kind that have a name, each a single bit, and the number
of bits of a set. -/
structure FlagNames where
  width : Nat
  names : List (String × Nat)

namespace FlagNames

def known (flags : FlagNames) : Nat :=
  flags.names.foldl (fun bits named => bits ||| named.2) 0

def namesIn (flags : FlagNames) (bits : Nat) : List String :=
  (flags.names.filter fun named => bits &&& named.2 != 0).map Prod.fst

def unnamed (flags : FlagNames) (bits : Nat) : Nat :=
  bits - (bits &&& flags.known)

def render (flags : FlagNames) (bits : Nat) : String :=
  let rest := flags.unnamed bits
  let tail :=
    if rest = 0 then [] else ["0x" ++ String.ofList (Numeral.render 16 rest)]
  " | ".intercalate (flags.namesIn bits ++ tail)

/-- One flag, by name or as a hexadecimal number. -/
def readFlag? (flags : FlagNames) (text : List Char) : Option Nat :=
  match text with
  | '0' :: 'x' :: digits =>
      match Numeral.readSigned? 16 digits with
      | some bits => if bits < Nat.pow 2 flags.width then some bits else none
      | none => none
  | name => flags.names.lookup (String.ofList name)

/-- The set of flags that a text denotes.  Blanks around the names do not
count, and a blank text is the empty set. -/
def read? (flags : FlagNames) (text : String) : Option Nat :=
  if trim text.toList = [] then
    some 0
  else
    (pieces '|' text.toList).foldlM
      (fun bits piece => (flags.readFlag? (trim piece)).map fun flag => bits ||| flag) 0

end FlagNames

end PeerOverlay
