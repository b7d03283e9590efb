import PeerOverlay.PeerAddress
import PeerOverlay.Text.Pieces

/-!
# Bootstrap entries

The peers that a node knows from the start are given as `host:port`, where the
host may stand in brackets.
-/

namespace PeerOverlay

/-- An entry that names no host or no port. -/
inductive BootstrapError where
  | invalid (entry : String)
  deriving DecidableEq, Repr

def BootstrapError.message : BootstrapError → String
  | invalid entry => "Invalid bootstrap address: " ++ entry

namespace Bootstrap

def withoutBrackets (host : List Char) : List Char :=
  let host := host.dropWhile (· = '[')
  (host.reverse.dropWhile (· = ']')).reverse

def port? (digits : List Char) : Option UInt16 := do
  let port ← Numeral.readSigned? 10 digits
  if port = 0 ∨ UInt16.size ≤ port then none else some (UInt16.ofNat port)

def hostAndPort? (entry : List Char) : Option (List Char × UInt16) := do
  let (front, digits) ← Text.cutAtLast? ':' entry
  let host := withoutBrackets front
  let port ← port? digits
  if host = [] then none else some (host, port)

/-- The address that an entry stands for, seen at the given time. -/
def read (entry : String) (timestamp : Int64) : Except BootstrapError PeerAddress :=
  match hostAndPort? entry.toList with
  | none => .error (.invalid entry)
  | some (host, port) =>
      .ok (.fresh (.direct (String.ofList host) port) .full timestamp)

end Bootstrap

end PeerOverlay
