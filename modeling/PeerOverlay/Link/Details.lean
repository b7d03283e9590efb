import PeerOverlay.Link
import PeerOverlay.Text.Quoted

/-!
# The fields of a link

A link written out field by field, for people who look for a fault.
-/

namespace PeerOverlay

def NetAddress.details : NetAddress → String
  | ip text => "Ip(" ++ Text.quoted text ++ ")"
  | unknown => "Unknown"

/-- A link field by field; a link is known by the given name. -/
def Link.details (link : Link) (name : String) : String :=
  let netAddress :=
    match link.netAddress with
    | some netAddress => "Some(" ++ netAddress.details ++ ")"
    | none => "None"
  "PeerChannel \x7b id: " ++ name ++
    ", direction: " ++ link.direction.name.capitalize ++
    ", protocol: " ++ link.protocol.name.capitalize ++
    ", net_address: " ++ netAddress ++
    ", closed: " ++ toString link.closed ++ " \x7d"

end PeerOverlay
