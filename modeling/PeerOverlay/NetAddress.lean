import PeerOverlay.Ip.Literal

/-!
# Network addresses

Where a connection or a peer comes from: an IP address in canonical text, or
the placeholder for a place that could not be told.
-/

namespace PeerOverlay

/-- A network address as a transport or a peer reports it. -/
inductive NetAddress where
  | ip (text : String)
  | unknown
  deriving DecidableEq, Repr

namespace NetAddress

/-- The network address of an IP literal, in canonical text. -/
def parse (text : String) : Except Ip.IpError NetAddress :=
  (Ip.sanitize text).map ip

def ofQuad (quad : Ip.Quad) : Except Ip.IpError NetAddress :=
  parse (String.ofList quad.render)

/-- The network address of eight groups, read from the text in which a socket
reports them. -/
def ofGroups (groups : Ip.Groups) : Except Ip.IpError NetAddress :=
  parse (String.ofList groups.renderSocket)

/-- A text that is no literal counts as public. -/
def isPrivate : NetAddress → Bool
  | ip text => (Ip.isPrivate text).toOption.getD false
  | unknown => false

/-- The placeholder names no physical host. -/
def isPseudo : NetAddress → Bool
  | ip _ => false
  | unknown => true

def text : NetAddress → String
  | ip text => text
  | unknown => "<unknown>"

end NetAddress

end PeerOverlay
