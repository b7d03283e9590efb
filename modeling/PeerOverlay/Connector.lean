import PeerOverlay.Link

/-!
# Connectors

A connector opens connections of one kind.  It only says whether an attempt was
started; the outcome comes later, as an event.
-/

namespace PeerOverlay

structure Connector where
  /-- Whether an attempt to connect to an address is started, signals going
  through the given link. -/
  starts : PeerAddress → Option LinkId → Bool
  /-- Whether a signal belongs to a negotiation that was started here. -/
  recognizes : Signal → Bool

structure Connectors where
  direct : Option Connector
  relayed : Option Connector

namespace Connectors

def none : Connectors where
  direct := .none
  relayed := .none

end Connectors

namespace Connector

/-- Opens sockets, which needs a running node and the endpoint of a host. -/
def socket (running : Bool) : Connector where
  starts := fun address _ => address.protocol == .direct && running
  recognizes := fun _ => false

end Connector

end PeerOverlay
