import PeerOverlay.Manager.State

/-!
# Opening connections

A connection is opened on request, or because there are fewer than wanted.  An
attempt that cannot be started counts as a failure of the address.
-/

namespace PeerOverlay

inductive DialError where
  | connectionFailed (address : PeerAddress)
  | noConnector (protocol : Protocol)
  | noRoute (signalId : SignalId)
  | disconnected
  | maxPeersReached
  deriving DecidableEq, Repr

def DialError.message : DialError → String
  | connectionFailed address => "Connection failed: " ++ address.text
  | noConnector protocol => "No connector for " ++ protocol.name ++ " addresses"
  | noRoute signalId => "No signal route to " ++ signalId
  | disconnected => "Network disconnected"
  | maxPeersReached => "Max peers reached"

namespace Manager

/-- The connector for an address, and the link through which its signals go. -/
def connectorFor (connectors : Connectors) (book : AddressBook) (links : Links)
    (address : PeerAddress) : Except DialError (Connector × Option LinkId) :=
  match address.endpoint with
  | .direct _ _ =>
      match connectors.direct with
      | none => .error (.noConnector .direct)
      | some connector => .ok (connector, none)
  | .relayed signalId =>
      match connectors.relayed with
      | none => .error (.noConnector .relayed)
      | some connector =>
          match book.lookup? links.isOpen signalId with
          | none => .error (.noRoute signalId)
          | some route => .ok (connector, some route)
  | .unreachable _ => .error (.noConnector .unreachable)

def failToConnect (address : PeerAddress) (turn : Turn) : Turn :=
  (turn.updateBook fun book => book.markUnreachable address).emit (.recheck none)

def connectTo (around : Surroundings) (address : PeerAddress) (turn : Turn) :
    Except DialError Unit × Turn :=
  let turn := turn.updateBook fun book => book.markConnecting address
  match connectorFor around.connectors turn.manager.book turn.links address with
  | .error error => (.error error, failToConnect address turn)
  | .ok (connector, via) =>
      let started := connector.starts address via
      let turn := turn.emit (.dial address via started)
      if started then
        (.ok (),
          turn.update fun manager =>
            { manager with connectingCount := manager.connectingCount + 1 })
      else
        (.error (.connectionFailed address), failToConnect address turn)

def wantsConnection (manager : Manager) : Bool :=
  manager.autoConnect &&
    manager.slots.size + manager.connectingCount < manager.config.peerCountDesired &&
    manager.connectingCount < manager.config.connectingCountMax

/-- Open a connection if there are fewer than wanted. -/
def checkPeerCount (around : Surroundings) (turn : Turn) : Turn :=
  if turn.manager.wantsConnection then
    match turn.manager.book.pick? turn.links.isOpen around.now around.pickLots with
    | none => turn
    | some address => (connectTo around address turn).2
  else
    turn

/-! ## Controls -/

def dial (around : Surroundings) (address : PeerAddress) (turn : Turn) :
    Except DialError Unit × Turn :=
  if turn.manager.offline || turn.manager.stopped then
    (.error .disconnected, turn)
  else if turn.manager.hasMaxPeers then
    (.error .maxPeersReached, turn)
  else
    connectTo around address turn

/-- Open connections without being asked for from now on. -/
def connect (around : Surroundings) (turn : Turn) : Turn :=
  checkPeerCount around
    (turn.update fun manager => { manager with autoConnect := true, savedAutoConnect := true })

/-- Close every link and open none without being asked for. -/
def disconnect (reason : String) (turn : Turn) : Turn :=
  let turn :=
    turn.update fun manager => { manager with autoConnect := false, savedAutoConnect := false }
  turn.closeAll reason

def goOffline (turn : Turn) : Turn :=
  let turn :=
    turn.update fun manager =>
      { manager with
        offline := true
        savedAutoConnect := manager.autoConnect
        autoConnect := false }
  turn.closeAll "network disconnect"

def goOnline (around : Surroundings) (turn : Turn) : Turn :=
  checkPeerCount around
    (turn.update fun manager =>
      { manager with offline := false, autoConnect := manager.savedAutoConnect })

def setOnline (around : Surroundings) (online : Bool) (turn : Turn) : Turn :=
  if online then goOnline around turn else goOffline turn

def stop (manager : Manager) : Manager :=
  { manager with stopped := true }

end Manager

end PeerOverlay
