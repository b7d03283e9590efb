import PeerOverlay.Manager.Routing

/-!
# What a manager reacts to

Taking an event leaves some parts of the reaction to be done, each of them a turn
of the manager.  Every control is one turn.
-/

namespace PeerOverlay.Manager

/-- A part of the reaction to an event.  The manager is held for one part at a
time, so other things can happen between two parts. -/
inductive Part where
  | connection (link : LinkId)
  | connectFailed (address : PeerAddress)
  | handshake (peer : Peer)
  | relay (source : LinkId) (addresses : List PeerAddress)
  | route (link : LinkId) (signal : Signal)
  | ban (link : LinkId) (reason : String)
  | closed (link : LinkId)
  | checkPeerCount
  deriving DecidableEq, Repr

def Part.perform (around : Surroundings) (part : Part) (turn : Turn) : Turn :=
  match part with
  | .connection link => onConnection link turn
  | .connectFailed address => onConnectFailed address turn
  | .handshake peer => onHandshake around peer turn
  | .relay source addresses => relayToAgents around source addresses turn
  | .route link signal => onSignal around link signal turn
  | .ban link reason => banLink around link reason turn
  | .closed link => onClosed link turn
  | .checkPeerCount => Manager.checkPeerCount around turn

/-- The reaction to a signal.  An excessive one is a reason for a ban, and one
that this node has sent itself is ignored. -/
def signalParts (config : Config) (link : LinkId) (signal : Signal) : List Part :=
  if isExcessive config signal then [.ban link "invalid signal ttl"]
  else if signal.senderId = config.signalId then []
  else [.route link signal]

/-- Take an event: what is left to be done, part by part. -/
def take (event : Event) (turn : Turn) : List Part × Turn :=
  match event with
  | .connection link => ([.connection link], turn)
  | .connectFailed address => ([.connectFailed address, .checkPeerCount], turn)
  | .handshake peer => ([.handshake peer], turn)
  | .addresses link addresses =>
      let (added, turn) := learnAddresses link addresses turn
      (if added.isEmpty then [.checkPeerCount] else [.relay link added, .checkPeerCount], turn)
  | .signal link signal => (signalParts turn.manager.config link signal, turn)
  | .ban link reason => ([.ban link reason], turn)
  | .closed link _ =>
      (if turn.manager.slots.contains link then [.closed link, .checkPeerCount]
        else [.closed link],
        turn)
  | .checkPeerCount => ([.checkPeerCount], turn)

/-- React to an event, all parts in one go. -/
def handle (around : Surroundings) (event : Event) (turn : Turn) : Turn :=
  let (parts, turn) := take event turn
  parts.foldl (fun turn part => part.perform around turn) turn

inductive Control where
  | connect
  | disconnect (reason : String)
  | setOnline (online : Bool)
  | dial (address : PeerAddress)
  | stop
  deriving Repr

/-- Follow a control; only dialing can fail. -/
def follow (around : Surroundings) (control : Control) (turn : Turn) :
    Except DialError Unit × Turn :=
  match control with
  | .connect => (.ok (), Manager.connect around turn)
  | .disconnect reason => (.ok (), Manager.disconnect reason turn)
  | .setOnline online => (.ok (), Manager.setOnline around online turn)
  | .dial address => Manager.dial around address turn
  | .stop => (.ok (), turn.update Manager.stop)

end PeerOverlay.Manager
