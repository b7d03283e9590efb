import PeerOverlay.Manager.Admission
import PeerOverlay.Manager.Departure

/-!
# Passing addresses and signals on

New addresses are told to a few other peers.  A signal goes to the connector if
it is for this node, and else one hop further; a signal that comes back says
that a route is of no use.
-/

namespace PeerOverlay.Manager

/-- Addresses have come through a link; the new ones among them, unless there
are too many to pass any of them on. -/
def learnAddresses (link : LinkId) (addresses : List PeerAddress) (turn : Turn) :
    List PeerAddress × Turn :=
  let (added, book) := turn.manager.book.ingest link addresses
  let few := addresses.length ≤ turn.manager.config.relayBatchMax
  (if few then added else [], turn.updateBook fun _ => book)

/-! ## Signals -/

/-- The forward that a signal is an answer to. -/
def answeredForward (signal : Signal) : ForwardedSignal where
  senderId := signal.recipientId
  recipientId := signal.senderId
  nonce := signal.nonce

def forwardOf (signal : Signal) : ForwardedSignal where
  senderId := signal.senderId
  recipientId := signal.recipientId
  nonce := signal.nonce

def isFlagged (signal : Signal) : Bool :=
  signal.isUnroutable || signal.isTtlExceeded

/-- The route through a link to the sender of a signal is of no use. -/
def dropRoute (link : LinkId) (signal : Signal) (turn : Turn) : Turn :=
  turn.updateBook fun book => book.markUnroutable link signal.senderId

/-- A signal that has come back after this node passed it on says that the
route is of no use. -/
def heedAnswer (around : Surroundings) (link : LinkId) (signal : Signal) (turn : Turn) : Turn :=
  if isFlagged signal then
    let (recent, forwards) :=
      turn.manager.forwards.wasRecentlyForwarded (answeredForward signal) around.now
    let turn := turn.update fun manager => { manager with forwards := forwards }
    if recent then dropRoute link signal turn else turn
  else
    turn

def receive (around : Surroundings) (link : LinkId) (signal : Signal) (turn : Turn) : Turn :=
  match around.connectors.relayed with
  | none => turn
  | some connector =>
      let turn :=
        if isFlagged signal && connector.recognizes signal then
          dropRoute link signal turn
        else
          turn
      turn.emit (.handSignal link signal)

/-- Send a plain signal back with a flag.  A signal that has come back already
is dropped. -/
def sendBack (link : LinkId) (signal : Signal) (flags : SignalFlags) (turn : Turn) : Turn :=
  if signal.isPlain then
    let reply := signal.reply turn.manager.config.signalTtlInitial flags
    { turn with links := (turn.links.send link (.signal reply)).2 }
  else
    turn

/-- Send a signal through the link that leads to its recipient, and remember it
if it may come back. -/
def forward (around : Surroundings) (target : LinkId) (signal : Signal) (turn : Turn) : Turn :=
  let (queued, links) := turn.links.send target (.signal { signal with ttl := signal.ttl - 1 })
  let turn := { turn with links := links }
  if queued && signal.isPlain then
    turn.update fun manager =>
      { manager with forwards := manager.forwards.add (forwardOf signal) around.now }
  else
    turn

def passOn (around : Surroundings) (link : LinkId) (signal : Signal) (turn : Turn) : Turn :=
  if signal.ttl = 0 then
    sendBack link signal .ttlExceeded turn
  else
    match turn.manager.book.lookup? turn.links.isOpen signal.recipientId with
    | none => sendBack link signal .unroutable turn
    | some target =>
        if target = link then turn else forward around target signal turn

/-- Whether a signal pretends to have more hops left than any signal starts
with. -/
def isExcessive (config : Config) (signal : Signal) : Bool :=
  config.signalTtlInitial < signal.ttl

/-- A signal of another node has come through a link. -/
def onSignal (around : Surroundings) (link : LinkId) (signal : Signal) (turn : Turn) : Turn :=
  let turn := heedAnswer around link signal turn
  if signal.recipientId = turn.manager.config.signalId then
    receive around link signal turn
  else
    passOn around link signal turn

end PeerOverlay.Manager
