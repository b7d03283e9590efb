import PeerOverlay.Agent.State

/-!
# The exchange of versions

Both ends announce themselves first.  A link is established when the version
of this node is queued and an acceptable version has come.
-/

namespace PeerOverlay.Agent

def Surroundings.ownVersion (around : Surroundings) : Version where
  version := protocolVersion
  peerAddress := around.config.peerAddress
  genesisHash := around.chain.genesisHash
  startHeight := around.chain.height
  totalWork := around.chain.totalWork

/-- Both versions are exchanged: keep the link alive, tell the manager and ask
for addresses. -/
def finishHandshake (around : Surroundings) (turn : Turn) : Turn :=
  match turn.agent.peer with
  | none => turn
  | some peer =>
      let turn := turn.update fun agent => { agent with phase := .established }
      let turn :=
        turn.setInterval .connectivity around.now around.config.connectivityCheckInterval
      let turn :=
        turn.setInterval .announceAddress around.now around.config.announceAddrInterval
      let turn := turn.emit (.handshake peer)
      turn.sendIfRoom (.getAddresses around.config.protocolMask around.config.serviceMask)

/-- Queue the version of this node.  If there is no room, try again later, up to
a number of attempts. -/
def handshake (around : Surroundings) (turn : Turn) : Turn :=
  if turn.agent.versionSent || turn.agent.phase == .closed then
    turn
  else
    let (queued, turn) := turn.send (.version around.ownVersion)
    if queued then
      let turn := turn.update fun agent =>
        { agent with versionSent := true, phase := .handshakeInFlight }
      if turn.agent.versionReceived then
        finishHandshake around turn
      else
        turn.setTimeout .versionTimeout around.now around.config.handshakeTimeout
    else
      let turn := turn.update fun agent =>
        { agent with versionAttempts := agent.versionAttempts + 1 }
      if around.config.versionAttemptsMax ≤ turn.agent.versionAttempts then
        turn.close "sending of version message failed"
      else
        turn.setTimeout .versionRetry around.now around.config.versionRetryDelay

inductive Refusal where
  | incompatible (version : UInt32)
  | otherGenesis (genesisHash : String)
  | unexpectedAddress
  deriving DecidableEq, Repr

def Refusal.reason : Refusal → String
  | incompatible version =>
      "incompatible version (ours=" ++ toString protocolVersion.toNat ++ ", theirs=" ++
        toString version.toNat ++ ")"
  | otherGenesis genesisHash => "different genesis block (" ++ genesisHash ++ ")"
  | unexpectedAddress => "unexpected peerAddress in version message"

/-- Why a version that comes on a link to an expected address cannot be
accepted, if it cannot. -/
def refusal? (genesisHash : String) (expected : Option PeerAddress) (version : Version) :
    Option Refusal :=
  if !isCompatible version.version then
    some (.incompatible version.version)
  else if version.genesisHash ≠ genesisHash then
    some (.otherGenesis version.genesisHash)
  else
    match expected with
    | none => none
    | some expected =>
        if expected.samePeer version.peerAddress then none else some .unexpectedAddress

/-- An announced address, completed by the network address in the book. -/
def completed (book : AddressBook) (address : PeerAddress) : PeerAddress :=
  { address with
    netAddress :=
      address.netAddress.orElse fun _ => (book.stored? address).bind PeerAddress.netAddress }

def acceptVersion (around : Surroundings) (version : Version) (turn : Turn) : Turn :=
  let address := completed around.book version.peerAddress
  let turn := turn.noteKnown [address] around.now
  let turn := { turn with link := turn.link.learnPeer address }
  let peer : Peer := {
    link := turn.link.id
    address := address
    version := version.version
    startHeight := version.startHeight
    totalWork := version.totalWork
  }
  let turn := turn.update fun agent =>
    { agent with peer := some peer, versionReceived := true }
  if turn.agent.versionSent then finishHandshake around turn else turn

/-- A version has come.  Only the first one counts. -/
def onVersion (around : Surroundings) (version : Version) (turn : Turn) : Turn :=
  if turn.agent.versionReceived then
    turn.discard
  else
    let turn := turn.clearAlarm .versionTimeout
    match refusal? around.chain.genesisHash turn.link.peerAddress version with
    | some refusal => turn.close refusal.reason
    | none => acceptVersion around version turn

end PeerOverlay.Agent
