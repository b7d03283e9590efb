import PeerOverlay.Agent.Gossip

/-!
# The steps of an agent

An agent takes one step at a time.  It starts by announcing this node.  After
that a closed link comes first, then alarms, then what the manager wants, and
then the messages of the peer.
-/

namespace PeerOverlay.Agent

/-- Ping the peer and wait for the answer. -/
def checkConnectivity (around : Surroundings) (turn : Turn) : Turn :=
  let (queued, turn) := turn.send (.ping around.nonce)
  if queued then
    turn.setTimeout (.pingTimeout around.nonce) around.now around.config.pingTimeout
  else
    turn.close "sending ping message failed"

/-- An alarm has rung.  One that is no longer wanted is ignored. -/
def onAlarm (around : Surroundings) (alarm : Alarm) (turn : Turn) : Turn :=
  match alarm with
  | .versionRetry =>
      let (wanted, turn) := turn.takeAlarm alarm
      if wanted then handshake around turn else turn
  | .versionTimeout =>
      let (wanted, turn) := turn.takeAlarm alarm
      if wanted then turn.close "version timeout" else turn
  | .pingTimeout _ =>
      let (wanted, turn) := turn.takeAlarm alarm
      if wanted then turn.close "ping timeout" else turn
  | .connectivity =>
      if turn.agent.timers.isSet alarm then checkConnectivity around turn else turn
  | .announceAddress =>
      if turn.agent.timers.isSet alarm then announceAddress around turn else turn

/-- A message after the version of the peer. -/
def onTalk (around : Surroundings) (message : Message) (turn : Turn) : Turn :=
  match message with
  | .version version => onVersion around version turn
  | .addresses addresses => onAddresses around addresses turn
  | .getAddresses protocols services => onGetAddresses around protocols services turn
  | .ping nonce => turn.sendIfRoom (.pong nonce)
  | .pong nonce => turn.clearAlarm (.pingTimeout nonce)
  | .signal signal => turn.emit (.signal turn.link.id signal)

/-- A message has come.  Before the version of the peer nothing else counts. -/
def onMessage (around : Surroundings) (message : Message) (turn : Turn) : Turn :=
  if turn.link.closed then
    turn
  else if turn.agent.versionReceived then
    onTalk around message turn
  else
    match message with
    | .version version => onVersion around version turn
    | _ => turn.discard

/-- The link has come to its end; the manager is told once. -/
def finish (byRemote : Bool) (turn : Turn) : Turn :=
  if turn.agent.phase = .closed then
    turn
  else
    let turn := turn.update fun agent =>
      { agent with phase := .closed, timers := agent.timers.clearAll, rung := [], relays := [] }
    let turn := if byRemote then turn.close "closed by remote" else turn
    let turn := { turn with link := turn.link.abandon }
    turn.emit (.closed turn.link.id byRemote)

/-- The first step: announce this node. -/
def start (around : Surroundings) (turn : Turn) : Turn :=
  handshake around (turn.update fun agent => { agent with started := true })

inductive Task where
  | start
  | finish (byRemote : Bool)
  | alarm (alarm : Alarm) (others : List Alarm)
  | relay (addresses : List PeerAddress) (others : List (List PeerAddress))
  | message (message : Message) (others : List Message)

/-- What an agent does next, if there is anything to do. -/
def nextTask? (agent : Agent) (link : Link) : Option Task :=
  if !agent.started then
    some .start
  else if agent.phase = .closed then
    none
  else if link.closed then
    some (.finish false)
  else
    match agent.rung, agent.relays, link.inbound with
    | alarm :: others, _, _ => some (.alarm alarm others)
    | [], addresses :: others, _ => some (.relay addresses others)
    | [], [], message :: others => some (.message message others)
    | [], [], [] => if link.delivers then none else some (.finish true)

def perform (around : Surroundings) (task : Task) (turn : Turn) : Turn :=
  match task with
  | .start => start around turn
  | .finish byRemote => finish byRemote turn
  | .alarm alarm others =>
      onAlarm around alarm (turn.update fun agent => { agent with rung := others })
  | .relay addresses others =>
      relayAddresses around addresses
        (turn.update fun agent => { agent with relays := others })
  | .message message others =>
      onMessage around message { turn with link := { turn.link with inbound := others } }

/-- One step of an agent on its link, if there is anything to do; the events
that it tells the manager. -/
def step (around : Surroundings) (agent : Agent) (link : Link) : Option Turn :=
  (nextTask? agent link).map fun task => perform around task ⟨agent, link, []⟩

end PeerOverlay.Agent
