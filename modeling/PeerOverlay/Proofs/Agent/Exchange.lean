import PeerOverlay.Agent.Step

/-!
# What the turns of an agent do to the exchange of versions

A turn of an agent announces this node, accepts the version of the other node,
or leaves the exchange of versions as it is.  It is said once for every turn
which of these it does, and what it queues and tells the manager then.
-/

namespace PeerOverlay

/-- The peer of which an event tells that both versions are exchanged. -/
def Event.handshake? : Event → Option Peer
  | .handshake peer => some peer
  | _ => none

def Message.version? : Message → Option Version
  | .version said => some said
  | _ => none

namespace Agent

/-! ## The exchange of versions -/

/-- What an agent, its link and its events show of the exchange of versions. -/
structure Exchange where
  sent : Bool
  received : Bool
  peer : Option Peer
  id : LinkId
  address : Option PeerAddress
  queue : List Message
  events : List Event

def Turn.exchange (turn : Turn) : Exchange where
  sent := turn.agent.versionSent
  received := turn.agent.versionReceived
  peer := turn.agent.peer
  id := turn.link.id
  address := turn.link.peerAddress
  queue := turn.link.outbound
  events := turn.events

/-- The exchange after more was queued and told. -/
def Exchange.add (exchange : Exchange) (messages : List Message) (events : List Event) :
    Exchange :=
  { exchange with queue := exchange.queue ++ messages, events := exchange.events ++ events }

/-- The peer that a version announces. -/
def announced (around : Surroundings) (id : LinkId) (version : Version) : Peer where
  link := id
  address := completed around.book version.peerAddress
  version := version.version
  startHeight := version.startHeight
  totalWork := version.totalWork

/-- What becomes of the exchange in a turn in which only the given version has
come. -/
inductive Exchanged (around : Surroundings) (heard : Option Version)
    (before after : Exchange) : Prop where
  | kept (messages : List Message) (events : List Event)
      (quiet : events.filterMap Event.handshake? = [])
      (same : after = before.add messages events)
  | announced (unsent : before.sent = false) (messages : List Message)
      (same : after = { before with sent := true }.add
        (.version around.ownVersion :: messages)
        (if before.received then before.peer.toList.map .handshake else []))
  | accepted (version : Version) (came : heard = some version)
      (unreceived : before.received = false)
      (fits : refusal? around.chain.genesisHash before.address version = none)
      (messages : List Message)
      (same : after =
        { before with
          received := true
          peer := some (Agent.announced around before.id version)
          address := some (before.address.getD (completed around.book version.peerAddress)) }.add
        messages
        (if before.sent then [.handshake (Agent.announced around before.id version)] else []))

namespace Exchange

variable (exchange : Exchange)

theorem add_messages (messages : List Message) :
    exchange.add messages [] = { exchange with queue := exchange.queue ++ messages } := by
  simp [add]

theorem add_nil : exchange.add [] [] = exchange := by
  simp [add]

theorem add_add (messages later : List Message) (events news : List Event) :
    (exchange.add messages events).add later news =
      exchange.add (messages ++ later) (events ++ news) := by
  simp [add]

end Exchange

/-! ## Sending -/

theorem send_of_canSend {turn : Turn} (room : turn.link.canSend) (message : Message) :
    turn.send message =
      (true, { turn with link :=
        { turn.link with outbound := turn.link.outbound ++ [message] } }) := by
  simp [Turn.send, Link.send, room]

theorem send_of_not_canSend {turn : Turn} (full : ¬ turn.link.canSend) (message : Message) :
    turn.send message = (false, turn) := by
  simp [Turn.send, Link.send, full]

theorem exchange_sendIfRoom (message : Message) (turn : Turn) :
    ∃ messages, (turn.sendIfRoom message).exchange = turn.exchange.add messages [] := by
  unfold Turn.sendIfRoom
  by_cases room : turn.link.canSend
  · refine ⟨[message], ?_⟩
    rw [send_of_canSend room, Exchange.add_messages]
    rfl
  · refine ⟨[], ?_⟩
    rw [send_of_not_canSend room, Exchange.add_nil]

/-! ## Turns that leave the exchange as it is -/

namespace Exchanged

variable {around : Surroundings} {heard : Option Version} {before after : Exchange}

theorem of_eq (same : after = before) : Exchanged around heard before after := by
  rw [same]
  exact .kept [] [] rfl before.add_nil.symm

theorem id_eq (exchanged : Exchanged around heard before after) : after.id = before.id := by
  cases exchanged with
  | kept messages events quiet same => rw [same]; rfl
  | announced unsent messages same => rw [same]; rfl
  | accepted version came unreceived fits messages same => rw [same]; rfl

theorem sent (message : Message) (turn : Turn) :
    Exchanged around heard turn.exchange (turn.sendIfRoom message).exchange := by
  obtain ⟨messages, same⟩ := exchange_sendIfRoom message turn
  exact .kept messages [] rfl same

theorem told (event : Event) (quiet : event.handshake? = none) (turn : Turn) :
    Exchanged around heard turn.exchange (turn.emit event).exchange := by
  refine .kept [] [event] ?_ ?_
  · simp [quiet]
  · simp [Turn.exchange, Turn.emit, Exchange.add]

theorem addressesCame (addresses : List PeerAddress) (turn : Turn) :
    Exchanged around heard turn.exchange (onAddresses around addresses turn).exchange := by
  unfold onAddresses
  split
  · exact told (.ban turn.link.id "addr message too large") rfl turn
  · exact told (.addresses turn.link.id addresses) rfl turn

theorem addressesAsked (protocols : Protocols) (services : Services) (turn : Turn) :
    Exchanged around heard turn.exchange
      (onGetAddresses around protocols services turn).exchange :=
  sent _ (turn.noteKnown _ around.now)

theorem addressesRelayed (addresses : List PeerAddress) (turn : Turn) :
    Exchanged around heard turn.exchange (relayAddresses around addresses turn).exchange := by
  unfold relayAddresses
  split
  · exact of_eq rfl
  · dsimp only
    split
    · exact of_eq rfl
    · exact sent _ (turn.noteKnown _ around.now)

theorem connectivityChecked (turn : Turn) :
    Exchanged around heard turn.exchange (checkConnectivity around turn).exchange := by
  unfold checkConnectivity
  by_cases room : turn.link.canSend
  · rw [send_of_canSend room]
    refine .kept [.ping around.nonce] [] rfl ?_
    rw [Exchange.add_messages]
    rfl
  · rw [send_of_not_canSend room]
    exact of_eq rfl

theorem finished (byRemote : Bool) (turn : Turn) :
    Exchanged around heard turn.exchange (finish byRemote turn).exchange := by
  unfold finish
  split
  · exact of_eq rfl
  · cases byRemote with
    | false => exact told (.closed turn.link.id false) rfl turn
    | true => exact told (.closed turn.link.id true) rfl turn

end Exchanged

/-! ## Turns of the exchange -/

/-- Once both versions are exchanged, the manager is told of the peer. -/
theorem exchange_finishHandshake (around : Surroundings) (turn : Turn) :
    ∃ messages, (finishHandshake around turn).exchange =
      turn.exchange.add messages (turn.exchange.peer.toList.map .handshake) := by
  unfold finishHandshake
  cases known : turn.agent.peer with
  | none =>
      have nobody : turn.exchange.peer = none := known
      refine ⟨[], ?_⟩
      rw [nobody]
      exact turn.exchange.add_nil.symm
  | some peer =>
      have somebody : turn.exchange.peer = some peer := known
      obtain ⟨messages, same⟩ := exchange_sendIfRoom
        (.getAddresses around.config.protocolMask around.config.serviceMask)
        (turn.emit (.handshake peer))
      have told : (turn.emit (.handshake peer)).exchange =
          turn.exchange.add [] [.handshake peer] := by
        simp [Turn.exchange, Turn.emit, Exchange.add]
      rw [told, Exchange.add_add] at same
      refine ⟨messages, ?_⟩
      rw [somebody]
      exact same

namespace Exchanged

variable {around : Surroundings}

theorem ownAnnounced {heard : Option Version} (turn : Turn) :
    Exchanged around heard turn.exchange (handshake around turn).exchange := by
  unfold handshake
  split
  · exact of_eq rfl
  · next unfinished =>
      have unsent : turn.exchange.sent = false := by
        simp only [Bool.or_eq_true, not_or, Bool.not_eq_true] at unfinished
        exact unfinished.1
      by_cases room : turn.link.canSend
      · rw [send_of_canSend room]
        dsimp only
        rw [if_pos rfl]
        have queued := Exchange.add_messages { turn.exchange with sent := true }
          [.version around.ownVersion]
        split
        · next received =>
            have known : turn.exchange.received = true := received
            obtain ⟨messages, same⟩ := exchange_finishHandshake around _
            refine .announced unsent messages (same.trans ?_)
            rw [if_pos known]
            refine Eq.trans ?_ (Exchange.add_add _ [.version around.ownVersion] messages [] _)
            rw [queued]
            rfl
        · next missing =>
            have unknown : ¬ turn.exchange.received = true := missing
            refine .announced unsent [] ?_
            rw [if_neg unknown, queued]
            rfl
      · rw [send_of_not_canSend room]
        dsimp only
        rw [if_neg Bool.false_ne_true]
        split <;> exact of_eq rfl

theorem versionCame (version : Version) (turn : Turn) :
    Exchanged around (some version) turn.exchange (onVersion around version turn).exchange := by
  unfold onVersion
  split
  · exact of_eq rfl
  · next missing =>
      have unreceived : turn.exchange.received = false := (Bool.not_eq_true _).mp missing
      dsimp only
      split
      · exact of_eq rfl
      · next fits =>
          unfold acceptVersion
          dsimp only
          split
          · next sent =>
              have known : turn.exchange.sent = true := sent
              obtain ⟨messages, same⟩ := exchange_finishHandshake around _
              refine .accepted version rfl unreceived fits messages (same.trans ?_)
              rw [if_pos known]
              rfl
          · next unsent =>
              have unknown : ¬ turn.exchange.sent = true := unsent
              refine .accepted version rfl unreceived fits [] ?_
              rw [if_neg unknown, Exchange.add_nil]
              rfl

theorem messageCame (message : Message) (turn : Turn) :
    Exchanged around message.version? turn.exchange (onMessage around message turn).exchange := by
  unfold onMessage
  split
  · exact of_eq rfl
  · split
    · cases message with
      | version version => exact versionCame version turn
      | addresses addresses => exact addressesCame addresses turn
      | getAddresses protocols services => exact addressesAsked protocols services turn
      | ping nonce => exact sent (.pong nonce) turn
      | pong nonce =>
          exact of_eq rfl
      | signal signal => exact told (.signal turn.link.id signal) rfl turn
    · cases message with
      | version version => exact versionCame version turn
      | _ => exact of_eq rfl

theorem alarmRung {heard : Option Version} (alarm : Alarm) (turn : Turn) :
    Exchanged around heard turn.exchange (onAlarm around alarm turn).exchange := by
  unfold onAlarm
  cases alarm with
  | versionRetry =>
      dsimp only
      split
      · exact ownAnnounced (turn.takeAlarm .versionRetry).2
      · exact of_eq rfl
  | connectivity =>
      dsimp only
      split
      · exact connectivityChecked turn
      · exact of_eq rfl
  | announceAddress =>
      dsimp only
      split
      · exact sent _ turn
      · exact of_eq rfl
  | versionTimeout =>
      dsimp only
      split <;> exact of_eq rfl
  | pingTimeout nonce =>
      dsimp only
      split <;> exact of_eq rfl

end Exchanged

/-- The version that comes in a task. -/
def Task.version? : Task → Option Version
  | .message said _ => said.version?
  | _ => none

/-- A message is next only on a link that lasts, and it is the first that waits there. -/
theorem nextTask?_eq_message {agent : Agent} {link : Link} {message : Message}
    {others : List Message} (next : nextTask? agent link = some (.message message others)) :
    link.closed = false ∧ link.inbound = message :: others := by
  unfold nextTask? at next
  split at next
  · cases next
  · split at next
    · cases next
    · split at next
      · cases next
      · next lasting =>
          refine ⟨(Bool.not_eq_true _).mp lasting, ?_⟩
          split at next
          · cases next
          · cases next
          · next waiting =>
              cases next
              exact waiting
          · split at next <;> cases next

theorem exchanged_perform (around : Surroundings) (task : Task) (turn : Turn) :
    Exchanged around task.version? turn.exchange (perform around task turn).exchange := by
  cases task with
  | start =>
      exact Exchanged.ownAnnounced (turn.update fun agent => { agent with started := true })
  | finish byRemote => exact Exchanged.finished byRemote turn
  | alarm alarm others =>
      exact Exchanged.alarmRung alarm (turn.update fun agent => { agent with rung := others })
  | relay addresses others =>
      exact Exchanged.addressesRelayed addresses
        (turn.update fun agent => { agent with relays := others })
  | message message others =>
      exact Exchanged.messageCame message
        { turn with link := { turn.link with inbound := others } }

end Agent

end PeerOverlay
