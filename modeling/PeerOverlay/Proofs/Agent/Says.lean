import PeerOverlay.Proofs.Agent.Exchange

/-!
# What an agent says

What an agent queues for its peer is of a few kinds, and so is what it tells its
manager.  The addresses among it come from the book, from the manager or from
the peer, and never are more than the configuration or their source allows.
-/

namespace PeerOverlay.Agent

/-- What an agent may queue for its peer in a task. -/
inductive Says (around : Surroundings) (task : Task) : Message → Prop where
  | version : Says around task (.version around.ownVersion)
  | request :
      Says around task (.getAddresses around.config.protocolMask around.config.serviceMask)
  | ping : Says around task (.ping around.nonce)
  | pong (nonce : UInt32) : Says around task (.pong nonce)
  | answer (protocols : Protocols) (services : Services) (told : List PeerAddress)
      (stored : told.Sublist (around.book.query protocols services around.now around.lots))
      (few : told.length ≤ around.config.maxAddrPerMessage) :
      Says around task (.addresses told)
  | passOn (addresses told : List PeerAddress) (others : List (List PeerAddress))
      (asked : task = .relay addresses others) (among : told.Sublist addresses) :
      Says around task (.addresses told)
  | announce :
      Says around task
        (.addresses [{ around.config.peerAddress with timestamp := around.wallClock }])

/-- What an agent may tell its manager in a task. -/
inductive Tells (around : Surroundings) (id : LinkId) (task : Task) : Event → Prop where
  | handshake (peer : Peer) : Tells around id task (.handshake peer)
  | addresses (addresses : List PeerAddress) (others : List Message)
      (came : task = .message (.addresses addresses) others)
      (few : addresses.length ≤ around.config.maxAddrPerMessage) :
      Tells around id task (.addresses id addresses)
  | ban (addresses : List PeerAddress) (others : List Message) (reason : String)
      (came : task = .message (.addresses addresses) others)
      (many : around.config.maxAddrPerMessage < addresses.length) :
      Tells around id task (.ban id reason)
  | signal (said : Signal) (others : List Message)
      (came : task = .message (.signal said) others) :
      Tells around id task (.signal id said)
  | closed (byRemote : Bool) : Tells around id task (.closed id byRemote)

/-- Whether a turn accounts for all that it has queued and told in a task, and
has brought nothing else to its agent and its link. -/
structure Accounted (around : Surroundings) (task : Task) (agent : Agent) (link : Link)
    (turn : Turn) : Prop where
  id : turn.link.id = link.id
  netAddress : turn.link.netAddress = link.netAddress
  outbound : ∃ queued, turn.link.outbound = link.outbound ++ queued ∧
    ∀ message ∈ queued, Says around task message
  inbound : ∀ message ∈ turn.link.inbound, message ∈ link.inbound
  relays : ∀ addresses ∈ turn.agent.relays, addresses ∈ agent.relays
  events : ∀ event ∈ turn.events, Tells around link.id task event

namespace Accounted

variable {around : Surroundings} {task : Task} {agent : Agent} {link : Link} {turn : Turn}

/-! ## Single acts -/

/-- A turn that has only changed what the agent keeps in mind. -/
theorem kept (accounted : Accounted around task agent link turn) {after : Turn}
    (sameLink : after.link = turn.link) (sameEvents : after.events = turn.events)
    (sameRelays : after.agent.relays = turn.agent.relays) :
    Accounted around task agent link after := by
  constructor
  · rw [sameLink]
    exact accounted.id
  · rw [sameLink]
    exact accounted.netAddress
  · rw [sameLink]
    exact accounted.outbound
  · rw [sameLink]
    exact accounted.inbound
  · rw [sameRelays]
    exact accounted.relays
  · rw [sameEvents]
    exact accounted.events

theorem noteKnown (accounted : Accounted around task agent link turn)
    (addresses : List PeerAddress) (now : Nat) :
    Accounted around task agent link (turn.noteKnown addresses now) :=
  accounted.kept rfl rfl rfl

theorem send (accounted : Accounted around task agent link turn) {message : Message}
    (speaks : Says around task message) :
    Accounted around task agent link (turn.send message).2 := by
  by_cases room : turn.link.canSend
  · rw [send_of_canSend room]
    refine ⟨accounted.id, accounted.netAddress, ?_, accounted.inbound, accounted.relays,
      accounted.events⟩
    obtain ⟨queued, outbound, said⟩ := accounted.outbound
    refine ⟨queued ++ [message], ?_, ?_⟩
    · rw [outbound, List.append_assoc]
    · intro other member
      rcases List.mem_append.1 member with before | own
      · exact said other before
      · rw [List.mem_singleton.1 own]
        exact speaks
  · rw [send_of_not_canSend room]
    exact accounted

theorem emit (accounted : Accounted around task agent link turn) {event : Event}
    (tells : Tells around link.id task event) :
    Accounted around task agent link (turn.emit event) := by
  refine ⟨accounted.id, accounted.netAddress, accounted.outbound, accounted.inbound,
    accounted.relays, ?_⟩
  intro told member
  rcases List.mem_append.1 member with before | own
  · exact accounted.events told before
  · rw [List.mem_singleton.1 own]
    exact tells

theorem close (accounted : Accounted around task agent link turn) (reason : String) :
    Accounted around task agent link (turn.close reason) :=
  ⟨accounted.id, accounted.netAddress, accounted.outbound, accounted.inbound, accounted.relays,
    accounted.events⟩

/-! ## Turns -/

theorem finishHandshake (accounted : Accounted around task agent link turn) :
    Accounted around task agent link (Agent.finishHandshake around turn) := by
  unfold Agent.finishHandshake
  split
  · exact accounted
  · next peer _ =>
      have established : Accounted around task agent link
          (turn.update fun agent => { agent with phase := .established }) :=
        accounted.kept rfl rfl rfl
      have kept : Accounted around task agent link
          (((turn.update fun agent => { agent with phase := .established }).setInterval
            .connectivity around.now around.config.connectivityCheckInterval).setInterval
              .announceAddress around.now around.config.announceAddrInterval) :=
        established.kept rfl rfl rfl
      exact (kept.emit (.handshake peer)).send .request

theorem handshake (accounted : Accounted around task agent link turn) :
    Accounted around task agent link (Agent.handshake around turn) := by
  unfold Agent.handshake
  split
  · exact accounted
  · have sent := accounted.send (.version : Says around task _)
    dsimp only
    split
    · have announced : Accounted around task agent link
          ((turn.send (.version around.ownVersion)).2.update fun agent =>
            { agent with versionSent := true, phase := .handshakeInFlight }) :=
        sent.kept rfl rfl rfl
      split
      · exact announced.finishHandshake
      · exact announced.kept rfl rfl rfl
    · have failed : Accounted around task agent link
          ((turn.send (.version around.ownVersion)).2.update fun agent =>
            { agent with versionAttempts := agent.versionAttempts + 1 }) :=
        sent.kept rfl rfl rfl
      split
      · exact failed.close _
      · exact failed.kept rfl rfl rfl

theorem onVersion (accounted : Accounted around task agent link turn) (version : Version) :
    Accounted around task agent link (Agent.onVersion around version turn) := by
  unfold Agent.onVersion
  split
  · exact accounted.kept rfl rfl rfl
  · have cleared : Accounted around task agent link (turn.clearAlarm .versionTimeout) :=
      accounted.kept rfl rfl rfl
    dsimp only
    split
    · exact cleared.close _
    · unfold acceptVersion
      have noted := cleared.noteKnown [completed around.book version.peerAddress] around.now
      dsimp only
      split
      · refine Accounted.finishHandshake ?_
        exact ⟨noted.id, noted.netAddress, noted.outbound, noted.inbound, noted.relays,
          noted.events⟩
      · exact ⟨noted.id, noted.netAddress, noted.outbound, noted.inbound, noted.relays,
          noted.events⟩

theorem onAddresses {addresses : List PeerAddress} {others : List Message}
    (accounted : Accounted around (.message (.addresses addresses) others) agent link turn) :
    Accounted around (.message (.addresses addresses) others) agent link
      (Agent.onAddresses around addresses turn) := by
  unfold Agent.onAddresses
  split
  · next many =>
      refine close (emit accounted ?_) _
      rw [accounted.id]
      exact .ban addresses others _ rfl many
  · next few =>
      refine emit (accounted.noteKnown addresses around.now) ?_
      have id : (turn.noteKnown addresses around.now).link.id = link.id := accounted.id
      rw [id]
      exact .addresses addresses others rfl (Nat.le_of_not_lt few)

theorem onGetAddresses (accounted : Accounted around task agent link turn)
    (protocols : Protocols) (services : Services) :
    Accounted around task agent link
      (Agent.onGetAddresses around protocols services turn) := by
  unfold Agent.onGetAddresses
  refine send (accounted.noteKnown _ around.now) ?_
  refine .answer protocols services _ ?_ ?_
  · exact (List.take_sublist _ _).trans List.filter_sublist
  · exact List.length_take_le _ _

theorem relayAddresses {addresses : List PeerAddress} {others : List (List PeerAddress)}
    (accounted : Accounted around (.relay addresses others) agent link turn) :
    Accounted around (.relay addresses others) agent link
      (Agent.relayAddresses around addresses turn) := by
  unfold Agent.relayAddresses
  split
  · exact accounted
  · dsimp only
    split
    · exact accounted
    · exact send (accounted.noteKnown _ around.now)
        (.passOn addresses _ others rfl List.filter_sublist)

theorem checkConnectivity (accounted : Accounted around task agent link turn) :
    Accounted around task agent link (Agent.checkConnectivity around turn) := by
  have sent := accounted.send (.ping : Says around task _)
  unfold Agent.checkConnectivity
  dsimp only
  split
  · exact sent.kept rfl rfl rfl
  · exact sent.close _

theorem onAlarm (accounted : Accounted around task agent link turn) (alarm : Alarm) :
    Accounted around task agent link (Agent.onAlarm around alarm turn) := by
  have taken : Accounted around task agent link (turn.takeAlarm alarm).2 :=
    accounted.kept rfl rfl rfl
  unfold Agent.onAlarm
  cases alarm with
  | versionRetry =>
      dsimp only
      split
      · exact taken.handshake
      · exact taken
  | connectivity =>
      dsimp only
      split
      · exact accounted.checkConnectivity
      · exact accounted
  | announceAddress =>
      dsimp only
      split
      · exact accounted.send .announce
      · exact accounted
  | versionTimeout =>
      dsimp only
      split
      · exact taken.close _
      · exact taken
  | pingTimeout nonce =>
      dsimp only
      split
      · exact taken.close _
      · exact taken

theorem finish (accounted : Accounted around task agent link turn) (byRemote : Bool) :
    Accounted around task agent link (Agent.finish byRemote turn) := by
  have ended : Accounted around task agent link (turn.update fun agent =>
      { agent with
        phase := .closed, timers := agent.timers.clearAll, rung := [], relays := [] }) := by
    refine ⟨accounted.id, accounted.netAddress, accounted.outbound, accounted.inbound, ?_,
      accounted.events⟩
    intro addresses member
    exact absurd member List.not_mem_nil
  have abandoned {turn : Turn} (accounted : Accounted around task agent link turn) :
      Accounted around task agent link { turn with link := turn.link.abandon } := by
    refine ⟨accounted.id, accounted.netAddress, accounted.outbound, ?_, accounted.relays,
      accounted.events⟩
    intro message member
    exact absurd member List.not_mem_nil
  have told {turn : Turn} (accounted : Accounted around task agent link turn) :
      Accounted around task agent link (turn.emit (.closed turn.link.id byRemote)) := by
    refine emit accounted ?_
    rw [accounted.id]
    exact .closed byRemote
  unfold Agent.finish
  split
  · exact accounted
  · cases byRemote with
    | false => exact told (abandoned ended)
    | true => exact told (abandoned (ended.close "closed by remote"))

theorem onMessage {message : Message} {others : List Message}
    (accounted : Accounted around (.message message others) agent link turn) :
    Accounted around (.message message others) agent link
      (Agent.onMessage around message turn) := by
  unfold Agent.onMessage
  split
  · exact accounted
  · split
    · cases message with
      | version version => exact accounted.onVersion version
      | addresses addresses => exact accounted.onAddresses
      | getAddresses protocols services => exact accounted.onGetAddresses protocols services
      | ping nonce => exact accounted.send (.pong nonce)
      | pong nonce => exact accounted.kept rfl rfl rfl
      | signal said =>
          refine emit accounted ?_
          rw [accounted.id]
          exact .signal said others rfl
    · cases message with
      | version version => exact accounted.onVersion version
      | _ => exact accounted.kept rfl rfl rfl

end Accounted

theorem nextTask?_eq_relay {agent : Agent} {link : Link} {addresses : List PeerAddress}
    {others : List (List PeerAddress)}
    (next : nextTask? agent link = some (.relay addresses others)) :
    agent.relays = addresses :: others := by
  unfold nextTask? at next
  split at next
  · cases next
  · split at next
    · cases next
    · split at next
      · cases next
      · split at next
        · cases next
        · next waiting =>
            cases next
            exact waiting
        · cases next
        · split at next <;> cases next

/-- An agent accounts for all that it says in a step. -/
theorem accounted_perform {around : Surroundings} {agent : Agent} {link : Link} {task : Task}
    (next : nextTask? agent link = some task) :
    Accounted around task agent link (perform around task ⟨agent, link, []⟩) := by
  have quiet : Accounted around task agent link ⟨agent, link, []⟩ :=
    ⟨rfl, rfl, ⟨[], (List.append_nil _).symm, fun _ member => absurd member List.not_mem_nil⟩,
      fun _ member => member, fun _ member => member,
      fun _ member => absurd member List.not_mem_nil⟩
  cases task with
  | start =>
      have started : Accounted around .start agent link
          ⟨{ agent with started := true }, link, []⟩ := quiet.kept rfl rfl rfl
      exact started.handshake
  | finish byRemote => exact quiet.finish byRemote
  | alarm alarm others =>
      have taken : Accounted around (.alarm alarm others) agent link
          ⟨{ agent with rung := others }, link, []⟩ := quiet.kept rfl rfl rfl
      exact taken.onAlarm alarm
  | relay addresses others =>
      refine Accounted.relayAddresses ⟨rfl, rfl, quiet.outbound, quiet.inbound, ?_, quiet.events⟩
      intro other member
      rw [nextTask?_eq_relay next]
      exact List.mem_cons_of_mem addresses member
  | message message others =>
      obtain ⟨_, waiting⟩ := nextTask?_eq_message next
      refine Accounted.onMessage ⟨rfl, rfl, quiet.outbound, ?_, quiet.relays, quiet.events⟩
      intro other member
      rw [waiting]
      exact List.mem_cons_of_mem message member

end PeerOverlay.Agent
