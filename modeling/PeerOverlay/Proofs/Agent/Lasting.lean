import PeerOverlay.Proofs.Agent.Handshake

/-!
# Turns of an agent that goes on

An agent queues its version once, when it is announced.  Unless it comes to its
end, a turn takes nothing from what its link has brought but the message that it
is about, and tells nobody that the link has ended.
-/

namespace PeerOverlay

/-- The link of which an event tells that it has ended. -/
def Event.closed? : Event → Option LinkId
  | .closed link _ => some link
  | _ => none

namespace Agent

/-- Whether a turn has queued the version of this node if it is announced now, and no
other version. -/
structure Voiced (around : Surroundings) (before after : Turn) : Prop where
  sent : before.agent.versionSent = true → after.agent.versionSent = true
  closed : before.link.closed = true → after.link.closed = true
  outbound : ∃ queued, after.link.outbound = before.link.outbound ++ queued ∧
    queued.filterMap Message.version? =
      if after.agent.versionSent && !before.agent.versionSent then [around.ownVersion] else []

/-- Whether an agent goes on after a turn, and its link is as it was up to what was
queued. -/
structure Lasts (around : Surroundings) (before after : Turn) : Prop
    extends Voiced around before after where
  phase : before.agent.phase ≠ .closed → after.agent.phase ≠ .closed
  started : after.agent.started = before.agent.started
  inbound : after.link.inbound = before.link.inbound
  takes : after.link.takes = before.link.takes
  delivers : after.link.delivers = before.link.delivers
  attended : after.link.attended = before.link.attended
  events : after.events.filterMap Event.closed? = before.events.filterMap Event.closed?

variable {around : Surroundings} {before middle after turn : Turn}

theorem Voiced.trans (first : Voiced around before middle) (second : Voiced around middle after) :
    Voiced around before after := by
  refine ⟨fun sent => second.sent (first.sent sent),
    fun closed => second.closed (first.closed closed), ?_⟩
  obtain ⟨earlier, queued, announced⟩ := first.outbound
  obtain ⟨later, added, told⟩ := second.outbound
  refine ⟨earlier ++ later, ?_, ?_⟩
  · rw [added, queued, List.append_assoc]
  · rw [List.filterMap_append, announced, told]
    have kept := first.sent
    have still := second.sent
    cases sent : before.agent.versionSent <;> cases half : middle.agent.versionSent <;>
      cases done : after.agent.versionSent <;> simp_all

namespace Lasts

theorem trans (first : Lasts around before middle) (second : Lasts around middle after) :
    Lasts around before after where
  toVoiced := first.toVoiced.trans second.toVoiced
  phase := fun going => second.phase (first.phase going)
  started := second.started.trans first.started
  inbound := second.inbound.trans first.inbound
  takes := second.takes.trans first.takes
  delivers := second.delivers.trans first.delivers
  attended := second.attended.trans first.attended
  events := second.events.trans first.events

/-! ## Single acts -/

/-- A turn in which only the agent has changed, and is not announced now. -/
theorem of_agent (link : after.link = before.link) (events : after.events = before.events)
    (phase : before.agent.phase ≠ .closed → after.agent.phase ≠ .closed)
    (started : after.agent.started = before.agent.started)
    (sent : after.agent.versionSent = before.agent.versionSent) :
    Lasts around before after where
  sent := fun announced => sent.trans announced
  closed := by
    rw [link]
    exact id
  outbound := by
    refine ⟨[], ?_, ?_⟩
    · rw [link, List.append_nil]
    · rw [sent, Bool.and_not_self]
      rfl
  phase := phase
  started := started
  inbound := by rw [link]
  takes := by rw [link]
  delivers := by rw [link]
  attended := by rw [link]
  events := by rw [events]

theorem refl (turn : Turn) : Lasts around turn turn :=
  of_agent rfl rfl id rfl rfl

theorem update {change : Agent → Agent} (phase : ∀ agent, (change agent).phase = agent.phase)
    (started : ∀ agent, (change agent).started = agent.started)
    (sent : ∀ agent, (change agent).versionSent = agent.versionSent) :
    Lasts around turn (turn.update change) := by
  refine of_agent rfl rfl ?_ (started _) (sent _)
  show _ → (change turn.agent).phase ≠ .closed
  rw [phase]
  exact id

theorem send {message : Message} (mute : message.version? = none) (turn : Turn) :
    Lasts around turn (turn.send message).2 := by
  by_cases room : turn.link.canSend
  · rw [send_of_canSend room]
    refine ⟨⟨id, id, [message], rfl, ?_⟩, id, rfl, rfl, rfl, rfl, rfl, rfl⟩
    rw [Bool.and_not_self]
    simp [mute]
  · rw [send_of_not_canSend room]
    exact refl turn

theorem emit {event : Event} (quiet : event.closed? = none) (turn : Turn) :
    Lasts around turn (turn.emit event) := by
  refine ⟨⟨id, id, [], ?_, ?_⟩, id, rfl, rfl, rfl, rfl, rfl, ?_⟩
  · exact (List.append_nil _).symm
  · rw [Turn.emit, Bool.and_not_self]
    rfl
  · show (turn.events ++ [event]).filterMap Event.closed? = _
    rw [List.filterMap_append, List.filterMap_cons, quiet]
    exact List.append_nil _

theorem close (reason : String) (turn : Turn) : Lasts around turn (turn.close reason) := by
  refine ⟨⟨id, fun _ => rfl, [], ?_, ?_⟩, id, rfl, rfl, rfl, rfl, rfl, rfl⟩
  · exact (List.append_nil _).symm
  · rw [Turn.close, Bool.and_not_self]
    rfl

theorem noteKnown (addresses : List PeerAddress) (now : Nat) (turn : Turn) :
    Lasts around turn (turn.noteKnown addresses now) :=
  update (fun _ => rfl) (fun _ => rfl) fun _ => rfl

theorem setTimeout (alarm : Alarm) (now delay : Nat) (turn : Turn) :
    Lasts around turn (turn.setTimeout alarm now delay) :=
  update (fun _ => rfl) (fun _ => rfl) fun _ => rfl

theorem setInterval (alarm : Alarm) (now period : Nat) (turn : Turn) :
    Lasts around turn (turn.setInterval alarm now period) :=
  update (fun _ => rfl) (fun _ => rfl) fun _ => rfl

theorem clearAlarm (alarm : Alarm) (turn : Turn) : Lasts around turn (turn.clearAlarm alarm) :=
  update (fun _ => rfl) (fun _ => rfl) fun _ => rfl

theorem takeAlarm (alarm : Alarm) (turn : Turn) : Lasts around turn (turn.takeAlarm alarm).2 :=
  of_agent rfl rfl id rfl rfl

theorem discard (turn : Turn) : Lasts around turn turn.discard :=
  update (fun _ => rfl) (fun _ => rfl) fun _ => rfl

/-! ## Turns -/

theorem finishHandshake (turn : Turn) :
    Lasts around turn (Agent.finishHandshake around turn) := by
  unfold Agent.finishHandshake
  split
  · exact refl turn
  · next peer _ =>
      have established : Lasts around turn
          (turn.update fun agent => { agent with phase := .established }) :=
        of_agent rfl rfl (fun _ other => by cases other) rfl rfl
      have alarmed := (established.trans (setInterval .connectivity around.now
        around.config.connectivityCheckInterval _)).trans
          (setInterval .announceAddress around.now around.config.announceAddrInterval _)
      exact (alarmed.trans (emit rfl _)).trans (send rfl _)

/-- This node is announced when its version is queued. -/
theorem announced (unsent : turn.agent.versionSent = false) :
    Lasts around turn
      { turn with
        agent := { turn.agent with versionSent := true, phase := .handshakeInFlight }
        link := { turn.link with
          outbound := turn.link.outbound ++ [.version around.ownVersion] } } := by
  refine ⟨⟨fun _ => rfl, id, [.version around.ownVersion], rfl, ?_⟩,
    (fun _ other => by cases other), rfl, rfl, rfl, rfl, rfl, rfl⟩
  rw [unsent]
  rfl

theorem handshake (turn : Turn) : Lasts around turn (Agent.handshake around turn) := by
  unfold Agent.handshake
  split
  · exact refl turn
  · next unfinished =>
      have unsent : turn.agent.versionSent = false := by
        simp only [Bool.or_eq_true, not_or, Bool.not_eq_true] at unfinished
        exact unfinished.1
      by_cases room : turn.link.canSend
      · rw [send_of_canSend room]
        dsimp only
        rw [if_pos rfl]
        split
        · exact (announced unsent).trans (finishHandshake _)
        · exact (announced unsent).trans (setTimeout _ _ _ _)
      · rw [send_of_not_canSend room]
        dsimp only
        rw [if_neg Bool.false_ne_true]
        have counted : Lasts around turn (turn.update fun agent =>
            { agent with versionAttempts := agent.versionAttempts + 1 }) :=
          update (fun _ => rfl) (fun _ => rfl) fun _ => rfl
        split
        · exact counted.trans (close _ _)
        · exact counted.trans (setTimeout _ _ _ _)

theorem acceptVersion (version : Version) (turn : Turn) :
    Lasts around turn (Agent.acceptVersion around version turn) := by
  unfold Agent.acceptVersion
  dsimp only
  have accepted (link : Link) (peer : Peer) (known : Table Endpoint Nat)
      (same : link = turn.link.learnPeer (completed around.book version.peerAddress)) :
      Lasts around turn
        { turn with
          link := link
          agent := { turn.agent with
            known := known, peer := some peer, versionReceived := true } } := by
    rw [same]
    refine ⟨⟨id, id, [], ?_, ?_⟩, id, rfl, rfl, rfl, rfl, rfl, rfl⟩
    · exact (List.append_nil _).symm
    · rw [Bool.and_not_self]
      rfl
  split
  · exact (accepted _ _ _ rfl).trans (finishHandshake _)
  · exact accepted _ _ _ rfl

theorem onVersion (version : Version) (turn : Turn) :
    Lasts around turn (Agent.onVersion around version turn) := by
  unfold Agent.onVersion
  split
  · exact discard turn
  · dsimp only
    split
    · exact (clearAlarm .versionTimeout turn).trans (close _ _)
    · exact (clearAlarm .versionTimeout turn).trans (acceptVersion version _)

theorem onAddresses (addresses : List PeerAddress) (turn : Turn) :
    Lasts around turn (Agent.onAddresses around addresses turn) := by
  unfold Agent.onAddresses
  split
  · exact (emit rfl turn).trans (close _ _)
  · exact (noteKnown addresses around.now turn).trans (emit rfl _)

theorem onMessage (message : Message) (turn : Turn) :
    Lasts around turn (Agent.onMessage around message turn) := by
  unfold Agent.onMessage
  split
  · exact refl turn
  · split
    · cases message with
      | version version => exact onVersion version turn
      | addresses addresses => exact onAddresses addresses turn
      | getAddresses protocols services =>
          exact (noteKnown _ around.now turn).trans (send rfl _)
      | ping nonce => exact send rfl turn
      | pong nonce => exact clearAlarm _ turn
      | signal signal => exact emit rfl turn
    · cases message with
      | version version => exact onVersion version turn
      | _ => exact discard turn

theorem relayAddresses (addresses : List PeerAddress) (turn : Turn) :
    Lasts around turn (Agent.relayAddresses around addresses turn) := by
  unfold Agent.relayAddresses
  split
  · exact refl turn
  · dsimp only
    split
    · exact refl turn
    · exact (noteKnown _ around.now turn).trans (send rfl _)

theorem checkConnectivity (turn : Turn) :
    Lasts around turn (Agent.checkConnectivity around turn) := by
  have sent : Lasts around turn (turn.send (.ping around.nonce)).2 := send rfl turn
  unfold Agent.checkConnectivity
  dsimp only
  split
  · exact sent.trans (setTimeout _ _ _ _)
  · exact sent.trans (close _ _)

theorem onAlarm (alarm : Alarm) (turn : Turn) :
    Lasts around turn (Agent.onAlarm around alarm turn) := by
  have taken : Lasts around turn (turn.takeAlarm alarm).2 := takeAlarm alarm turn
  unfold Agent.onAlarm
  cases alarm with
  | versionRetry =>
      dsimp only
      split
      · exact taken.trans (handshake _)
      · exact taken
  | connectivity =>
      dsimp only
      split
      · exact checkConnectivity turn
      · exact refl turn
  | announceAddress =>
      dsimp only
      split
      · exact send rfl turn
      · exact refl turn
  | versionTimeout =>
      dsimp only
      split
      · exact taken.trans (close _ _)
      · exact taken
  | pingTimeout nonce =>
      dsimp only
      split
      · exact taken.trans (close _ _)
      · exact taken

end Lasts

theorem Voiced.finish (byRemote : Bool) (turn : Turn) :
    Voiced around turn (Agent.finish byRemote turn) := by
  have silent {sent : Bool} : [].filterMap Message.version? =
      if sent && !sent then [around.ownVersion] else [] := by
    rw [Bool.and_not_self]
    rfl
  unfold Agent.finish
  split
  · exact (Lasts.refl turn).toVoiced
  · cases byRemote with
    | false => exact ⟨id, id, [], (List.append_nil _).symm, silent⟩
    | true => exact ⟨id, fun _ => rfl, [], (List.append_nil _).symm, silent⟩

/-! ## Steps -/

/-- A turn at its start, with its task taken from where it was waiting. -/
def Task.begin (task : Task) (turn : Turn) : Turn :=
  match task with
  | .start => turn.update fun agent => { agent with started := true }
  | .finish _ => turn
  | .alarm _ others => turn.update fun agent => { agent with rung := others }
  | .relay _ others => turn.update fun agent => { agent with relays := others }
  | .message _ others => { turn with link := { turn.link with inbound := others } }

/-- Whether an agent comes to its end in a task. -/
def Task.ends : Task → Bool
  | .finish _ => true
  | _ => false

theorem lasts_perform {task : Task} (goesOn : task.ends = false) (turn : Turn) :
    Lasts around (task.begin turn) (perform around task turn) := by
  cases task with
  | start => exact .handshake _
  | finish byRemote => cases goesOn
  | alarm alarm others => exact .onAlarm alarm _
  | relay addresses others => exact .relayAddresses addresses _
  | message message others => exact .onMessage message _

theorem voiced_perform (task : Task) (turn : Turn) :
    Voiced around (task.begin turn) (perform around task turn) := by
  cases ends : task.ends with
  | false => exact (lasts_perform ends turn).toVoiced
  | true =>
      cases task with
      | finish byRemote =>
          exact .finish byRemote turn
      | _ => cases ends

/-- The versions that a turn has queued on a link. -/
def Turn.versionsAfter (turn : Turn) (link : Link) : List Version :=
  (turn.link.outbound.drop link.outbound.length).filterMap Message.version?

theorem sent_perform (around : Surroundings) (task : Task) (agent : Agent) (link : Link)
    (sent : agent.versionSent = true) :
    (perform around task ⟨agent, link, []⟩).agent.versionSent = true := by
  refine (voiced_perform task ⟨agent, link, []⟩).sent ?_
  cases task <;> exact sent

theorem closed_perform (around : Surroundings) (task : Task) (agent : Agent) (link : Link)
    (closed : link.closed = true) :
    (perform around task ⟨agent, link, []⟩).link.closed = true := by
  refine (voiced_perform task ⟨agent, link, []⟩).closed ?_
  cases task <;> exact closed

theorem versionsAfter_of_outbound {link : Link} {queued : List Message}
    (outbound : turn.link.outbound = link.outbound ++ queued) :
    turn.versionsAfter link = queued.filterMap Message.version? := by
  unfold Turn.versionsAfter
  rw [outbound, List.drop_left]

/-- A step queues the version of this node if the agent is announced in it, and no other
version. -/
theorem versionsAfter_perform (around : Surroundings) (task : Task) (agent : Agent)
    (link : Link) :
    (perform around task ⟨agent, link, []⟩).versionsAfter link =
      if (perform around task ⟨agent, link, []⟩).agent.versionSent && !agent.versionSent
      then [around.ownVersion] else [] := by
  have voiced : Voiced around (task.begin ⟨agent, link, []⟩) _ := voiced_perform task _
  obtain ⟨queued, outbound, versions⟩ := voiced.outbound
  have begun : (task.begin ⟨agent, link, []⟩).link.outbound = link.outbound := by
    cases task <;> rfl
  have sent : (task.begin ⟨agent, link, []⟩).agent.versionSent = agent.versionSent := by
    cases task <;> rfl
  rw [begun] at outbound
  rw [versionsAfter_of_outbound outbound, versions, sent]

/-- When an agent comes to its end, its link is closed. -/
theorem closed_of_ends {agent : Agent} {link : Link} {task : Task}
    (next : nextTask? agent link = some task) (ends : task.ends = true) :
    (perform around task ⟨agent, link, []⟩).link.closed = true := by
  cases task with
  | finish byRemote =>
      unfold nextTask? at next
      split at next
      · cases next
      · split at next
        · cases next
        · next going =>
            show (finish byRemote ⟨agent, link, []⟩).link.closed = true
            unfold finish
            rw [if_neg going]
            split at next
            · next closed =>
                cases next
                exact closed
            · split at next
              · cases next
              · cases next
              · cases next
              · split at next
                · cases next
                · cases next
                  rfl
  | _ => cases ends

/-- The first step announces this node if there is room for its version. -/
theorem sent_of_start {agent : Agent} {link : Link} (going : agent.phase ≠ .closed)
    (room : link.canSend) :
    (perform around .start ⟨agent, link, []⟩).agent.versionSent = true := by
  show (handshake around ⟨{ agent with started := true }, link, []⟩).agent.versionSent = true
  unfold handshake
  split
  · next finished =>
      have announced : agent.versionSent = true ∨ agent.phase = .closed := by
        simpa using finished
      exact announced.resolve_right going
  · have open_ : (Turn.mk { agent with started := true } link []).link.canSend := room
    rw [send_of_canSend open_]
    dsimp only
    rw [if_pos rfl]
    split
    · exact (Lasts.finishHandshake _).sent rfl
    · rfl

theorem received_onVersion {version : Version}
    (lasting : (onVersion around version turn).link.closed = false) :
    (onVersion around version turn).agent.versionReceived = true := by
  unfold onVersion at lasting ⊢
  split
  · next received => exact received
  · next missing =>
      rw [if_neg missing] at lasting
      dsimp only at lasting ⊢
      split
      · next refused =>
          rw [refused] at lasting
          cases lasting
      · exact received_acceptVersion around version _

/-- A version that does not close the link is accepted, or one was accepted before. -/
theorem received_of_version {agent : Agent} {link : Link} {version : Version}
    {others : List Message} (lasting : link.closed = false)
    (open_ : (perform around (.message (.version version) others)
      ⟨agent, link, []⟩).link.closed = false) :
    (perform around (.message (.version version) others)
      ⟨agent, link, []⟩).agent.versionReceived = true := by
  have start : (Turn.mk agent { link with inbound := others } []).link.closed = false := lasting
  show (onMessage around (.version version)
    ⟨agent, { link with inbound := others }, []⟩).agent.versionReceived = true
  have same : onMessage around (.version version) ⟨agent, { link with inbound := others }, []⟩ =
      onVersion around version ⟨agent, { link with inbound := others }, []⟩ := by
    unfold onMessage
    rw [start, if_neg Bool.false_ne_true]
    split <;> rfl
  rw [same]
  refine received_onVersion ?_
  rw [← same]
  exact open_

/-! ## Steps of an agent that goes on -/

theorem nextTask?_eq_start_iff {agent : Agent} {link : Link} {task : Task}
    (next : nextTask? agent link = some task) : task = .start ↔ agent.started = false := by
  unfold nextTask? at next
  cases started : agent.started with
  | false =>
      rw [started] at next
      cases next
      exact ⟨fun _ => rfl, fun _ => rfl⟩
  | true =>
      refine ⟨fun same => ?_, fun other => by cases other⟩
      subst same
      rw [started] at next
      split at next
      · next unstarted => cases unstarted
      · split at next
        · cases next
        · split at next
          · cases next
          · split at next
            · cases next
            · cases next
            · cases next
            · split at next <;> cases next

theorem started_perform {agent : Agent} {link : Link} {task : Task}
    (next : nextTask? agent link = some task) (goesOn : task.ends = false) :
    (perform around task ⟨agent, link, []⟩).agent.started = true := by
  have lasts : Lasts around (task.begin ⟨agent, link, []⟩) _ := lasts_perform goesOn _
  rw [lasts.started]
  have begun := nextTask?_eq_start_iff next
  cases started : agent.started with
  | false =>
      rw [begun.2 started]
      rfl
  | true =>
      cases task with
      | start => exact rfl
      | _ => exact started

/-- An agent that has started was announced, if there was room at its first step. -/
theorem announced_perform {agent : Agent} {link : Link} {task : Task}
    (next : nextTask? agent link = some task) (going : agent.phase ≠ .closed)
    (sent : agent.started = true → agent.versionSent = true)
    (room : agent.started = false → link.canSend) :
    (perform around task ⟨agent, link, []⟩).agent.versionSent = true := by
  cases started : agent.started with
  | false =>
      rw [(nextTask?_eq_start_iff next).2 started]
      exact sent_of_start going (room started)
  | true => exact sent_perform around task agent link (sent started)

/-- A message still waits after a step unless the step is about it. -/
theorem waits_perform {agent : Agent} {link : Link} {task : Task} {said : Message}
    (next : nextTask? agent link = some task) (goesOn : task.ends = false)
    (waits : said ∈ link.inbound) :
    said ∈ (perform around task ⟨agent, link, []⟩).link.inbound ∨
      ∃ others, task = .message said others := by
  have lasts : Lasts around (task.begin ⟨agent, link, []⟩) _ := lasts_perform goesOn _
  rw [lasts.inbound]
  cases task with
  | message message others =>
      rw [(nextTask?_eq_message next).2] at waits
      rcases List.mem_cons.1 waits with rfl | later
      · exact .inr ⟨others, rfl⟩
      · exact .inl later
  | _ => exact .inl waits

/-- An agent that goes on has something to do until it has started and read everything. -/
theorem read_of_idle {agent : Agent} {link : Link} (idle : nextTask? agent link = none)
    (going : agent.phase ≠ .closed) : agent.started = true ∧ link.inbound = [] := by
  unfold nextTask? at idle
  rw [if_neg going] at idle
  split at idle
  · cases idle
  · next started =>
      split at idle
      · cases idle
      · split at idle
        · cases idle
        · cases idle
        · cases idle
        · next read => exact ⟨by simpa using started, read⟩

end Agent

end PeerOverlay
