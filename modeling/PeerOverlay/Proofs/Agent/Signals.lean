import PeerOverlay.Proofs.Agent.Exchange
import PeerOverlay.Proofs.Network.Budget

/-!
# What an agent does with signals

An agent sends no signals of its own.  Its manager is told of a signal that comes,
and then the signal waits there.
-/

namespace PeerOverlay.Budget

open Agent

variable {largest : Nat} (budget : Budget largest) {around : Surroundings}

/-- The worth of what waits on the link of an agent and of what its manager is told. -/
def turn (turn : Turn) : Nat :=
  budget.link turn.link + budget.told turn.events

/-! ## Single actions -/

theorem turn_send (message : Message) (mute : message.signal? = none) (turn : Turn) :
    budget.turn (turn.send message).2 ≤ budget.turn turn := by
  have sent := budget.link_send_le turn.link message
  have nothing : budget.queued [message] = 0 := worth_singleton_of_none _ _ mute
  show budget.link (turn.link.send message).2 + budget.told turn.events ≤ _
  unfold Budget.turn
  omega

theorem turn_sendIfRoom {message : Message} (mute : message.signal? = none) (turn : Turn) :
    budget.turn (turn.sendIfRoom message) ≤ budget.turn turn :=
  budget.turn_send message mute turn

theorem turn_emit (event : Event) (turn : Turn) :
    budget.turn (turn.emit event) = budget.turn turn + budget.told [event] := by
  show budget.link turn.link + budget.told (turn.events ++ [event]) = _
  unfold Budget.turn told
  rw [worth_append]
  omega

theorem turn_emit_of_none {event : Event} (mute : event.signal? = none) (turn : Turn) :
    budget.turn (turn.emit event) = budget.turn turn := by
  rw [turn_emit, told, worth_singleton_of_none _ _ mute, Nat.add_zero]

/-! ## Turns -/

theorem turn_finishHandshake (turn : Turn) :
    budget.turn (finishHandshake around turn) ≤ budget.turn turn := by
  unfold finishHandshake
  split
  · exact Nat.le_refl _
  · exact Nat.le_trans (budget.turn_sendIfRoom rfl _)
      (Nat.le_of_eq (budget.turn_emit_of_none rfl _))

theorem turn_handshake (turn : Turn) :
    budget.turn (handshake around turn) ≤ budget.turn turn := by
  have sent := budget.turn_send (.version around.ownVersion) rfl turn
  unfold handshake
  split
  · exact Nat.le_refl _
  · dsimp only
    split
    · split
      · exact Nat.le_trans (budget.turn_finishHandshake _) sent
      · exact sent
    · split <;> exact sent

theorem turn_onVersion (version : Version) (turn : Turn) :
    budget.turn (onVersion around version turn) ≤ budget.turn turn := by
  unfold onVersion
  split
  · exact Nat.le_refl _
  · dsimp only
    split
    · exact Nat.le_refl _
    · unfold acceptVersion
      dsimp only
      split
      · exact budget.turn_finishHandshake _
      · exact Nat.le_refl _

theorem turn_onAddresses (addresses : List PeerAddress) (turn : Turn) :
    budget.turn (onAddresses around addresses turn) ≤ budget.turn turn := by
  unfold onAddresses
  split
  · exact Nat.le_of_eq (budget.turn_emit_of_none rfl turn)
  · exact Nat.le_of_eq (budget.turn_emit_of_none rfl (turn.noteKnown addresses around.now))

theorem turn_relayAddresses (addresses : List PeerAddress) (turn : Turn) :
    budget.turn (relayAddresses around addresses turn) ≤ budget.turn turn := by
  unfold relayAddresses
  split
  · exact Nat.le_refl _
  · dsimp only
    split
    · exact Nat.le_refl _
    · exact budget.turn_sendIfRoom rfl (turn.noteKnown _ around.now)

theorem turn_checkConnectivity (turn : Turn) :
    budget.turn (checkConnectivity around turn) ≤ budget.turn turn := by
  have sent := budget.turn_send (.ping around.nonce) rfl turn
  unfold checkConnectivity
  dsimp only
  split <;> exact sent

theorem turn_onAlarm (alarm : Agent.Alarm) (turn : Turn) :
    budget.turn (onAlarm around alarm turn) ≤ budget.turn turn := by
  unfold onAlarm
  cases alarm with
  | versionRetry =>
      dsimp only
      split
      · exact budget.turn_handshake (turn.takeAlarm .versionRetry).2
      · exact Nat.le_refl _
  | connectivity =>
      dsimp only
      split
      · exact budget.turn_checkConnectivity turn
      · exact Nat.le_refl _
  | announceAddress =>
      dsimp only
      split
      · exact budget.turn_sendIfRoom rfl turn
      · exact Nat.le_refl _
  | versionTimeout =>
      dsimp only
      split <;> exact Nat.le_refl _
  | pingTimeout nonce =>
      dsimp only
      split <;> exact Nat.le_refl _

theorem turn_finish (byRemote : Bool) (turn : Turn) :
    budget.turn (finish byRemote turn) ≤ budget.turn turn := by
  have abandoned := Nat.add_le_add_right (budget.link_abandon_le turn.link)
    (budget.told turn.events)
  unfold finish
  split
  · exact Nat.le_refl _
  · cases byRemote with
    | false => exact Nat.le_trans (Nat.le_of_eq (budget.turn_emit_of_none rfl _)) abandoned
    | true => exact Nat.le_trans (Nat.le_of_eq (budget.turn_emit_of_none rfl _)) abandoned

/-- A message that has come is worth what its manager is told. -/
theorem turn_onMessage (around : Surroundings) (message : Message) (turn : Turn) :
    budget.turn (onMessage around message turn) ≤
      budget.turn turn + budget.queued [message] := by
  unfold onMessage
  split
  · exact Nat.le_add_right _ _
  · split
    · cases message with
      | version version => exact budget.turn_onVersion version turn
      | addresses addresses => exact budget.turn_onAddresses addresses turn
      | getAddresses protocols services =>
          exact budget.turn_sendIfRoom rfl (turn.noteKnown _ around.now)
      | ping nonce => exact budget.turn_sendIfRoom rfl turn
      | pong nonce => exact Nat.le_add_right _ _
      | signal signal => exact Nat.le_of_eq (budget.turn_emit _ turn)
    · cases message with
      | version version => exact budget.turn_onVersion version turn
      | _ => exact Nat.le_add_right _ _

theorem turn_perform {agent : Agent} {link : Link} {task : Task}
    (next : nextTask? agent link = some task) :
    budget.turn (perform around task ⟨agent, link, []⟩) ≤ budget.link link := by
  cases task with
  | start => exact budget.turn_handshake _
  | finish byRemote => exact budget.turn_finish byRemote _
  | alarm alarm others => exact budget.turn_onAlarm alarm _
  | relay addresses others => exact budget.turn_relayAddresses addresses _
  | message message others =>
      obtain ⟨_, waiting⟩ := nextTask?_eq_message next
      have heard := budget.turn_onMessage around message
        ⟨agent, { link with inbound := others }, []⟩
      have first : budget.queued link.inbound =
          budget.queued [message] + budget.queued others := by
        rw [waiting]
        exact worth_append _ _ [message] others
      refine Nat.le_trans heard ?_
      show budget.queued link.outbound + budget.queued others + 0 + _ ≤ budget.link link
      unfold Budget.link
      omega

theorem turn_step {agent : Agent} {link : Link} {turn : Turn}
    (stepped : agent.step around link = some turn) : budget.turn turn ≤ budget.link link := by
  obtain ⟨task, next, performed⟩ := Option.map_eq_some_iff.1 stepped
  rw [← performed]
  exact budget.turn_perform next

end PeerOverlay.Budget
