import PeerOverlay.Proofs.Manager.Effects
import PeerOverlay.Proofs.Manager.Signals
import PeerOverlay.Proofs.Manager.Slots
import PeerOverlay.Proofs.Manager.Switches

/-!
# How a link comes to its peer

A link that was handed to a manager is refused or taken in, and then an agent
attends to it.  The peer that it announces is turned away or joins.  It is said
once for every part of a reaction which of these it does to a link.
-/

namespace PeerOverlay.Manager

/-- A step on the way of a link to its peer. -/
inductive Arrival where
  | attended (link : LinkId)
  | joined (peer : Peer)

def Effect.arrival? : Effect → Option Arrival
  | .attend link => some (.attended link)
  | .publish (.joined peer) => some (.joined peer)
  | _ => none

/-- The peer of which a part says that it has announced itself. -/
def Part.handshake? : Part → Option Peer
  | .handshake peer => some peer
  | _ => none

/-- The link of which a part says that it has ended. -/
def Part.closed? : Part → Option LinkId
  | .closed link => some link
  | _ => none

/-- Whether a part is about no other link and routes no signal. -/
def Part.Concerns (id : LinkId) : Part → Prop
  | .connection link => link = id
  | .handshake peer => peer.link = id
  | .route _ _ => False
  | .ban link _ => link = id
  | .closed link => link = id
  | _ => True

namespace Turn

variable (turn : Turn)

def arrivals : List Arrival :=
  turn.effects.filterMap Effect.arrival?

theorem arrivals_emit (effect : Effect) :
    (turn.emit effect).arrivals = turn.arrivals ++ effect.arrival?.toList :=
  filterMap_concat_eq Effect.arrival? turn.effects effect

theorem arrivals_emit_of_none {effect : Effect} (quiet : effect.arrival? = none) :
    (turn.emit effect).arrivals = turn.arrivals := by
  rw [arrivals_emit, quiet]
  exact List.append_nil _

end Turn

variable {around : Surroundings} {before after : Turn}

/-! ## Turns without arrivals -/

theorem arrivals_checkPeerCount (turn : Turn) :
    (Manager.checkPeerCount around turn).arrivals = turn.arrivals := by
  apply (adds_checkPeerCount around turn).filterMap_eq
  rintro effect ⟨_, address, own⟩
  cases own <;> rfl

theorem arrivals_relayToAgents (source : LinkId) (addresses : List PeerAddress) (turn : Turn) :
    (relayToAgents around source addresses turn).arrivals = turn.arrivals := by
  apply (adds_relayToAgents around source addresses turn).filterMap_eq
  rintro _ ⟨other, _, _, rfl⟩
  rfl

theorem arrivals_onClosed (id : LinkId) (turn : Turn) :
    (onClosed id turn).arrivals = turn.arrivals := by
  apply (adds_onClosed id turn).filterMap_eq
  intro effect emits
  cases emits <;> rfl

theorem arrivals_take (event : Event) (turn : Turn) :
    (take event turn).2.arrivals = turn.arrivals := by
  cases event <;> rfl

/-- No part of a reaction stops a manager. -/
theorem stopped_perform (part : Part) (turn : Turn) :
    (part.perform around turn).manager.stopped = turn.manager.stopped :=
  congrArg Switches.stopped (switches_perform part turn)

/-! ## What a part of a reaction does to a link -/

/-- What becomes of a link in a part of a reaction that is about no other link. -/
inductive Led (id : LinkId) (before after : Turn) : Part → Prop where
  | refused (reason : String)
      (links : after.links = (before.links.close id reason).modify id Link.abandon)
      (slots : after.manager.slots = before.manager.slots)
      (arrivals : after.arrivals = before.arrivals) : Led id before after (.connection id)
  | takenIn (links : after.links = before.links)
      (seated : (after.manager.slots.get? id).isSome)
      (arrivals : after.arrivals = before.arrivals ++ [.attended id]) :
      Led id before after (.connection id)
  | missed (peer : Peer) (own : peer.link = id)
      (unseated : before.manager.slots.get? id = none) (same : after = before) :
      Led id before after (.handshake peer)
  | turnedAway (peer : Peer) (own : peer.link = id) (reason : String)
      (links : after.links = before.links.close id reason)
      (slots : after.manager.slots = before.manager.slots)
      (arrivals : after.arrivals = before.arrivals) : Led id before after (.handshake peer)
  | joined (peer : Peer) (own : peer.link = id) (slot : Slot)
      (links : after.links = before.links)
      (seated : (after.manager.slots.get? id).isSome)
      (arrivals : after.arrivals = before.arrivals ++ [.joined (slot.locate peer)]) :
      Led id before after (.handshake peer)
  | ended (links : after.links = before.links)
      (arrivals : after.arrivals = before.arrivals) : Led id before after (.closed id)
  | banned (reason : String) (links : after.links = before.links.close id reason)
      (slots : after.manager.slots = before.manager.slots)
      (arrivals : after.arrivals = before.arrivals) : Led id before after (.ban id reason)
  | idle {part : Part} (link : part.connection? = none) (peer : part.handshake? = none)
      (lasts : part.closed? = none) (links : after.links = before.links)
      (slots : after.manager.slots = before.manager.slots)
      (arrivals : after.arrivals = before.arrivals) : Led id before after part

theorem led_onConnection {id : LinkId} (turn : Turn) (known : (turn.links.get? id).isSome) :
    Led id turn (onConnection id turn) (.connection id) := by
  obtain ⟨link, found⟩ := Option.isSome_iff_exists.1 known
  unfold onConnection
  rw [found]
  dsimp only
  split
  · next refusal _ =>
      refine .refused refusal.reason rfl ?_ rfl
      exact (SameSeats.finishAttempt turn.manager link).slots
  · refine .takenIn rfl ?_ ?_
    · show ((Manager.seat _ id _ _).slots.get? id).isSome = true
      rw [seat_eq, Table.get?_insert, if_pos rfl]
      rfl
    · unfold takeIn
      dsimp only
      rw [Turn.arrivals_emit_of_none _ rfl, Turn.arrivals_emit]
      rfl

theorem led_onHandshake (peer : Peer) (turn : Turn) :
    Led peer.link turn (onHandshake around peer turn) (.handshake peer) := by
  unfold onHandshake
  cases found : turn.manager.slots.get? peer.link with
  | none => exact .missed peer rfl found rfl
  | some slot =>
      dsimp only
      split
      · next refusal _ => exact .turnedAway peer rfl refusal.reason rfl rfl rfl
      · refine .joined peer rfl slot ?_ ?_ ?_
        · exact links_relayToAgents _ _ _
        · unfold acceptPeer
          dsimp only
          show ((relayToAgents around _ _ _).manager.slots.get? peer.link).isSome = true
          rw [(relayToAgents_eq around _ _ _).1]
          show ((Manager.seat _ _ _ _).slots.get? peer.link).isSome = true
          rw [seat_eq]
          show ((turn.manager.slots.insert (slot.locate peer).link _).get? peer.link).isSome = true
          have own : (slot.locate peer).link = peer.link := rfl
          rw [Table.get?_insert, if_pos own]
          rfl
        · unfold acceptPeer
          dsimp only
          rw [Turn.arrivals_emit_of_none _ rfl, Turn.arrivals_emit, arrivals_relayToAgents]
          rfl

/-- Every part that is about one link does one of these things to it. -/
theorem led_perform {id : LinkId} {part : Part} (concerns : part.Concerns id) (turn : Turn)
    (known : (turn.links.get? id).isSome) : Led id turn (part.perform around turn) part := by
  cases part with
  | connection link =>
      have own : link = id := concerns
      subst own
      exact led_onConnection turn known
  | connectFailed address =>
      exact .idle rfl rfl rfl rfl (SameSeats.failed address turn).slots rfl
  | handshake peer =>
      have own : peer.link = id := concerns
      subst own
      exact led_onHandshake peer turn
  | relay source addresses =>
      refine .idle rfl rfl rfl (links_relayToAgents source addresses turn) ?_
        (arrivals_relayToAgents source addresses turn)
      rw [Part.perform, (relayToAgents_eq around source addresses turn).1]
  | route link signal => exact concerns.elim
  | ban link reason =>
      have own : link = id := concerns
      subst own
      exact .banned reason rfl (SameSeats.banned around link reason turn).slots rfl
  | closed link =>
      have own : link = id := concerns
      subst own
      exact .ended (links_onClosed link turn) (arrivals_onClosed link turn)
  | checkPeerCount =>
      exact .idle rfl rfl rfl (links_checkPeerCount turn)
        (SameSeats.checked (checked_checkPeerCount around turn)).slots
        (arrivals_checkPeerCount turn)

end PeerOverlay.Manager
