import PeerOverlay.Proofs.Manager.Mirror

/-!
# What a step brings

A step takes in one link, or accepts the peer of one link, or brings nothing: then no
slot changes but those that go, and no network address is counted that was not
counted before.
-/

namespace PeerOverlay.Manager

/-! ## Counted network addresses -/

section Counts

variable {manager before after : Manager} {tested : NetAddress}

theorem contains_elim_count (manager : Manager) (netAddress : Option NetAddress)
    (tested : NetAddress) :
    (netAddress.elim manager manager.count).connectionCounts.contains tested ↔
      netAddress = some tested ∨ manager.connectionCounts.contains tested := by
  cases netAddress with
  | none => simp
  | some netAddress =>
      rw [Option.elim_some, count, Table.contains, Table.get?_insert, Option.some.injEq]
      by_cases same : netAddress = tested
      · simp [same]
      · simp [same, Table.contains]

theorem contains_of_elim_release {netAddress : Option NetAddress}
    (counted : (netAddress.elim manager manager.release).connectionCounts.contains tested) :
    manager.connectionCounts.contains tested := by
  cases netAddress with
  | none => exact counted
  | some netAddress =>
      rw [Option.elim_some, release] at counted
      unfold Table.contains at counted ⊢
      dsimp only at counted
      split at counted
      · rw [Table.get?_erase] at counted
        split at counted
        · simp at counted
        · exact counted
      · next several =>
          rw [Table.get?_insert] at counted
          split at counted
          · next same =>
              unfold connectionCount at several
              rw [same] at several
              cases stored : manager.connectionCounts.get? tested with
              | none => simp [stored] at several
              | some number => rfl
          · exact counted

/-- Whether the slots of a manager are slots of an earlier one, and no further network
address is counted. -/
structure Fewer (before after : Manager) : Prop where
  slots : ∀ {id slot}, after.slots.get? id = some slot → before.slots.get? id = some slot
  counts : ∀ {netAddress}, after.connectionCounts.contains netAddress →
    before.connectionCounts.contains netAddress

namespace Fewer

theorem refl (manager : Manager) : Fewer manager manager :=
  ⟨id, id⟩

theorem trans {middle : Manager} (first : Fewer before middle) (second : Fewer middle after) :
    Fewer before after :=
  ⟨fun found => first.slots (second.slots found),
    fun counted => first.counts (second.counts counted)⟩

theorem of_seats (same : SameSeats before after) : Fewer before after where
  slots := by
    intro id slot found
    rwa [same.slots] at found
  counts := by
    intro netAddress counted
    rwa [same.counts] at counted

theorem ended {id : LinkId} {before after : Turn} (ended : Ended id before after) :
    Fewer before.manager after.manager := by
  have vacated (slot : Slot) {after : Manager} (slots : after.slots = before.manager.slots.erase id)
      (counts : after.connectionCounts =
        (slot.countedUnder.elim before.manager before.manager.release).connectionCounts) :
      Fewer before.manager after := by
    constructor
    · intro tested slot found
      rw [slots, Table.get?_erase] at found
      split at found
      · simp at found
      · exact found
    · intro netAddress counted
      rw [counts] at counted
      exact contains_of_elim_release counted
  cases ended with
  | unknown same =>
      rw [same]
      exact refl before.manager
  | lost slot peer known joined manager attempts =>
      rw [vacate_eq] at manager
      apply vacated slot <;> rw [manager]
  | missed slot known peerless manager attempts =>
      rw [vacate_eq] at manager
      apply vacated slot <;> rw [manager]

/-- Only a link that is handed over and a peer that announces itself bring anything. -/
theorem performed {around : Surroundings} {part : Part} (turn : Turn)
    (noLink : ∀ id, part ≠ .connection id) (noPeer : ∀ peer, part ≠ .handshake peer) :
    Fewer turn.manager (part.perform around turn).manager := by
  cases part with
  | connection id => exact absurd rfl (noLink id)
  | connectFailed address => exact of_seats (.failed address turn)
  | handshake peer => exact absurd rfl (noPeer peer)
  | relay source addresses =>
      exact of_seats (.of_eq (relayToAgents_eq around source addresses turn).1)
  | route link signal => exact of_seats (.routed (routed_onSignal around link signal turn))
  | ban link reason => exact of_seats (.banned around link reason turn)
  | closed link => exact ended (ended_onClosed link turn)
  | checkPeerCount => exact of_seats (.checked (checked_checkPeerCount around turn))

end Fewer

end Counts

/-! ## Parts of reactions -/

/-- What a part of a reaction brings to a manager. -/
inductive Part.Brings (around : Surroundings) (part : Part) (turn : Turn) (after : Manager) :
    Prop where
  | nothing (fewer : Fewer turn.manager after)
  | link (id : LinkId) (link : Link) (handed : part = .connection id)
      (known : turn.links.get? id = some link)
      (slots : after.slots = turn.manager.slots.insert id (.ofLink link))
      (counts : after.connectionCounts =
        ((countable link.netAddress).elim turn.manager turn.manager.count).connectionCounts)
  | peer (peer : Peer) (slot : Slot) (announced : part = .handshake peer)
      (known : turn.manager.slots.get? peer.link = some slot)
      (admitted : turn.manager.peerRefusal? around.now slot (slot.locate peer) = none)
      (slots : after.slots =
        turn.manager.slots.insert peer.link (slot.accept (slot.locate peer)))
      (counts : after.connectionCounts =
        ((slot.uncounted (slot.locate peer)).elim turn.manager
          turn.manager.count).connectionCounts)

theorem Part.brings_connection (around : Surroundings) (id : LinkId) (turn : Turn) :
    Brings around (.connection id) turn (onConnection id turn).manager := by
  cases opened_onConnection id turn with
  | unknown missing same =>
      rw [same]
      exact .nothing (.refl turn.manager)
  | refused link known after attempts =>
      have seats := SameSeats.finishAttempt turn.manager link
      rw [after]
      exact .nothing (.of_seats ⟨seats.config, seats.slots, seats.counts⟩)
  | takenIn link known admitted after attempts =>
      have seats := SameSeats.finishAttempt turn.manager link
      rw [seat_eq] at after
      rw [after]
      refine .link id link rfl known ?_ ?_
      · exact congrArg (fun slots => slots.insert id (.ofLink link)) seats.slots
      · cases countable link.netAddress with
        | none => exact seats.counts
        | some netAddress =>
            show (count (turn.manager.finishAttempt link) netAddress).connectionCounts = _
            simp only [Option.elim_some, count, connectionCount, seats.counts]

theorem Part.brings_handshake (around : Surroundings) (peer : Peer) (turn : Turn) :
    Brings around (.handshake peer) turn (onHandshake around peer turn).manager := by
  cases announced_onHandshake around peer turn with
  | passedOver after attempts =>
      rw [after]
      exact .nothing (.refl turn.manager)
  | accepted slot known admitted after attempts =>
      rw [seat_eq] at after
      rw [after]
      exact .peer peer slot rfl known admitted rfl rfl

theorem Part.brings (around : Surroundings) (part : Part) (turn : Turn) :
    part.Brings around turn (part.perform around turn).manager := by
  cases part with
  | connection id => exact brings_connection around id turn
  | handshake peer => exact brings_handshake around peer turn
  | _ => exact .nothing (.performed turn (by simp) (by simp))

/-! ## Steps -/

/-- What a step brings to a manager. -/
inductive Step.Brings (step : Step) (manager : Manager) : Prop where
  | nothing (fewer : Fewer manager (step.apply manager))
  | link (id : LinkId) (link : Link) (handed : step.move.connection? = some id)
      (known : step.links.get? id = some link)
      (slots : (step.apply manager).slots = manager.slots.insert id (.ofLink link))
      (counts : (step.apply manager).connectionCounts =
        ((countable link.netAddress).elim manager manager.count).connectionCounts)
  | peer (peer : Peer) (slot : Slot) (announced : step.move.announcement? = some peer)
      (known : manager.slots.get? peer.link = some slot)
      (admitted : manager.peerRefusal? step.around.now slot (slot.locate peer) = none)
      (slots : (step.apply manager).slots =
        manager.slots.insert peer.link (slot.accept (slot.locate peer)))
      (counts : (step.apply manager).connectionCounts =
        ((slot.uncounted (slot.locate peer)).elim manager manager.count).connectionCounts)

theorem Step.brings_of_connection? {step : Step} {id : LinkId}
    (handed : step.move.connection? = some id) (manager : Manager) : step.Brings manager := by
  have brings := Part.brings_connection step.around id (Turn.start manager step.links)
  rw [← step.turn_of_connection? handed] at brings
  cases brings with
  | nothing fewer => exact .nothing fewer
  | link other link same known slots counts =>
      obtain rfl := Part.connection.inj same
      exact .link id link handed known slots counts
  | peer peer slot same known admitted slots counts => simp at same

theorem Step.brings_of_announcement? {step : Step} {peer : Peer}
    (announced : step.move.announcement? = some peer) (manager : Manager) :
    step.Brings manager := by
  have brings := Part.brings_handshake step.around peer (Turn.start manager step.links)
  rw [← step.turn_of_announcement? announced] at brings
  cases brings with
  | nothing fewer => exact .nothing fewer
  | link id link same known slots counts => simp at same
  | peer other slot same known admitted slots counts =>
      obtain rfl := Part.handshake.inj same
      exact .peer peer slot announced known admitted slots counts

theorem Step.brings (step : Step) (manager : Manager) : step.Brings manager := by
  cases handed : step.move.connection? with
  | some id => exact step.brings_of_connection? handed manager
  | none =>
      cases announced : step.move.announcement? with
      | some peer => exact step.brings_of_announcement? announced manager
      | none =>
          refine .nothing ?_
          apply Step.keeps (P := fun turn => Fewer manager turn.manager) step
          · intro link addresses turn fewer
            exact fewer.trans (.of_seats (.learned link addresses turn))
          · intro part turn performs fewer
            refine fewer.trans (.performed turn ?_ ?_)
            · rintro id rfl
              have some? := Move.connection?_of_performs performs
              simp [handed] at some?
            · rintro peer rfl
              have some? := Move.announcement?_of_performs performs
              simp [announced] at some?
          · intro control _
            have same := SameSeats.followed
              (followed_follow step.around control (Turn.start manager step.links))
            exact .of_seats same
          · exact .refl manager

section Slots

variable {P : Slot → Prop} (fresh : ∀ link, P (.ofLink link))
  (accept : ∀ slot peer, P slot → P (slot.accept (slot.locate peer)))

include fresh accept

/-- What holds of the slots of new links and is kept when a peer is accepted is kept of all
slots by a step. -/
theorem Step.slots_keep {manager : Manager} (step : Step)
    (holds : ∀ id slot, manager.slots.get? id = some slot → P slot) :
    ∀ id slot, (step.apply manager).slots.get? id = some slot → P slot := by
  intro tested slot known
  cases step.brings manager with
  | nothing fewer => exact holds tested slot (fewer.slots known)
  | link id link handed opened slots counts =>
      rw [slots, Table.get?_insert] at known
      split at known
      · rw [← Option.some.inj known]
        exact fresh link
      · exact holds tested slot known
  | peer peer earlier announced was admitted slots counts =>
      rw [slots, Table.get?_insert] at known
      split at known
      · rw [← Option.some.inj known]
        exact accept earlier peer (holds peer.link earlier was)
      · exact holds tested slot known

theorem slots_run (config : Config) (book : AddressBook) (steps : List Step) :
    ∀ id slot, (run (Manager.new config book) steps).slots.get? id = some slot → P slot := by
  apply run_keeps (P := fun manager => ∀ id slot, manager.slots.get? id = some slot → P slot)
  · intro step manager holds
    exact step.slots_keep fresh accept holds
  · intro id slot known
    exact absurd known (Option.some_ne_none slot).symm

end Slots

/-- A peer that is not refused is accepted. -/
theorem Step.apply_of_admitted {step : Step} {peer : Peer} {manager : Manager} {slot : Slot}
    (announced : step.move.announcement? = some peer)
    (known : manager.slots.get? peer.link = some slot)
    (admitted : manager.peerRefusal? step.around.now slot (slot.locate peer) = none) :
    (step.apply manager).slots =
        manager.slots.insert peer.link (slot.accept (slot.locate peer)) ∧
      (step.apply manager).connectionCounts =
        ((slot.uncounted (slot.locate peer)).elim manager manager.count).connectionCounts := by
  have accepted : step.turn manager =
      acceptPeer step.around slot (slot.locate peer) (Turn.start manager step.links) := by
    rw [step.turn_of_announcement? announced, onHandshake]
    simp only [Turn.start, known, admitted]
  have seated : (step.apply manager) =
      { manager.seat peer.link (slot.accept (slot.locate peer))
          (slot.uncounted (slot.locate peer)) with
        book := manager.book.markConnected peer.link (slot.locate peer).address } := by
    rw [apply, accepted]
    exact (relayToAgents_eq step.around _ _ _).1
  rw [seated, seat_eq]
  exact ⟨rfl, rfl⟩

end PeerOverlay.Manager
