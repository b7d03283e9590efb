import PeerOverlay.Proofs.AddressBook.Places
import PeerOverlay.Proofs.Manager.Slots

/-!
# Where the addresses of a manager come from

What a manager stores and what it leaves to be done is made of the endpoints and
network addresses of its events, its controls and its links.
-/

namespace PeerOverlay.Places

open Manager (Part Slot Turn)

variable (places : Places)

/-- Whether the other end of a link is at given places. -/
structure Ends (link : Link) : Prop where
  peerAddress : ∀ address, link.peerAddress = some address → places.Admits address
  netAddress : ∀ netAddress, link.netAddress = some netAddress → places.netAddress netAddress

def EndsAll (links : Links) : Prop :=
  ∀ id link, links.get? id = some link → places.Ends link

structure Seats (slot : Slot) : Prop where
  observed : ∀ netAddress, slot.observed = some netAddress → places.netAddress netAddress
  peer : ∀ peer, slot.peer = some peer → places.Admits peer.address

/-- Whether a manager knows of given places only. -/
structure Knows (manager : Manager) : Prop where
  own : places.Admits manager.config.peerAddress
  book : places.Stores manager.book
  slots : ∀ id slot, manager.slots.get? id = some slot → places.Seats slot

/-- Whether an event tells of given places only. -/
def Tells : Event → Prop
  | .handshake peer => places.Admits peer.address
  | .addresses _ told => ∀ address ∈ told, places.Admits address
  | _ => True

def Leaves : Part → Prop
  | .handshake peer => places.Admits peer.address
  | .relay _ addresses => ∀ address ∈ addresses, places.Admits address
  | _ => True

variable {places} {before after : Turn}

/-! ## Links and peers -/

theorem Ends.ofLink {link : Link} (ends : places.Ends link) : places.Seats (.ofLink link) :=
  ⟨ends.netAddress, fun _ known => by cases known⟩

theorem netAddress_of_filter {netAddress? : Option NetAddress} {keeps : NetAddress → Bool}
    (holds : ∀ netAddress, netAddress? = some netAddress → places.netAddress netAddress) :
    ∀ netAddress, netAddress?.filter keeps = some netAddress → places.netAddress netAddress := by
  intro netAddress kept
  exact holds netAddress (Option.filter_eq_some_iff.1 kept).1

/-- Where a peer is said to be is what the transport sees or what it announces. -/
theorem Seats.locate {slot : Slot} (seats : places.Seats slot) {peer : Peer}
    (admits : places.Admits peer.address) : places.Admits (slot.locate peer).address := by
  refine ⟨admits.endpoint, ?_⟩
  refine netAddress_of_orElse (netAddress_of_filter seats.observed) ?_
  refine netAddress_of_orElse (netAddress_of_filter admits.netAddress) ?_
  exact netAddress_of_orElse seats.observed admits.netAddress

namespace Knows

variable {manager : Manager}

theorem slots_insert (knows : places.Knows manager) {id : LinkId} {slot : Slot}
    (seats : places.Seats slot) {tested : LinkId} {other : Slot}
    (found : (manager.slots.insert id slot).get? tested = some other) : places.Seats other := by
  rw [Table.get?_insert] at found
  split at found
  · rw [← Option.some.inj found]
    exact seats
  · exact knows.slots tested other found

theorem slots_erase (knows : places.Knows manager) {id tested : LinkId} {slot : Slot}
    (found : (manager.slots.erase id).get? tested = some slot) : places.Seats slot := by
  rw [Table.get?_erase] at found
  split at found
  · cases found
  · exact knows.slots tested slot found

/-! ## Turns -/

theorem dialed (knows : places.Knows before.manager) {address : PeerAddress}
    (entry : places.Admits (before.manager.book.entryOf address).address)
    (dialed : Manager.Dialed address before after) : places.Knows after.manager := by
  have connecting : places.Stores (before.manager.book.markConnecting address) :=
    knows.book.of_insert (AddressBook.Entry.keepsPlaces_dialed _ entry) rfl
  cases dialed with
  | started manager attempts =>
      rw [manager]
      exact ⟨knows.own, connecting, knows.slots⟩
  | failed manager attempts =>
      rw [manager]
      exact ⟨knows.own, connecting.markUnreachable address, knows.slots⟩

theorem checked (knows : places.Knows before.manager)
    (checked : Manager.Checked before after) : places.Knows after.manager := by
  cases checked with
  | idle same =>
      rw [same]
      exact knows
  | dialed address free dialed =>
      refine knows.dialed ?_ dialed
      -- An address that is dialed without being asked for stands in the book.
      have known : ∃ entry, before.manager.book.find? address = some entry := by
        unfold AddressBook.standing? at free
        cases found : before.manager.book.find? address with
        | none => simp [found] at free
        | some entry => exact ⟨entry, rfl⟩
      obtain ⟨entry, found⟩ := known
      rw [AddressBook.entryOf, found, Option.getD_some]
      exact knows.book address.endpoint entry found

theorem followed (knows : places.Knows before.manager) {control : Manager.Control}
    (asked : ∀ address, control = .dial address → places.Admits address)
    (followed : Manager.Followed before after control) : places.Knows after.manager := by
  cases followed with
  | switched autoConnect savedAutoConnect offline stopped manager attempts =>
      rw [manager]
      exact ⟨knows.own, knows.book, knows.slots⟩
  | checked autoConnect savedAutoConnect offline checked =>
      refine Knows.checked ?_ checked
      exact ⟨knows.own, knows.book, knows.slots⟩
  | dialed address allowed dialed =>
      exact knows.dialed (knows.book.entryOf (asked address rfl)) dialed

theorem opened (knows : places.Knows before.manager) (ends : places.EndsAll before.links)
    {id : LinkId} (opened : Manager.Opened id before after) : places.Knows after.manager := by
  cases opened with
  | unknown missing same =>
      rw [same]
      exact knows
  | refused link known manager attempts =>
      rw [Manager.finishAttempt_eq] at manager
      rw [manager]
      refine ⟨knows.own, ?_, knows.slots⟩
      cases link.peerAddress with
      | none => exact knows.book
      | some address => exact knows.book.giveUp address
  | takenIn link known admitted manager attempts =>
      rw [Manager.seat_eq, Manager.finishAttempt_eq] at manager
      rw [manager]
      exact ⟨knows.own, knows.book, fun _ _ found =>
        knows.slots_insert (ends id link known).ofLink found⟩

theorem announced (knows : places.Knows before.manager) {now : Nat} {peer : Peer}
    (admits : places.Admits peer.address) (announced : Manager.Announced now peer before after) :
    places.Knows after.manager := by
  cases announced with
  | passedOver manager attempts =>
      rw [manager]
      exact knows
  | accepted slot known admitted manager attempts =>
      have seats := knows.slots peer.link slot known
      have located := seats.locate admits
      have accepted : places.Seats (slot.accept (slot.locate peer)) := by
        refine ⟨seats.observed, ?_⟩
        intro other same
        rw [← Option.some.inj same]
        exact located
      rw [Manager.seat_eq] at manager
      rw [manager]
      exact ⟨knows.own, knows.book.markConnected peer.link located, fun _ _ found =>
        knows.slots_insert accepted found⟩

theorem ended (knows : places.Knows before.manager) {id : LinkId}
    (ended : Manager.Ended id before after) : places.Knows after.manager := by
  cases ended with
  | unknown same =>
      rw [same]
      exact knows
  | lost slot peer known joined manager attempts =>
      rw [Manager.vacate_eq] at manager
      rw [manager]
      exact ⟨knows.own, knows.book.markDisconnected id, fun _ _ found =>
        knows.slots_erase found⟩
  | missed slot known peerless manager attempts =>
      rw [Manager.vacate_eq] at manager
      rw [manager]
      refine ⟨knows.own, ?_, fun _ _ found => knows.slots_erase found⟩
      cases before.links.peerAddress? id with
      | none => exact knows.book
      | some address => exact knows.book.miss address

theorem accountable (knows : places.Knows manager) {links : Links}
    (ends : places.EndsAll links) {id : LinkId} {address : PeerAddress}
    (accountable : manager.accountableAddress? links id = some address) :
    places.Admits address := by
  unfold Manager.accountableAddress? at accountable
  cases joined : (manager.slots.get? id).bind Slot.peer with
  | some peer =>
      obtain ⟨slot, known, own⟩ := Option.bind_eq_some_iff.1 joined
      rw [joined] at accountable
      have same : peer.address = address := Option.some.inj accountable
      rw [← same]
      exact (knows.slots id slot known).peer peer own
  | none =>
      rw [joined] at accountable
      have expected : (links.get? id).bind Link.peerAddress = some address := accountable
      obtain ⟨link, known, own⟩ := Option.bind_eq_some_iff.1 expected
      exact (ends id link known).peerAddress address own

/-- No part of a reaction makes up places. -/
theorem performed (knows : places.Knows before.manager) (ends : places.EndsAll before.links)
    {part : Part} (leaves : places.Leaves part) (around : Manager.Surroundings) :
    places.Knows (part.perform around before).manager := by
  cases part with
  | connection id => exact knows.opened ends (Manager.opened_onConnection id before)
  | connectFailed address =>
      rw [Part.perform, (Manager.onConnectFailed_eq address before).1]
      exact ⟨knows.own, knows.book.markUnreachable address, knows.slots⟩
  | handshake peer =>
      exact knows.announced leaves (Manager.announced_onHandshake around peer before)
  | relay source addresses =>
      rw [Part.perform, (Manager.relayToAgents_eq around source addresses before).1]
      exact knows
  | route link signal =>
      obtain ⟨⟨routes, forwards, manager⟩, _⟩ := Manager.routed_onSignal around link signal before
      rw [Part.perform, manager]
      exact ⟨knows.own, knows.book, knows.slots⟩
  | ban link reason =>
      rw [Part.perform, (Manager.banLink_eq around link reason before).1]
      refine ⟨knows.own, ?_, knows.slots⟩
      cases accountable : before.manager.accountableAddress? before.links link with
      | none => exact knows.book
      | some address => exact knows.book.ban (knows.accountable ends accountable) around.now
  | closed link => exact knows.ended (Manager.ended_onClosed link before)
  | checkPeerCount => exact knows.checked (Manager.checked_checkPeerCount around before)

/-- What a manager leaves to be done was in the event, and so was all that is new
in its book. -/
theorem taken (knows : places.Knows before.manager) {event : Event}
    (tells : places.Tells event) :
    places.Knows (Manager.take event before).2.manager ∧
      ∀ part ∈ (Manager.take event before).1, places.Leaves part := by
  have single {left part : Part} (member : part ∈ [left]) (leaves : places.Leaves left) :
      places.Leaves part := by
    rw [List.mem_singleton.1 member]
    exact leaves
  have double {left part : Part} (member : part ∈ [left, .checkPeerCount])
      (leaves : places.Leaves left) : places.Leaves part := by
    rcases List.mem_cons.1 member with rfl | check
    · exact leaves
    · rw [List.mem_singleton.1 check]
      trivial
  cases event with
  | addresses link told =>
      obtain ⟨added, stores⟩ := knows.book.ingest link tells
      refine ⟨⟨knows.own, stores, knows.slots⟩, ?_⟩
      have few : ∀ address ∈ (Manager.learnAddresses link told before).1,
          places.Admits address := by
        intro address member
        unfold Manager.learnAddresses at member
        dsimp only at member
        split at member
        · exact added address member
        · exact absurd member List.not_mem_nil
      intro part member
      unfold Manager.take at member
      dsimp only at member
      split at member
      · exact single member trivial
      · exact double member few
  | closed link byRemote =>
      refine ⟨knows, ?_⟩
      intro part member
      unfold Manager.take at member
      dsimp only at member
      split at member
      · exact double member trivial
      · exact single member trivial
  | signal link signal =>
      refine ⟨knows, ?_⟩
      intro part member
      have left : part ∈ Manager.signalParts before.manager.config link signal := member
      unfold Manager.signalParts at left
      split at left
      · exact single left trivial
      · split at left
        · exact absurd left List.not_mem_nil
        · exact single left trivial
  | connectFailed address => exact ⟨knows, fun _ member => double member trivial⟩
  | handshake peer => exact ⟨knows, fun _ member => single member tells⟩
  | connection link => exact ⟨knows, fun _ member => single member trivial⟩
  | ban link reason => exact ⟨knows, fun _ member => single member trivial⟩
  | checkPeerCount => exact ⟨knows, fun _ member => single member trivial⟩

end Knows

end PeerOverlay.Places
