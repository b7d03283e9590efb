import PeerOverlay.Proofs.Manager.Mirror

/-!
# Refusals

A link that is refused leaves nothing behind but the end of the attempt to connect that had
opened it, if there was one, and a peer that is refused leaves nothing behind at all.  Either
way the link is closed for the reason of the refusal.
-/

namespace PeerOverlay

/-! ## Attempts that are given up -/

namespace AddressBook

/-- Whether all that a book has changed is that connecting to an address has failed, if it was
under way. -/
structure GaveUp (dialed : Option PeerAddress) (before after : AddressBook) : Prop where
  keys : after.entries.keys = before.entries.keys
  find? : ∀ tested, after.find? tested = (before.find? tested).map fun entry =>
    if dialed.any (·.samePeer tested) ∧ entry.standing = .connecting then
      { entry with standing := .failed, failures := entry.failures + 1, link := none }
    else
      entry
  connectedLinks : after.connectedLinks = before.connectedLinks
  routes : after.routes = before.routes
  localEndpoint : after.localEndpoint = before.localEndpoint

theorem Entry.unreached_of_connecting {entry : Entry} (connecting : entry.standing = .connecting) :
    entry.unreached =
      { entry with standing := .failed, failures := entry.failures + 1, link := none } := by
  unfold Entry.unreached
  rw [connecting]
  exact if_neg (by decide)

variable {book : AddressBook} {address : PeerAddress}

theorem gaveUp_of_same {dialed : Option PeerAddress}
    (idle : ∀ address, dialed = some address → book.isConnecting address = false) :
    GaveUp dialed book book := by
  refine ⟨rfl, ?_, rfl, rfl, rfl⟩
  intro tested
  cases found : book.find? tested with
  | none => rfl
  | some entry =>
      rw [Option.map_some, if_neg]
      rintro ⟨same, connecting⟩
      obtain ⟨address, rfl, own⟩ := (Option.any_eq_true _ _).1 same
      have endpoint : address.endpoint = tested.endpoint := by
        simpa [PeerAddress.samePeer] using own
      have underWay : book.isConnecting address = true := by
        rw [isConnecting_iff, book.standing?_congr endpoint, standing?, found, Option.map_some,
          connecting]
      rw [idle address rfl] at underWay
      cases underWay

theorem gaveUp_markUnreachable (connecting : book.isConnecting address = true) :
    GaveUp (some address) book (book.markUnreachable address) := by
  have keys : (book.markUnreachable address).entries.keys = book.entries.keys := by
    simp only [markUnreachable, change, Table.modify, Table.mapValues, Table.keys,
      Table.changeRows_keys]
  refine ⟨keys, ?_, rfl, rfl, rfl⟩
  intro tested
  refine (book.find?_change address Entry.keepsEndpoint_unreached tested).trans ?_
  cases found : book.find? tested with
  | none => rfl
  | some entry =>
      simp only [Option.map_some, Option.any_some, PeerAddress.samePeer, beq_iff_eq,
        eq_comm (a := tested.endpoint)]
      by_cases same : address.endpoint = tested.endpoint
      · have underWay := (book.isConnecting_iff address).1 connecting
        rw [book.standing?_congr same, standing?, found, Option.map_some] at underWay
        have standing : entry.standing = .connecting := Option.some.inj underWay
        rw [if_pos same, if_pos ⟨same, standing⟩, Entry.unreached_of_connecting standing]
      · rw [if_neg same, if_neg fun both => same both.1]

theorem gaveUp_giveUp (book : AddressBook) (dialed : Option PeerAddress) :
    GaveUp dialed book (dialed.elim book book.giveUp) := by
  cases dialed with
  | none =>
      apply gaveUp_of_same
      intro address other
      cases other
  | some address =>
      show GaveUp (some address) book (book.giveUp address)
      unfold giveUp
      split
      · next connecting => exact gaveUp_markUnreachable connecting
      · next idle =>
          apply gaveUp_of_same
          intro tested same
          rw [← Option.some.inj same]
          exact (Bool.not_eq_true _).mp idle

end AddressBook

namespace Manager

/-! ## Links -/

/-- Whether all that has come of a link in a turn is that it is closed for the reason of a
refusal, and that the attempt which had opened it is over and has failed. -/
structure LinkRefused (refusal : Refusal) (id : LinkId) (link : Link) (before after : Turn) :
    Prop where
  manager : after.manager =
    { before.manager with
      connectingCount :=
        before.manager.connectingCount -
          if link.peerAddress.any before.manager.book.isConnecting then 1 else 0
      book := after.manager.book }
  book : AddressBook.GaveUp link.peerAddress before.manager.book after.manager.book
  closed : after.links.get? id = some (link.close refusal.reason).abandon
  others : ∀ other, other ≠ id → after.links.get? other = before.links.get? other
  effects : after.effects = before.effects

/-- The number of attempts has no say in the admission of a link. -/
theorem linkRefusal?_finishAttempt (manager : Manager) (link : Link) :
    (manager.finishAttempt link).linkRefusal? link = manager.linkRefusal? link := by
  rw [finishAttempt_eq]
  rfl

theorem linkRefused_reject {id : LinkId} {link : Link} {turn : Turn} (refusal : Refusal)
    (known : turn.links.get? id = some link) :
    LinkRefused refusal id link turn
      (reject id link refusal (turn.update fun manager => manager.finishAttempt link)) := by
  have book : (turn.manager.finishAttempt link).book = turn.manager.book := by
    rw [finishAttempt_eq]
  have links (other : LinkId) :
      Table.get? (Table.modify (turn.links.close id refusal.reason) id Link.abandon) other =
        (turn.links.get? other).map fun link =>
          if other = id then (link.close refusal.reason).abandon else link := by
    rw [Table.get?_modify, Links.get?_close, Option.map_map]
    congr 1
    funext link
    by_cases same : other = id <;> simp [same]
  refine ⟨?_, ?_, ?_, ?_, rfl⟩
  · generalize after : reject id link refusal _ = rejected
    have manager : rejected.manager =
        { turn.manager.finishAttempt link with book := rejected.manager.book } := by
      rw [← after]
      rfl
    rw [finishAttempt_eq] at manager
    exact manager
  · show AddressBook.GaveUp link.peerAddress turn.manager.book
      (link.peerAddress.elim (turn.manager.finishAttempt link).book
        (turn.manager.finishAttempt link).book.giveUp)
    rw [book]
    exact AddressBook.gaveUp_giveUp turn.manager.book link.peerAddress
  · refine (links id).trans ?_
    rw [known, Option.map_some, if_pos rfl]
  · intro other different
    refine (links other).trans ?_
    simp [different]

section Links

variable {id : LinkId} {link : Link} {turn : Turn}

theorem linkRefused_onConnection {refusal : Refusal} (known : turn.links.get? id = some link)
    (refused : turn.manager.linkRefusal? link = some refusal) :
    LinkRefused refusal id link turn (onConnection id turn) := by
  have rejected : onConnection id turn =
      reject id link refusal (turn.update fun manager => manager.finishAttempt link) := by
    unfold onConnection
    rw [known]
    dsimp only [Turn.update]
    rw [linkRefusal?_finishAttempt, refused]
  rw [rejected]
  exact linkRefused_reject refusal known

theorem attends_onConnection (turn : Turn) (known : turn.links.get? id = some link)
    (admitted : turn.manager.linkRefusal? link = none) :
    Effect.attend id ∈ (onConnection id turn).effects := by
  have taken : onConnection id turn =
      takeIn id link (turn.update fun manager => manager.finishAttempt link) := by
    unfold onConnection
    rw [known]
    dsimp only [Turn.update]
    rw [linkRefusal?_finishAttempt, admitted]
  rw [taken]
  simp [takeIn, Turn.emit]

end Links

/-! ## Peers -/

section Peers

variable {around : Surroundings} {peer : Peer} {slot : Slot} {turn : Turn}

theorem onHandshake_of_refused {refusal : Refusal}
    (known : turn.manager.slots.get? peer.link = some slot)
    (refused : turn.manager.peerRefusal? around.now slot (slot.locate peer) = some refusal) :
    onHandshake around peer turn = turn.close peer.link refusal.reason := by
  unfold onHandshake
  rw [known]
  dsimp only
  rw [refused]
  rfl

theorem joins_onHandshake (turn : Turn) (known : turn.manager.slots.get? peer.link = some slot)
    (admitted : turn.manager.peerRefusal? around.now slot (slot.locate peer) = none) :
    Effect.publish (.joined (slot.locate peer)) ∈ (onHandshake around peer turn).effects := by
  unfold onHandshake
  rw [known]
  dsimp only
  rw [admitted]
  simp [acceptPeer, Turn.emit]

end Peers

/-! ## Steps -/

/-- Whatever the state of a manager, a link is attended to or refused, and a peer joins or is
refused.  All that comes of a refused link is that it is closed and that an attempt to
connect which had opened it has failed; all that comes of a refused peer is that its link is
closed. -/
theorem refusals_leave_the_rest (manager : Manager) (step : Step) :
    (∀ id link, step.move.connection? = some id → step.links.get? id = some link →
      (.attend id ∉ (step.turn manager).effects ↔
        ∃ refusal, manager.linkRefusal? link = some refusal) ∧
      ∀ refusal, manager.linkRefusal? link = some refusal →
        LinkRefused refusal id link (Turn.start manager step.links) (step.turn manager)) ∧
    ∀ peer slot, step.move.announcement? = some peer →
      manager.slots.get? peer.link = some slot →
      ((∀ joined, .publish (.joined joined) ∉ (step.turn manager).effects) ↔
        ∃ refusal, manager.peerRefusal? step.around.now slot (slot.locate peer) = some refusal) ∧
      ∀ refusal, manager.peerRefusal? step.around.now slot (slot.locate peer) = some refusal →
        step.turn manager =
          { manager := manager
            links := step.links.close peer.link refusal.reason
            effects := [] } := by
  constructor
  · intro id link handed known
    rw [step.turn_of_connection? handed]
    have refusing {refusal : Refusal} (refused : manager.linkRefusal? link = some refusal) :
        LinkRefused refusal id link (Turn.start manager step.links)
          (onConnection id (Turn.start manager step.links)) :=
      linkRefused_onConnection known refused
    refine ⟨⟨?_, ?_⟩, fun refusal => refusing⟩
    · intro unattended
      cases admission : manager.linkRefusal? link with
      | none =>
          have attended := attends_onConnection (Turn.start manager step.links) known admission
          exact absurd attended unattended
      | some refusal => exact ⟨refusal, rfl⟩
    · rintro ⟨refusal, refused⟩
      rw [(refusing refused).effects]
      exact List.not_mem_nil
  · intro peer slot announced known
    rw [step.turn_of_announcement? announced]
    have refusing {refusal : Refusal}
        (refused : manager.peerRefusal? step.around.now slot (slot.locate peer) = some refusal) :
        onHandshake step.around peer (Turn.start manager step.links) =
          (Turn.start manager step.links).close peer.link refusal.reason :=
      onHandshake_of_refused known refused
    refine ⟨⟨?_, ?_⟩, fun refusal => refusing⟩
    · intro unjoined
      cases admission : manager.peerRefusal? step.around.now slot (slot.locate peer) with
      | none =>
          have joined := joins_onHandshake (Turn.start manager step.links) known admission
          exact absurd joined (unjoined _)
      | some refusal => exact ⟨refusal, rfl⟩
    · rintro ⟨refusal, refused⟩ joined
      rw [refusing refused]
      exact List.not_mem_nil

/-- A link to a host that was dialed, and a link of a node that was not seen yet. -/
def arrivingLinks : Links :=
  (Table.empty.insert 1
    (.opened 1 .outbound .direct (some (.ip "2.2.2.2")) (some (hostAddress "2.2.2.2")))).insert 2
    (.opened 2 .inbound .direct none none)

/-- A manager that admits no link at a known network address has dialed a host and taken in a
link without such an address. -/
def unwelcoming : Manager :=
  run (.new { Config.full (hostAddress "1.1.1.1") "" with peerCountPerIpDirectMax := 0 } .empty)
    [.plain .empty (.control (.dial (hostAddress "2.2.2.2"))),
      .plain arrivingLinks (.event (.connection 2))]

theorem refusals_leave_the_rest_unwelcoming :
    let link := Link.opened 1 .outbound .direct (some (.ip "2.2.2.2"))
      (some (hostAddress "2.2.2.2"))
    let dialed := Step.plain arrivingLinks (.event (.connection 1))
    let visitor : Peer :=
      ⟨2, (hostAddress "3.3.3.3").withNetAddress (.ip "3.3.3.3"), protocolVersion, 0, 0⟩
    let announced := Step.plain arrivingLinks (.event (.handshake visitor))
    unwelcoming.connectingCount = 1 ∧ (dialed.apply unwelcoming).connectingCount = 0 ∧
      LinkRefused .tooManyPerIp 1 link (Turn.start unwelcoming arrivingLinks)
        (dialed.turn unwelcoming) ∧
      announced.turn unwelcoming =
        { manager := unwelcoming
          links := arrivingLinks.close 2 "connection limit per IP reached"
          effects := [] } := by
  intro link dialed visitor announced
  have refused : LinkRefused .tooManyPerIp 1 link (Turn.start unwelcoming arrivingLinks)
      (dialed.turn unwelcoming) :=
    ((refusals_leave_the_rest unwelcoming dialed).1 1 link rfl rfl).2 .tooManyPerIp (by decide)
  have turnedAway := ((refusals_leave_the_rest unwelcoming announced).2 visitor
    (.ofLink (.opened 2 .inbound .direct none none)) rfl rfl).2 .tooManyPerIp (by decide)
  refine ⟨by decide, ?_, refused, turnedAway⟩
  have counted := congrArg Manager.connectingCount refused.manager
  exact counted

end Manager

end PeerOverlay
