import PeerOverlay.Proofs.Manager.PeerLimit

/-!
# Live peers in the book

The slots and the book both say who is connected.  A peer whose link is open
should be settled in the book, so that its address is not proposed again.  The
book keeps to that except in two ways: a live peer is dialed on request, or an
attempt to connect to it is told to have failed.
-/

namespace PeerOverlay.Manager

/-! ## Peers and the book -/

/-- Whether the book has every accepted peer as connected or banned. -/
def PeersSettled (manager : Manager) : Prop :=
  ∀ id peer, manager.peerOf? id = some peer → manager.book.Settled peer.address

/-- Whether the book knows the link of every accepted peer. -/
def PeersLinked (manager : Manager) : Prop :=
  ∀ id peer, manager.peerOf? id = some peer →
    manager.book.connectedLinks.get? id = some peer.address.endpoint

/-- Whether the peers are admitted, linked and settled. -/
structure PeersHeld (manager : Manager) : Prop where
  admitted : PeersAdmitted manager
  linked : PeersLinked manager
  settled : PeersSettled manager

/-- Whether a step unsettles a live peer. -/
inductive Step.Endangers (step : Step) (manager : Manager) : Prop where
  | dials (id : LinkId) (peer : Peer) (address : PeerAddress)
      (live : manager.peerOf? id = some peer)
      (same : address.endpoint = peer.address.endpoint)
      (control : step.move = .control (.dial address)) (allowed : manager.canDial)
  | fails (id : LinkId) (peer : Peer) (address : PeerAddress)
      (live : manager.peerOf? id = some peer)
      (same : address.endpoint = peer.address.endpoint)
      (failure : step.move.failure? = some address)
      (free : manager.book.standing? peer.address ≠ some .banned)

/-! ## Turns that leave peers settled -/

namespace PeersHeld

variable {before after : Manager}

theorem new (config : Config) (book : AddressBook) : PeersHeld (Manager.new config book) where
  admitted := .new config book
  linked := by
    intro id peer live
    simp [peerOf?_new] at live
  settled := by
    intro id peer live
    simp [peerOf?_new] at live

/-- A turn that accepts no peer, changes no link of the book and unsettles no
live peer. -/
theorem of_fewer (held : PeersHeld before) (admitted : PeersAdmitted after)
    (fewer : ∀ id peer, after.peerOf? id = some peer → before.peerOf? id = some peer)
    (links : after.book.connectedLinks = before.book.connectedLinks)
    (settled : ∀ id peer, before.peerOf? id = some peer →
      before.book.Settled peer.address → after.book.Settled peer.address) :
    PeersHeld after where
  admitted := admitted
  linked := by
    intro id peer live
    rw [links]
    exact held.linked id peer (fewer id peer live)
  settled := by
    intro id peer live
    have earlier := fewer id peer live
    exact settled id peer earlier (held.settled id peer earlier)

theorem kept (held : PeersHeld before) (same : SameSeats before after)
    (links : after.book.connectedLinks = before.book.connectedLinks)
    (settled : ∀ id peer, before.peerOf? id = some peer →
      before.book.Settled peer.address → after.book.Settled peer.address) :
    PeersHeld after := by
  apply held.of_fewer (held.admitted.kept same) _ links settled
  intro id peer live
  rwa [peerOf?_congr same.slots] at live

end PeersHeld

namespace PeersHeld

variable {before after : Turn}

theorem dialed {address : PeerAddress} (held : PeersHeld before.manager)
    (dialed : Dialed address before after)
    (apart : ∀ id peer, before.manager.peerOf? id = some peer →
      address.endpoint ≠ peer.address.endpoint) : PeersHeld after.manager := by
  apply held.kept (.dialed dialed)
  · cases dialed with
    | started manager attempts => rw [manager, AddressBook.connectedLinks_markConnecting]
    | failed manager attempts =>
        rw [manager, AddressBook.connectedLinks_markUnreachable,
          AddressBook.connectedLinks_markConnecting]
  · intro id peer live settled
    have different := apart id peer live
    have connecting := settled.markConnecting different
    cases dialed with
    | started manager attempts =>
        rw [manager]
        exact connecting
    | failed manager attempts =>
        rw [manager]
        exact connecting.markUnreachable fun same => absurd same different

/-- An address that is dialed without being asked for is no live peer's. -/
theorem checked (held : PeersHeld before.manager) (checked : Checked before after) :
    PeersHeld after.manager := by
  cases checked with
  | idle same =>
      rw [same]
      exact held
  | dialed address free dialed =>
      apply held.dialed dialed
      intro id peer live same
      rw [before.manager.book.standing?_congr same] at free
      exact (held.settled id peer live).not_new_nor_failed free

theorem followed {control : Control} (held : PeersHeld before.manager)
    (followed : Followed before after control)
    (apart : ∀ address, control = .dial address → before.manager.canDial →
      ∀ id peer, before.manager.peerOf? id = some peer →
        address.endpoint ≠ peer.address.endpoint) : PeersHeld after.manager := by
  cases followed with
  | switched autoConnect savedAutoConnect offline stopped manager attempts =>
      rw [manager]
      exact held.kept ⟨rfl, rfl, rfl⟩ rfl fun id peer live settled => settled
  | checked autoConnect savedAutoConnect offline checked =>
      have switched : PeersHeld (before.update fun manager =>
          { manager with
            autoConnect := autoConnect
            savedAutoConnect := savedAutoConnect
            offline := offline }).manager :=
        held.kept ⟨rfl, rfl, rfl⟩ rfl fun id peer live settled => settled
      exact PeersHeld.checked switched checked
  | dialed address allowed dialed => exact held.dialed dialed (apart address rfl allowed)

theorem opened {id : LinkId} (held : PeersHeld before.manager)
    (opened : Opened id before after) : PeersHeld after.manager := by
  have admitted := held.admitted.reseated (.opened opened)
  cases opened with
  | unknown missing same =>
      rw [same]
      exact held
  | refused link known manager attempts =>
      rw [finishAttempt_eq] at manager
      rw [manager] at admitted ⊢
      apply held.of_fewer admitted
      · intro tested peer live
        exact live
      · cases link.peerAddress with
        | none => rfl
        | some address => exact before.manager.book.connectedLinks_giveUp address
      · intro tested peer live settled
        cases link.peerAddress with
        | none => exact settled
        | some address => exact settled.giveUp
  | takenIn link known room manager attempts =>
      rw [seat_eq, finishAttempt_eq] at manager
      have slots : after.manager.slots = before.manager.slots.insert id (.ofLink link) := by
        rw [manager]
      apply held.of_fewer admitted
      · intro tested peer live
        exact peerOf?_of_ofLink slots live
      · rw [manager]
      · intro tested peer live settled
        rw [manager]
        exact settled

theorem announced {now : Nat} {peer : Peer} (held : PeersHeld before.manager)
    (announced : Announced now peer before after) : PeersHeld after.manager := by
  have reseated : Reseated none before.manager after.manager := .announced announced
  have admitted := held.admitted.reseated reseated
  cases announced with
  | passedOver manager attempts => rwa [manager]
  | accepted slot known room manager attempts =>
      rw [seat_eq] at manager
      have book : after.manager.book =
          before.manager.book.markConnected peer.link (slot.locate peer).address := by
        rw [manager]
      have slots : after.manager.slots =
          before.manager.slots.insert peer.link (slot.accept (slot.locate peer)) := by
        rw [manager]
      have peers (tested : LinkId) : after.manager.peerOf? tested =
          if peer.link = tested then some (slot.locate peer)
          else before.manager.peerOf? tested :=
        peerOf?_of_insert slots tested
      refine ⟨admitted, ?_, ?_⟩
      · intro tested other live
        rw [peers] at live
        rw [book, AddressBook.connectedLinks_markConnected, Table.get?_insert]
        by_cases own : peer.link = tested
        · rw [if_pos own] at live ⊢
          rw [Option.some.inj live]
        · rw [if_neg own] at live ⊢
          exact held.linked tested other live
      · intro tested other live
        rw [peers] at live
        rw [book]
        by_cases own : peer.link = tested
        · rw [if_pos own] at live
          rw [← Option.some.inj live]
          exact AddressBook.settled_markConnected _ _ _
        · rw [if_neg own] at live
          exact (held.settled tested other live).markConnected _

/-- The end of a link unsettles the address of its own peer only. -/
theorem ended {id : LinkId} (held : PeersHeld before.manager) (ended : Ended id before after) :
    PeersHeld after.manager := by
  have reseated : Reseated none before.manager after.manager := .ended ended
  have admitted := held.admitted.reseated reseated
  cases ended with
  | unknown same =>
      rw [same]
      exact held
  | lost slot gone known joined manager attempts =>
      rw [vacate_eq] at manager
      have book : after.manager.book = before.manager.book.markDisconnected id := by
        rw [manager]
      have slots : after.manager.slots = before.manager.slots.erase id := by
        rw [manager]
      have own : before.manager.peerOf? id = some gone := by
        unfold peerOf?
        rw [known]
        exact joined
      refine ⟨admitted, ?_, ?_⟩
      · intro tested peer live
        obtain ⟨different, live⟩ := ne_and_peerOf?_of_erase slots live
        rw [book, AddressBook.get?_connectedLinks_markDisconnected, if_neg different]
        exact held.linked tested peer live
      · intro tested peer live
        obtain ⟨different, live⟩ := ne_and_peerOf?_of_erase slots live
        rw [book]
        apply (held.settled tested peer live).markDisconnected
        -- The link of the lost peer leads to its endpoint, where no other peer is.
        intro shared
        rw [held.linked id gone own] at shared
        exact different (held.admitted.distinct own live (Option.some.inj shared))
  | missed slot known peerless manager attempts =>
      rw [vacate_eq] at manager
      have slots : after.manager.slots = before.manager.slots.erase id := by
        rw [manager]
      apply held.of_fewer admitted
      · intro tested peer live
        exact (ne_and_peerOf?_of_erase slots live).2
      · rw [manager]
        cases before.links.peerAddress? id with
        | none => rfl
        | some address => exact before.manager.book.connectedLinks_miss address
      · intro tested peer live settled
        rw [manager]
        cases before.links.peerAddress? id with
        | none => exact settled
        | some address => exact settled.miss

/-- A failure is told of an address that is no live peer's, or a banned one's. -/
theorem failed {address : PeerAddress} (held : PeersHeld before.manager)
    (harmless : ∀ id peer, before.manager.peerOf? id = some peer →
      address.endpoint = peer.address.endpoint →
        before.manager.book.standing? peer.address = some .banned) :
    PeersHeld (onConnectFailed address before).manager := by
  have manager := (onConnectFailed_eq address before).1
  apply held.kept (.failed address before)
  · rw [manager, AddressBook.connectedLinks_markUnreachable]
  · intro id peer live settled
    rw [manager]
    exact settled.markUnreachable (harmless id peer live)

theorem banned {around : Surroundings} {id : LinkId} {reason : String}
    (held : PeersHeld before.manager) :
    PeersHeld (banLink around id reason before).manager := by
  have manager := (banLink_eq around id reason before).1
  apply held.kept (.banned around id reason before)
  · rw [manager]
    cases before.manager.accountableAddress? before.links id with
    | none => rfl
    | some address => exact before.manager.book.connectedLinks_ban address around.now
  · intro tested peer live settled
    rw [manager]
    cases before.manager.accountableAddress? before.links id with
    | none => exact settled
    | some address => exact settled.ban around.now

theorem learned {link : LinkId} {addresses : List PeerAddress}
    (held : PeersHeld before.manager) :
    PeersHeld (learnAddresses link addresses before).2.manager := by
  have manager := (learnAddresses_eq link addresses before).1
  apply held.kept (.learned link addresses before)
  · rw [manager, AddressBook.connectedLinks_ingest]
  · intro id peer live settled
    rw [manager]
    exact settled.ingest link addresses

theorem routed (held : PeersHeld before.manager) (routed : Routed before after) :
    PeersHeld after.manager := by
  obtain ⟨⟨routes, forwards, manager⟩, attempts⟩ := routed
  rw [manager]
  exact held.kept ⟨rfl, rfl, rfl⟩ rfl fun id peer live settled => settled

end PeersHeld

/-! ## Steps -/

/-- A step that endangers no live peer leaves all of them settled. -/
theorem Step.peersHeld_apply (step : Step) (manager : Manager)
    (harmless : ¬ step.Endangers manager) (held : PeersHeld manager) :
    PeersHeld (step.apply manager) := by
  unfold Step.apply
  cases failure : step.move.failure? with
  | some address =>
      have failed : PeersHeld
          (onConnectFailed address (Turn.start manager step.links)).manager := by
        apply PeersHeld.failed held
        intro id peer live same
        apply Classical.byContradiction
        intro free
        exact harmless (.fails id peer address live same failure free)
      exact failed.checked (step.checked_of_failure? failure manager)
  | none =>
      apply step.keeps (P := fun turn => PeersHeld turn.manager) _ _ _ held
      · intro link addresses turn held
        exact held.learned
      · intro part turn performs held
        cases part with
        | connection id => exact held.opened (opened_onConnection id turn)
        | connectFailed address => simp [Move.failure?_of_performs performs] at failure
        | handshake peer => exact held.announced (announced_onHandshake _ peer turn)
        | relay source addresses =>
            have same := (relayToAgents_eq step.around source addresses turn).1
            rwa [Part.perform, same]
        | route link signal => exact held.routed (routed_onSignal _ link signal turn)
        | ban link reason => exact held.banned
        | closed link => exact held.ended (ended_onClosed link turn)
        | checkPeerCount => exact held.checked (checked_checkPeerCount _ turn)
      · intro control move
        apply PeersHeld.followed held (followed_follow step.around control _)
        rintro address rfl allowed id peer live same
        exact harmless (.dials id peer address live same move allowed)

/-- Dialing settles no address, and it unsettles the one that is dialed. -/
theorem Dialed.settled {address tested : PeerAddress} {before after : Turn}
    (dialed : Dialed address before after) (settled : after.manager.book.Settled tested) :
    address.endpoint ≠ tested.endpoint ∧ before.manager.book.Settled tested := by
  cases dialed with
  | started manager attempts =>
      rw [manager] at settled
      exact settled.of_markConnecting
  | failed manager attempts =>
      rw [manager] at settled
      exact settled.of_markUnreachable.of_markConnecting

theorem Checked.settled {tested : PeerAddress} {before after : Turn}
    (checked : Checked before after) (settled : after.manager.book.Settled tested) :
    before.manager.book.Settled tested := by
  cases checked with
  | idle same => rwa [same] at settled
  | dialed address free dialed => exact (dialed.settled settled).2

/-- A step that endangers a live peer leaves it unsettled. -/
theorem Step.not_peersSettled_apply {step : Step} {manager : Manager}
    (endangers : step.Endangers manager) : ¬ PeersSettled (step.apply manager) := by
  intro settled
  cases endangers with
  | dials id peer address live same control allowed =>
      have turnIs : step.turn manager =
          (connectTo step.around address (Turn.start manager step.links)).2 := by
        unfold Step.turn
        rw [control]
        exact (snd_follow_dial step.around address _).trans (if_pos allowed)
      have dialed := dialed_connectTo step.around address (Turn.start manager step.links)
      rw [← turnIs] at dialed
      have seats : SameSeats manager (step.apply manager) := .dialed dialed
      have remains : (step.apply manager).peerOf? id = some peer := by
        rw [peerOf?_congr seats.slots]
        exact live
      exact (dialed.settled (settled id peer remains)).1 same
  | fails id peer address live same failure free =>
      have checked := step.checked_of_failure? failure manager
      have failed : SameSeats manager _ := .failed address (Turn.start manager step.links)
      have seats : SameSeats _ (step.apply manager) := .checked checked
      have remains : (step.apply manager).peerOf? id = some peer := by
        rw [peerOf?_congr (seats.slots.trans failed.slots)]
        exact live
      have kept := checked.settled (settled id peer remains)
      rw [(onConnectFailed_eq address (Turn.start manager step.links)).1] at kept
      exact manager.book.not_settled_markUnreachable same free kept

/-! ## Runs -/

/-- Every accepted peer stays settled all along a run if and only if no step of
the run endangers a live peer. -/
theorem peersSettled_iff_not_endangered (config : Config) (book : AddressBook)
    (steps : List Step) :
    (∀ earlier, earlier <+: steps → PeersSettled (run (Manager.new config book) earlier)) ↔
      ∀ earlier step, earlier ++ [step] <+: steps →
        ¬ step.Endangers (run (Manager.new config book) earlier) := by
  constructor
  · intro settled earlier step initial endangers
    have next := settled (earlier ++ [step]) initial
    rw [run_append] at next
    exact Step.not_peersSettled_apply endangers next
  · intro harmless earlier initial
    have held := run_keeps_along Step.peersHeld_apply harmless (PeersHeld.new config book)
      earlier initial
    exact held.settled

/-- A host that is being dialed becomes a peer through a link of its own, and
then the attempt fails. -/
def failedLate : List Step :=
  [.plain .empty (.control (.dial (hostAddress "2.2.2.2"))),
    .plain (Table.empty.insert 1 (.opened 1 .inbound .direct (some (.ip "2.2.2.2")) none))
      (.event (.connection 1)),
    .plain .empty (.event (.handshake
      { link := 1
        address := hostAddress "2.2.2.2"
        version := 2
        startHeight := 0
        totalWork := 0 })),
    .plain .empty (.event (.connectFailed (hostAddress "2.2.2.2")))]

/-- The peer is still there, and the book has its address as failed. -/
theorem live_peer_unsettled_by_late_failure :
    ((run (atHost "1.1.1.1") failedLate).peerOf? 1).map Peer.address =
        some ((hostAddress "2.2.2.2").withNetAddress (.ip "2.2.2.2")) ∧
      (run (atHost "1.1.1.1") failedLate).book.standing? (hostAddress "2.2.2.2") =
          some .failed ∧
        ¬ PeersSettled (run (atHost "1.1.1.1") failedLate) := by
  have live : ((run (atHost "1.1.1.1") failedLate).peerOf? 1).map Peer.address =
      some ((hostAddress "2.2.2.2").withNetAddress (.ip "2.2.2.2")) := by decide
  have failed : (run (atHost "1.1.1.1") failedLate).book.standing? (hostAddress "2.2.2.2") =
      some .failed := by decide
  refine ⟨live, failed, ?_⟩
  intro settled
  obtain ⟨peer, known, address⟩ := Option.map_eq_some_iff.1 live
  have standing := settled 1 peer known
  have same : peer.address.endpoint = (hostAddress "2.2.2.2").endpoint := by
    rw [address]
    rfl
  unfold AddressBook.Settled at standing
  rw [AddressBook.standing?_congr _ same, failed] at standing
  simp at standing

end PeerOverlay.Manager
