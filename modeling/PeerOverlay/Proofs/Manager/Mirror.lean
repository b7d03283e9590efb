import PeerOverlay.Proofs.AddressBook.Connected
import PeerOverlay.Proofs.Manager.LinkCounts
import PeerOverlay.Proofs.Manager.PeerLimit

/-!
# The book mirrors the peers

The book claims no connection that does not exist.  As long as no link is handed
over twice and no link announces two peers, the connected links of the book are
the links of the peers, and an address that is connected in the book is the
address of exactly one peer, with the link of that peer.
-/

namespace PeerOverlay.Manager

/-! ## Announcements -/

/-- The peer that announces itself in a move. -/
def Move.announcement? : Move → Option Peer
  | .event (.handshake peer) => some peer
  | .part (.handshake peer) => some peer
  | _ => none

theorem Move.announcement?_of_performs {move : Move} {peer : Peer}
    (performs : move.Performs (.handshake peer)) : move.announcement? = some peer := by
  obtain ⟨event, rfl, answers⟩ | rfl := performs.cases
  · cases answers
    rfl
  · rfl

theorem Step.turn_of_announcement? {step : Step} {peer : Peer}
    (announced : step.move.announcement? = some peer) (manager : Manager) :
    step.turn manager = onHandshake step.around peer (Turn.start manager step.links) := by
  obtain ⟨around, links, move⟩ := step
  unfold Move.announcement? at announced
  split at announced
  · next moveIs =>
      injection announced with same
      subst same moveIs
      rfl
  · next moveIs =>
      injection announced with same
      subst same moveIs
      rfl
  · simp at announced

/-- The links on which a peer announces itself in a run, in order. -/
def announcing (steps : List Step) : List LinkId :=
  steps.filterMap fun step => step.move.announcement?.map Peer.link

theorem announcing_cons (step : Step) (rest : List Step) :
    announcing (step :: rest) =
      (step.move.announcement?.map Peer.link).toList ++ announcing rest :=
  filterMap_cons_eq _ step rest

/-! ## Changes of the peers and of the book -/

/-- Whether a book has the connected links of an earlier one, and nothing is
connected in it that was not connected before. -/
structure ConnectsNothing (before after : AddressBook) : Prop where
  links : after.connectedLinks = before.connectedLinks
  fewer : ∀ {address link}, after.ConnectedThrough address link →
    before.ConnectedThrough address link

/-- Whether two managers have the same peers, and the later one has no further
connection in its book. -/
structure SameConnections (before after : Manager) : Prop where
  peers : ∀ id, after.peerOf? id = before.peerOf? id
  book : ConnectsNothing before.book after.book

namespace SameConnections

variable {before after : Turn}

theorem of_eq {before after : Manager} (same : after = before) : SameConnections before after := by
  rw [same]
  exact ⟨fun _ => rfl, rfl, id⟩

theorem of_seats {before after : Manager} (seats : SameSeats before after)
    (book : ConnectsNothing before.book after.book) : SameConnections before after :=
  ⟨peerOf?_congr seats.slots, book⟩

theorem dialed {address : PeerAddress} (dialed : Dialed address before after) :
    SameConnections before.manager after.manager := by
  apply of_seats (.dialed dialed)
  cases dialed with
  | started manager attempts =>
      rw [manager]
      exact ⟨rfl, fun connected => connected.of_markConnecting⟩
  | failed manager attempts =>
      rw [manager]
      exact ⟨rfl, fun connected => connected.of_markUnreachable.of_markConnecting⟩

theorem checked (checked : Checked before after) :
    SameConnections before.manager after.manager := by
  cases checked with
  | idle same => exact of_eq (congrArg Turn.manager same)
  | dialed address free dialed => exact SameConnections.dialed dialed

theorem followed {control : Control} (followed : Followed before after control) :
    SameConnections before.manager after.manager := by
  cases followed with
  | switched autoConnect savedAutoConnect offline stopped manager attempts =>
      rw [manager]
      exact ⟨fun _ => rfl, rfl, fun connected => connected⟩
  | checked autoConnect savedAutoConnect offline checked =>
      obtain ⟨peers, book⟩ := SameConnections.checked checked
      exact ⟨peers, book⟩
  | dialed address allowed dialed => exact SameConnections.dialed dialed

theorem routed (routed : Routed before after) : SameConnections before.manager after.manager := by
  apply of_seats (.routed routed)
  obtain ⟨⟨routes, forwards, manager⟩, attempts⟩ := routed
  rw [manager]
  exact ⟨rfl, fun connected => connected.of_entries rfl⟩

theorem failed (address : PeerAddress) (turn : Turn) :
    SameConnections turn.manager (onConnectFailed address turn).manager := by
  apply of_seats (.failed address turn)
  rw [(onConnectFailed_eq address turn).1]
  exact ⟨rfl, fun connected => connected.of_markUnreachable⟩

theorem banned (around : Surroundings) (id : LinkId) (reason : String) (turn : Turn) :
    SameConnections turn.manager (banLink around id reason turn).manager := by
  apply of_seats (.banned around id reason turn)
  rw [(banLink_eq around id reason turn).1]
  cases turn.manager.accountableAddress? turn.links id with
  | none => exact ⟨rfl, fun connected => connected⟩
  | some address => exact ⟨rfl, fun connected => connected.of_ban⟩

theorem learned (link : LinkId) (addresses : List PeerAddress) (turn : Turn) :
    SameConnections turn.manager (learnAddresses link addresses turn).2.manager := by
  apply of_seats (.learned link addresses turn)
  rw [(learnAddresses_eq link addresses turn).1]
  exact ⟨AddressBook.connectedLinks_ingest _ link addresses, fun connected => connected.of_ingest⟩

end SameConnections

/-- What becomes of the peers and of the connections in the book, in a turn in
which only the given link is handed over and only the given peer announces
itself. -/
inductive Rebooked (handed : Option LinkId) (announced : Option Peer)
    (before after : Manager) : Prop where
  | kept (same : SameConnections before after)
  | takenIn (id : LinkId) (new : handed = some id)
      (peers : ∀ tested, after.peerOf? tested =
        if id = tested then none else before.peerOf? tested)
      (book : ConnectsNothing before.book after.book)
  | joined (peer : Peer) (new : announced.map Peer.link = some peer.link)
      (peers : ∀ tested, after.peerOf? tested =
        if peer.link = tested then some peer else before.peerOf? tested)
      (book : after.book = before.book.markConnected peer.link peer.address)
  | parted (id : LinkId)
      (peers : ∀ tested, after.peerOf? tested =
        if id = tested then none else before.peerOf? tested)
      (book : after.book = before.book.markDisconnected id)

namespace Rebooked

variable {handed : Option LinkId} {announced : Option Peer} {before after : Turn}

theorem opened {id : LinkId} (opened : Opened id before after) :
    Rebooked (some id) announced before.manager after.manager := by
  cases opened with
  | unknown missing same => exact .kept (.of_eq (congrArg Turn.manager same))
  | refused link known manager attempts =>
      rw [finishAttempt_eq] at manager
      rw [manager]
      refine .kept ⟨fun _ => rfl, ?_⟩
      cases link.peerAddress with
      | none => exact ⟨rfl, fun connected => connected⟩
      | some address =>
          exact ⟨before.manager.book.connectedLinks_giveUp address,
            fun connected => connected.of_giveUp⟩
  | takenIn link known admitted manager attempts =>
      rw [seat_eq, finishAttempt_eq] at manager
      have slots : after.manager.slots = before.manager.slots.insert id (.ofLink link) := by
        rw [manager]
      refine .takenIn id rfl (peerOf?_of_insert slots) ?_
      rw [manager]
      exact ⟨rfl, fun connected => connected⟩

theorem heard {now : Nat} {peer : Peer} (heard : Announced now peer before after) :
    Rebooked handed (some peer) before.manager after.manager := by
  cases heard with
  | passedOver manager attempts => exact .kept (.of_eq manager)
  | accepted slot known admitted manager attempts =>
      rw [seat_eq] at manager
      have slots : after.manager.slots =
          before.manager.slots.insert peer.link (slot.accept (slot.locate peer)) := by
        rw [manager]
      refine .joined (slot.locate peer) rfl (peerOf?_of_insert slots) ?_
      rw [manager]
      rfl

theorem ended {id : LinkId} (ended : Ended id before after) :
    Rebooked handed announced before.manager after.manager := by
  cases ended with
  | unknown same => exact .kept (.of_eq (congrArg Turn.manager same))
  | lost slot peer known joined manager attempts =>
      rw [vacate_eq] at manager
      have slots : after.manager.slots = before.manager.slots.erase id := by rw [manager]
      refine .parted id (peerOf?_of_erase slots) ?_
      rw [manager]
  | missed slot known peerless manager attempts =>
      rw [vacate_eq] at manager
      have slots : after.manager.slots = before.manager.slots.erase id := by rw [manager]
      have absent : before.manager.peerOf? id = none := by
        rw [peerOf?, known]
        exact peerless
      refine .kept ⟨?_, ?_⟩
      · intro tested
        rw [peerOf?_of_erase slots]
        split
        · next same => rw [← same, absent]
        · rfl
      · rw [manager]
        cases before.links.peerAddress? id with
        | none => exact ⟨rfl, fun connected => connected⟩
        | some address =>
            exact ⟨before.manager.book.connectedLinks_miss address,
              fun connected => connected.of_miss⟩

theorem performed {around : Surroundings} {part : Part} (turn : Turn)
    (hands : ∀ id, part = .connection id → handed = some id)
    (announces : ∀ peer, part = .handshake peer → announced = some peer) :
    Rebooked handed announced turn.manager (part.perform around turn).manager := by
  cases part with
  | connection id =>
      rw [hands id rfl]
      exact opened (opened_onConnection id turn)
  | connectFailed address => exact .kept (.failed address turn)
  | handshake peer =>
      rw [announces peer rfl]
      exact heard (announced_onHandshake around peer turn)
  | relay source addresses =>
      exact .kept (.of_eq (relayToAgents_eq around source addresses turn).1)
  | route link signal => exact .kept (.routed (routed_onSignal around link signal turn))
  | ban link reason => exact .kept (.banned around link reason turn)
  | closed link => exact ended (ended_onClosed link turn)
  | checkPeerCount => exact .kept (.checked (checked_checkPeerCount around turn))

end Rebooked

/-- What every change of the peers and of the book keeps is kept by a step. -/
theorem Step.keeps_of_rebooked {P : Manager → Prop} (step : Step) {manager : Manager}
    (keeps : ∀ {before after},
      Rebooked step.move.connection? step.move.announcement? before after → P before → P after)
    (holds : P manager) : P (step.apply manager) := by
  apply Step.keeps (P := fun turn => P turn.manager) step
  · intro link addresses turn holds
    exact keeps (.kept (.learned link addresses turn)) holds
  · intro part turn performs holds
    refine keeps (.performed turn ?_ ?_) holds
    · rintro id rfl
      exact Move.connection?_of_performs performs
    · rintro peer rfl
      exact Move.announcement?_of_performs performs
  · intro control _
    exact keeps (.kept (.followed (followed_follow step.around control _))) holds
  · exact holds

/-- A link on which no peer announces itself gets none. -/
theorem Step.peerOf?_apply_eq_none {step : Step} {manager : Manager} {tested : LinkId}
    (absent : manager.peerOf? tested = none)
    (silent : step.move.announcement?.map Peer.link ≠ some tested) :
    (step.apply manager).peerOf? tested = none := by
  apply step.keeps_of_rebooked (P := fun reached => reached.peerOf? tested = none) _ absent
  intro before after rebooked absent
  cases rebooked with
  | kept same => rw [same.peers, absent]
  | takenIn id new peers book => rw [peers, absent, ite_self]
  | joined peer new peers book =>
      have other : peer.link ≠ tested := by
        rintro rfl
        exact silent new
      rw [peers, if_neg other, absent]
  | parted id peers book => rw [peers, absent, ite_self]

/-- A link that is not handed over gets no slot. -/
theorem Step.get?_slots_apply_eq_none {step : Step} {manager : Manager} {tested : LinkId}
    (absent : manager.slots.get? tested = none) (other : step.move.connection? ≠ some tested) :
    (step.apply manager).slots.get? tested = none := by
  apply step.keeps_of_reseated (P := fun reached => reached.slots.get? tested = none) _ absent
  intro before after reseated absent
  exact reseated.get?_slots_eq_none absent other

/-! ## The mirror -/

/-- Whether the book has exactly the links of the peers as connected, and only
addresses of peers, each with the link of its peer. -/
structure Mirrored (manager : Manager) : Prop where
  links : ∀ id, manager.book.connectedLinks.get? id =
    (manager.peerOf? id).map fun peer => peer.address.endpoint
  own : ∀ {id peer}, manager.peerOf? id = some peer → peer.link = id
  connected : ∀ {address link}, manager.book.ConnectedThrough address link →
    ∃ peer, manager.peerOf? peer.link = some peer ∧
      peer.address.endpoint = address.endpoint ∧ link = some peer.link

namespace Mirrored

variable {before after : Manager} {handed : Option LinkId} {announced : Option Peer}

/-- The manager of a node whose book has no connection. -/
theorem new (config : Config) {book : AddressBook} (unlinked : book.connectedLinks = .empty)
    (unconnected : ∀ address, book.standing? address ≠ some .connected) :
    Mirrored (Manager.new config book) where
  links := by
    intro id
    rw [peerOf?_new]
    exact congrArg (fun links => links.get? id) unlinked
  own := by
    intro id peer live
    simp [peerOf?_new] at live
  connected := fun connected => absurd connected.standing? (unconnected _)

theorem kept (mirrored : Mirrored before) (same : SameConnections before after) :
    Mirrored after where
  links := by
    intro id
    rw [same.book.links, same.peers]
    exact mirrored.links id
  own := by
    intro id peer live
    rw [same.peers] at live
    exact mirrored.own live
  connected := by
    intro address link connected
    obtain ⟨peer, live, there⟩ := mirrored.connected (same.book.fewer connected)
    exact ⟨peer, (same.peers _).trans live, there⟩

theorem takenIn (mirrored : Mirrored before) {id : LinkId} (absent : before.peerOf? id = none)
    (peers : ∀ tested, after.peerOf? tested = if id = tested then none else before.peerOf? tested)
    (book : ConnectsNothing before.book after.book) : Mirrored after := by
  apply mirrored.kept ⟨_, book⟩
  intro tested
  rw [peers]
  split
  · next same => rw [← same, absent]
  · rfl

/-- The address of a new peer is connected through the link of that peer, which
had none before. -/
theorem joined (mirrored : Mirrored before) {peer : Peer}
    (absent : before.peerOf? peer.link = none)
    (peers : ∀ tested, after.peerOf? tested =
      if peer.link = tested then some peer else before.peerOf? tested)
    (book : after.book = before.book.markConnected peer.link peer.address) : Mirrored after where
  links := by
    intro tested
    rw [book, AddressBook.connectedLinks_markConnected, Table.get?_insert, peers]
    by_cases own : peer.link = tested
    · rw [if_pos own, if_pos own, Option.map_some]
    · rw [if_neg own, if_neg own]
      exact mirrored.links tested
  own := by
    intro tested other live
    rw [peers] at live
    by_cases own : peer.link = tested
    · rw [if_pos own] at live
      rw [← Option.some.inj live]
      exact own
    · rw [if_neg own] at live
      exact mirrored.own live
  connected := by
    intro address link connected
    rw [book] at connected
    rcases connected.of_markConnected with ⟨same, through⟩ | earlier
    · refine ⟨peer, ?_, same, through⟩
      rw [peers, if_pos rfl]
    · obtain ⟨other, live, there⟩ := mirrored.connected earlier
      have different : peer.link ≠ other.link := by
        intro shared
        rw [← shared, absent] at live
        exact Option.some_ne_none other live.symm
      refine ⟨other, ?_, there⟩
      rw [peers, if_neg different]
      exact live

/-- With a link its peer goes, and the address of that peer is connected no
more. -/
theorem parted (mirrored : Mirrored before) {id : LinkId}
    (peers : ∀ tested, after.peerOf? tested = if id = tested then none else before.peerOf? tested)
    (book : after.book = before.book.markDisconnected id) : Mirrored after where
  links := by
    intro tested
    rw [book, AddressBook.get?_connectedLinks_markDisconnected, peers]
    by_cases own : id = tested
    · rw [if_pos own, if_pos own, Option.map_none]
    · rw [if_neg own, if_neg own]
      exact mirrored.links tested
  own := by
    intro tested peer live
    rw [peers] at live
    by_cases own : id = tested
    · rw [if_pos own] at live
      exact absurd live (Option.some_ne_none peer).symm
    · rw [if_neg own] at live
      exact mirrored.own live
  connected := by
    intro address link connected
    rw [book] at connected
    obtain ⟨elsewhere, earlier⟩ := connected.of_markDisconnected
    obtain ⟨peer, live, same, through⟩ := mirrored.connected earlier
    -- The entry that the book clears is the one of the endpoint stored for the link, and
    -- by the mirror that is the endpoint of its peer.
    have different : id ≠ peer.link := by
      rintro rfl
      rw [mirrored.links, live, Option.map_some, same] at elsewhere
      exact elsewhere rfl
    refine ⟨peer, ?_, same, through⟩
    rw [peers, if_neg different]
    exact live

theorem rebooked (mirrored : Mirrored before) (rebooked : Rebooked handed announced before after)
    (unseated : ∀ id, handed = some id → before.peerOf? id = none)
    (unknown : ∀ peer, announced = some peer → before.peerOf? peer.link = none) :
    Mirrored after := by
  cases rebooked with
  | kept same => exact mirrored.kept same
  | takenIn id new peers book => exact mirrored.takenIn (unseated id new) peers book
  | joined peer new peers book =>
      obtain ⟨first, isFirst, sameLink⟩ := Option.map_eq_some_iff.1 new
      have absent := unknown first isFirst
      rw [sameLink] at absent
      exact mirrored.joined absent peers book
  | parted id peers book => exact mirrored.parted peers book

theorem apply (mirrored : Mirrored before) {step : Step}
    (unseated : ∀ id, step.move.connection? = some id → before.peerOf? id = none)
    (unknown : ∀ peer, step.move.announcement? = some peer → before.peerOf? peer.link = none) :
    Mirrored (step.apply before) := by
  -- What a part does is known only up to `Rebooked`, with the peers as they are when the
  -- part is done; a link that comes or a peer that is announced is the whole turn.
  cases handed : step.move.connection? with
  | some id =>
      have opened := opened_onConnection id (Turn.start before step.links)
      rw [← step.turn_of_connection? handed] at opened
      have changed : Rebooked (some id) none before (step.apply before) := .opened opened
      apply mirrored.rebooked changed
      · intro new same
        rw [← Option.some.inj same]
        exact unseated id handed
      · intro peer none
        simp at none
  | none =>
      cases announced : step.move.announcement? with
      | some peer =>
          have heard := announced_onHandshake step.around peer (Turn.start before step.links)
          rw [← step.turn_of_announcement? announced] at heard
          have changed : Rebooked none (some peer) before (step.apply before) := .heard heard
          apply mirrored.rebooked changed
          · intro id none
            simp at none
          · intro first same
            rw [← Option.some.inj same]
            exact unknown peer announced
      | none =>
          apply step.keeps_of_rebooked _ mirrored
          intro earlier later changed mirrored
          rw [handed, announced] at changed
          exact mirrored.rebooked changed (by simp) (by simp)

end Mirrored

/-! ## Runs -/

theorem mirrored_run {manager : Manager} {steps : List Step} (mirrored : Mirrored manager)
    (fresh : ∀ id ∈ handedOver steps, manager.slots.get? id = none)
    (handedOnce : (handedOver steps).Nodup)
    (peerless : ∀ id ∈ announcing steps, manager.peerOf? id = none)
    (announcedOnce : (announcing steps).Nodup) : Mirrored (run manager steps) := by
  induction steps generalizing manager with
  | nil => exact mirrored
  | cons step rest hypothesis =>
      rw [handedOver_cons] at fresh handedOnce
      rw [announcing_cons] at peerless announcedOnce
      obtain ⟨_, handedLater, handedApart⟩ := List.nodup_append.1 handedOnce
      obtain ⟨_, announcedLater, announcedApart⟩ := List.nodup_append.1 announcedOnce
      have next : Mirrored (step.apply manager) := by
        apply mirrored.apply
        · intro id handed
          have absent : manager.slots.get? id = none := fresh id (by simp [handed])
          rw [peerOf?, absent]
          rfl
        · intro peer announced
          exact peerless peer.link (by simp [announced])
      -- A link of a later step is not touched by this one, so it is still free then.
      apply hypothesis next _ handedLater _ announcedLater
      · intro id later
        apply Step.get?_slots_apply_eq_none (fresh id (List.mem_append_right _ later))
        intro now
        exact handedApart id (by simp [now]) id later rfl
      · intro id later
        apply Step.peerOf?_apply_eq_none (peerless id (List.mem_append_right _ later))
        intro now
        exact announcedApart id (by simp [now]) id later rfl

theorem Mirrored.connectedCount_eq {manager : Manager} (mirrored : Mirrored manager) :
    manager.book.connectedCount = manager.peerCount := by
  rw [peerCount_eq_countRows]
  apply Table.size_eq_countRows
  intro id
  rw [mirrored.links, Option.isSome_map, peerOf?]
  cases manager.slots.get? id with
  | none => simp
  | some slot => simp

/-- In every run in which no link is handed over twice and no link announces two
peers, the book counts the peers, its connected links are theirs, and every
address that it has as connected is the address of one peer alone, whose link it
stores.  At first the book has no connection. -/
theorem connections_mirror_peers (config : Config) (book : AddressBook) (steps : List Step)
    (unlinked : book.connectedLinks = .empty)
    (unconnected : ∀ address, book.standing? address ≠ some .connected)
    (handedOnce : (handedOver steps).Nodup) (announcedOnce : (announcing steps).Nodup) :
    (run (Manager.new config book) steps).book.connectedCount =
        (run (Manager.new config book) steps).peerCount ∧
      (∀ id, (run (Manager.new config book) steps).book.connectedLinks.get? id =
        ((run (Manager.new config book) steps).peerOf? id).map fun peer =>
          peer.address.endpoint) ∧
      ∀ address entry,
        (run (Manager.new config book) steps).book.find? address = some entry →
        entry.standing = .connected →
        ∃ peer, (run (Manager.new config book) steps).peerOf? peer.link = some peer ∧
          peer.address.endpoint = address.endpoint ∧ entry.link = some peer.link ∧
          ∀ id other, (run (Manager.new config book) steps).peerOf? id = some other →
            other.address.endpoint = address.endpoint → other = peer := by
  have mirrored := mirrored_run (Mirrored.new config unlinked unconnected) (fun _ _ => rfl)
    handedOnce (fun _ _ => rfl) announcedOnce
  have admitted := peersAdmitted_run config book steps
  refine ⟨mirrored.connectedCount_eq, mirrored.links, ?_⟩
  intro address entry found standing
  obtain ⟨peer, live, same, through⟩ := mirrored.connected ⟨entry, found, standing, rfl⟩
  refine ⟨peer, live, same, through, ?_⟩
  intro id other otherLive otherSame
  have sameLink : id = peer.link := admitted.distinct otherLive live (otherSame.trans same.symm)
  rw [sameLink, live] at otherLive
  exact (Option.some.inj otherLive).symm

/-- A host becomes a peer, is dialed, leaves, and comes back through another
link. -/
def cameBack : List Step :=
  let links : Links :=
    (Table.empty.insert 1 (.opened 1 .inbound .direct (some (.ip "2.2.2.2")) none)).insert 2
      (.opened 2 .inbound .direct (some (.ip "2.2.2.2")) none)
  let peer (link : LinkId) : Peer := {
    link := link
    address := hostAddress "2.2.2.2"
    version := 2
    startHeight := 0
    totalWork := 0
  }
  [.plain links (.event (.connection 1)),
    .plain links (.event (.handshake (peer 1))),
    .plain links (.control (.dial (hostAddress "2.2.2.2"))),
    .plain links (.event (.connection 2)),
    .plain links (.event (.closed 1 true)),
    .plain links (.event (.handshake (peer 2)))]

theorem connections_mirror_cameBack :
    ((handedOver cameBack).Nodup ∧ (announcing cameBack).Nodup) ∧
      (run (atHost "1.1.1.1") cameBack).book.connectedCount =
          (run (atHost "1.1.1.1") cameBack).peerCount ∧
        (run (atHost "1.1.1.1") cameBack).peerCount = 1 ∧
          (run (atHost "1.1.1.1") cameBack).book.connectedLinks.get? 2 =
            some (hostAddress "2.2.2.2").endpoint := by
  have handedOnce : (handedOver cameBack).Nodup := by decide
  have announcedOnce : (announcing cameBack).Nodup := by decide
  have mirror := connections_mirror_peers (.full (hostAddress "1.1.1.1") "") .empty cameBack rfl
    (fun address => (Option.some_ne_none _).symm) handedOnce announcedOnce
  have peer : ((run (atHost "1.1.1.1") cameBack).peerOf? 2).map
      (fun peer => peer.address.endpoint) = some (hostAddress "2.2.2.2").endpoint := by decide
  exact ⟨⟨handedOnce, announcedOnce⟩, mirror.1, by decide, (mirror.2.1 2).trans peer⟩

end PeerOverlay.Manager
