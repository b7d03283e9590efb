import Mathlib.Data.List.Induction
import PeerOverlay.Proofs.AddressBook.Entries
import PeerOverlay.Proofs.Manager.Attempts
import PeerOverlay.Proofs.Manager.Milestones

/-!
# Addresses that are being connected to

An address that the book has as connecting is waited for: an attempt to connect to it is in
flight, or a link to it is admitted whose peer has not announced itself.  Every way in which
an attempt or such a link can come to its end tells the book.  The address of a link is known
from the start if it was dialed, else when the other node announces it; then it stays the same.
-/

namespace PeerOverlay

/-! ## Connecting addresses of a book -/

namespace AddressBook

variable {book : AddressBook} {address tested : PeerAddress} {link : LinkId}

theorem has_standing_iff {standing : Standing} :
    book.Has tested (fun entry => entry.standing = standing) ↔
      book.standing? tested = some standing :=
  Option.map_eq_some_iff.symm

theorem connecting_of_markUnreachable
    (connecting : (book.markUnreachable address).standing? tested = some .connecting) :
    address.endpoint ≠ tested.endpoint ∧ book.standing? tested = some .connecting := by
  rw [standing?_markUnreachable] at connecting
  split at connecting
  · obtain ⟨standing, _, unreached⟩ := Option.map_eq_some_iff.1 connecting
    cases standing <;> cases unreached
  · next different => exact ⟨different, connecting⟩

theorem connecting_of_giveUp
    (connecting : (book.giveUp address).standing? tested = some .connecting) :
    address.endpoint ≠ tested.endpoint ∧ book.standing? tested = some .connecting := by
  unfold giveUp at connecting
  split at connecting
  · exact connecting_of_markUnreachable connecting
  · next idle =>
      refine ⟨?_, connecting⟩
      intro same
      rw [isConnecting_iff, standing?_congr book same] at idle
      exact idle connecting

theorem connecting_of_miss
    (connecting : (book.miss address).standing? tested = some .connecting) :
    address.endpoint ≠ tested.endpoint ∧ book.standing? tested = some .connecting := by
  unfold miss at connecting
  split at connecting
  · next connected =>
      refine ⟨?_, connecting⟩
      intro same
      rw [isConnected_iff, standing?_congr book same, connecting] at connected
      cases connected
  · exact connecting_of_markUnreachable connecting

/-- What holds after such an operation on an address holds as well if there may be none. -/
theorem connecting_of_elim {change : PeerAddress → AddressBook} {address? : Option PeerAddress}
    (each : ∀ {address : PeerAddress}, (change address).standing? tested = some .connecting →
      address.endpoint ≠ tested.endpoint ∧ book.standing? tested = some .connecting)
    (connecting : (address?.elim book change).standing? tested = some .connecting) :
    (∀ address, address? = some address → address.endpoint ≠ tested.endpoint) ∧
      book.standing? tested = some .connecting := by
  cases address? with
  | none =>
      refine ⟨?_, connecting⟩
      intro address given
      cases given
  | some address =>
      obtain ⟨different, earlier⟩ := each connecting
      exact ⟨fun _ same => Option.some.inj same ▸ different, earlier⟩

theorem connecting_of_markConnected
    (connecting : (book.markConnected link address).standing? tested = some .connecting) :
    address.endpoint ≠ tested.endpoint ∧ book.standing? tested = some .connecting := by
  rw [standing?_markConnected] at connecting
  split at connecting
  · cases connecting
  · next different => exact ⟨different, connecting⟩

theorem connecting_of_markDisconnected
    (connecting : (book.markDisconnected link).standing? tested = some .connecting) :
    book.standing? tested = some .connecting := by
  rw [standing?_markDisconnected] at connecting
  split at connecting
  · obtain ⟨standing, known, disconnected⟩ := Option.map_eq_some_iff.1 connecting
    cases standing <;> cases disconnected
    exact known
  · exact connecting

theorem connecting_of_ban {now : Nat}
    (connecting : (book.ban address now).standing? tested = some .connecting) :
    book.standing? tested = some .connecting := by
  rw [standing?_ban] at connecting
  split at connecting
  · cases connecting
  · exact connecting

theorem connecting_of_ingest {addresses : List PeerAddress}
    (connecting : (book.ingest link addresses).2.standing? tested = some .connecting) :
    book.standing? tested = some .connecting := by
  apply has_standing_iff.1
  apply Has.of_ingest _ _ (has_standing_iff.2 connecting)
  · intro news entry same
    exact same
  · intro address new
    cases new

end AddressBook

namespace Manager

/-! ## Awaited endpoints -/

section

-- The addresses of the nodes at the other ends of links, as far as they are known.
variable (addressOf : LinkId → Option PeerAddress)

/-- Whether an admitted link to an endpoint has no peer yet. -/
def Awaits (manager : Manager) (endpoint : Endpoint) : Prop :=
  ∃ id slot address, manager.slots.get? id = some slot ∧ slot.peer = none ∧
    addressOf id = some address ∧ address.endpoint = endpoint

/-- Whether every address that is connecting has an attempt in flight or is awaited. -/
def NoneStuck (inFlight : List Endpoint) (manager : Manager) : Prop :=
  ∀ address, manager.book.standing? address = some .connecting →
    address.endpoint ∈ inFlight ∨ manager.Awaits addressOf address.endpoint

/-- Whether all those attempts were in flight before a turn or have been started in it. -/
def Turn.NoneStuck (inFlight : List Endpoint) (turn : Turn) : Prop :=
  Manager.NoneStuck addressOf (inFlight ++ turn.attempts) turn.manager

end

variable {addressOf : LinkId → Option PeerAddress} {inFlight : List Endpoint}

/-- With more addresses known, no fewer endpoints are awaited. -/
theorem NoneStuck.mono {manager : Manager} {moreOf : LinkId → Option PeerAddress}
    (noneStuck : manager.NoneStuck addressOf inFlight)
    (more : ∀ id address, addressOf id = some address → moreOf id = some address) :
    manager.NoneStuck moreOf inFlight := by
  intro tested connecting
  refine (noneStuck tested connecting).imp_right ?_
  rintro ⟨id, slot, address, known, peerless, isAddress, same⟩
  exact ⟨id, slot, address, known, peerless, more id address isAddress, same⟩

theorem Awaits.of_slots {before after : Manager} {endpoint : Endpoint}
    (awaits : before.Awaits addressOf endpoint) (slots : after.slots = before.slots) :
    after.Awaits addressOf endpoint := by
  obtain ⟨id, slot, address, known, rest⟩ := awaits
  exact ⟨id, slot, address, by rw [slots, known], rest⟩

/-- A change of one slot matters only to the endpoint to which its link leads. -/
theorem Awaits.of_others {before after : Manager} {endpoint : Endpoint}
    (awaits : before.Awaits addressOf endpoint) (id : LinkId)
    (others : ∀ tested, id ≠ tested → after.slots.get? tested = before.slots.get? tested)
    (apart : ∀ slot address, before.slots.get? id = some slot → slot.peer = none →
      addressOf id = some address → address.endpoint ≠ endpoint) :
    after.Awaits addressOf endpoint := by
  obtain ⟨awaited, slot, address, known, peerless, isAddress, same⟩ := awaits
  have other : id ≠ awaited := by
    rintro rfl
    exact apart slot address known peerless isAddress same
  exact ⟨awaited, slot, address, (others awaited other).trans known, peerless, isAddress, same⟩

/-- What has come out is in flight no more. -/
def settle (inFlight : List Endpoint) (outcome : Option PeerAddress) : List Endpoint :=
  outcome.elim inFlight fun address => inFlight.erase address.endpoint

theorem mem_settle {outcome : Option PeerAddress} {endpoint : Endpoint}
    (member : endpoint ∈ inFlight)
    (other : ∀ address, outcome = some address → address.endpoint ≠ endpoint) :
    endpoint ∈ settle inFlight outcome := by
  cases outcome with
  | none => exact member
  | some address => exact (List.mem_erase_of_ne (other address rfl).symm).2 member

theorem peerAddress?_of_dialedAddress? {links : Links} {id : LinkId} {address : PeerAddress}
    (dialed : dialedAddress? links id = some address) : links.peerAddress? id = some address := by
  obtain ⟨link, found, isAddress⟩ := Option.bind_eq_some_iff.1 dialed
  rw [Links.peerAddress?, (Option.filter_eq_some_iff.1 found).1]
  exact isAddress

namespace Turn.NoneStuck

variable {before after : Turn}

/-- Nothing gets stuck as long as no address starts connecting, and what is waited for
afterwards is all that was waited for and is still connecting. -/
theorem of_each {later : List Endpoint} (noneStuck : before.NoneStuck addressOf inFlight)
    (attempts : after.attempts = before.attempts)
    (each : ∀ address, after.manager.book.standing? address = some .connecting →
      before.manager.book.standing? address = some .connecting ∧
        (address.endpoint ∈ inFlight →
          address.endpoint ∈ later ∨ after.manager.Awaits addressOf address.endpoint) ∧
        (before.manager.Awaits addressOf address.endpoint →
          after.manager.Awaits addressOf address.endpoint)) : after.NoneStuck addressOf later := by
  intro address connecting
  obtain ⟨earlier, flown, awaited⟩ := each address connecting
  rw [attempts, List.mem_append]
  rcases noneStuck address earlier with member | awaits
  · rcases List.mem_append.1 member with old | new
    · exact (flown old).imp_left .inl
    · exact .inl (.inr new)
  · exact .inr (awaited awaits)

/-- Nothing gets stuck as long as no address starts connecting. -/
theorem of_fewer (noneStuck : before.NoneStuck addressOf inFlight)
    (fewer : ∀ address, after.manager.book.standing? address = some .connecting →
      before.manager.book.standing? address = some .connecting)
    (slots : after.manager.slots = before.manager.slots)
    (attempts : after.attempts = before.attempts) : after.NoneStuck addressOf inFlight := by
  apply noneStuck.of_each attempts
  intro address connecting
  exact ⟨fewer address connecting, .inl, fun awaits => awaits.of_slots slots⟩

theorem of_entries (noneStuck : before.NoneStuck addressOf inFlight)
    (entries : after.manager.book.entries = before.manager.book.entries)
    (slots : after.manager.slots = before.manager.slots)
    (attempts : after.attempts = before.attempts) : after.NoneStuck addressOf inFlight := by
  apply noneStuck.of_fewer _ slots attempts
  intro address connecting
  rwa [AddressBook.standing?, AddressBook.find?, entries] at connecting

theorem dialed {address : PeerAddress} (noneStuck : before.NoneStuck addressOf inFlight)
    (dialed : Dialed address before after) : after.NoneStuck addressOf inFlight := by
  cases dialed with
  | started manager attempts =>
      intro tested connecting
      rw [manager, AddressBook.standing?_markConnecting] at connecting
      rw [attempts, ← List.append_assoc]
      split at connecting
      · next same =>
          left
          rw [← same]
          exact List.mem_append_right _ (List.mem_singleton_self _)
      · refine (noneStuck tested connecting).imp (List.mem_append_left _) ?_
        intro awaits
        exact awaits.of_slots (by rw [manager])
  | failed manager attempts =>
      refine noneStuck.of_fewer ?_ (by rw [manager]) attempts
      intro tested connecting
      rw [manager] at connecting
      obtain ⟨different, still⟩ := AddressBook.connecting_of_markUnreachable connecting
      rwa [AddressBook.standing?_markConnecting, if_neg different] at still

theorem checked (noneStuck : before.NoneStuck addressOf inFlight) (checked : Checked before after) :
    after.NoneStuck addressOf inFlight := by
  cases checked with
  | idle same => rwa [same]
  | dialed address free dialed => exact noneStuck.dialed dialed

theorem followed {control : Control} (noneStuck : before.NoneStuck addressOf inFlight)
    (followed : Followed before after control) : after.NoneStuck addressOf inFlight := by
  cases followed with
  | switched autoConnect savedAutoConnect offline stopped manager attempts =>
      exact noneStuck.of_entries (by rw [manager]) (by rw [manager]) attempts
  | checked autoConnect savedAutoConnect offline checked =>
      refine NoneStuck.checked ?_ checked
      exact noneStuck.of_entries rfl rfl rfl
  | dialed address allowed dialed => exact noneStuck.dialed dialed

theorem routed (noneStuck : before.NoneStuck addressOf inFlight) (routed : Routed before after) :
    after.NoneStuck addressOf inFlight := by
  obtain ⟨⟨routes, forwards, manager⟩, attempts⟩ := routed
  exact noneStuck.of_entries (by rw [manager]) (by rw [manager]) attempts

theorem banned (around : Surroundings) (id : LinkId) (reason : String)
    (noneStuck : before.NoneStuck addressOf inFlight) :
    (banLink around id reason before).NoneStuck addressOf inFlight := by
  obtain ⟨manager, attempts⟩ := banLink_eq around id reason before
  apply noneStuck.of_fewer _ _ attempts <;> rw [manager]
  intro address connecting
  cases answerable : before.manager.accountableAddress? before.links id with
  | none =>
      rw [answerable] at connecting
      exact connecting
  | some banned =>
      rw [answerable] at connecting
      exact AddressBook.connecting_of_ban connecting

theorem learned (link : LinkId) (addresses : List PeerAddress)
    (noneStuck : before.NoneStuck addressOf inFlight) :
    (learnAddresses link addresses before).2.NoneStuck addressOf inFlight := by
  obtain ⟨manager, attempts⟩ := learnAddresses_eq link addresses before
  apply noneStuck.of_fewer _ _ attempts <;> rw [manager]
  intro address connecting
  exact AddressBook.connecting_of_ingest connecting

/-- The attempt that has opened a link is in flight no more: the link is awaited, or the address
has failed. -/
theorem opened {id : LinkId} (noneStuck : before.NoneStuck addressOf inFlight)
    (opened : Opened id before after) (own : before.links.peerAddress? id = addressOf id) :
    after.NoneStuck addressOf (settle inFlight (dialedAddress? before.links id)) := by
  cases opened with
  | unknown missing same =>
      rw [dialedAddress?, missing, same]
      exact noneStuck
  | refused link known manager attempts =>
      rw [finishAttempt_eq] at manager
      have isAddress : before.links.peerAddress? id = link.peerAddress := by
        rw [Links.peerAddress?, known]
        rfl
      apply noneStuck.of_each attempts
      intro tested connecting
      rw [manager] at connecting
      obtain ⟨elsewhere, earlier⟩ :=
        AddressBook.connecting_of_elim AddressBook.connecting_of_giveUp connecting
      refine ⟨earlier, fun member => .inl (mem_settle member ?_), ?_⟩
      · intro address dialed
        exact elsewhere address (isAddress.symm.trans (peerAddress?_of_dialedAddress? dialed))
      · intro awaits
        exact awaits.of_slots (by rw [manager])
  | takenIn link known admitted manager attempts =>
      rw [seat_eq, finishAttempt_eq] at manager
      have slots (asked : LinkId) : after.manager.slots.get? asked =
          if id = asked then some (.ofLink link) else before.manager.slots.get? asked := by
        rw [manager]
        exact Table.get?_insert _ _ _ _
      apply noneStuck.of_each attempts
      intro tested connecting
      rw [manager] at connecting
      -- The link itself is awaited from now on; what it was not opened to is waited for as before.
      by_cases here : ∃ address, addressOf id = some address ∧ address.endpoint = tested.endpoint
      · obtain ⟨address, isAddress, same⟩ := here
        have awaits : after.manager.Awaits addressOf tested.endpoint :=
          ⟨id, .ofLink link, address, (slots id).trans (if_pos rfl), rfl, isAddress, same⟩
        exact ⟨connecting, fun _ => .inr awaits, fun _ => awaits⟩
      · have elsewhere (address : PeerAddress) (isAddress : addressOf id = some address) :
            address.endpoint ≠ tested.endpoint := fun same => here ⟨address, isAddress, same⟩
        refine ⟨connecting, fun member => .inl (mem_settle member ?_), fun awaits => ?_⟩
        · intro address dialed
          exact elsewhere address (own.symm.trans (peerAddress?_of_dialedAddress? dialed))
        · apply awaits.of_others id
          · intro asked other
            rw [slots, if_neg other]
          · intro _ address _ _ isAddress
            exact elsewhere address isAddress

theorem failed (address : PeerAddress) (noneStuck : before.NoneStuck addressOf inFlight) :
    (onConnectFailed address before).NoneStuck addressOf (settle inFlight (some address)) := by
  obtain ⟨manager, attempts⟩ := onConnectFailed_eq address before
  apply noneStuck.of_each attempts
  intro tested connecting
  rw [manager] at connecting
  obtain ⟨different, earlier⟩ := AddressBook.connecting_of_markUnreachable connecting
  refine ⟨earlier, fun member => .inl (mem_settle member ?_), fun awaits => ?_⟩
  · rintro _ ⟨⟩
    exact different
  · exact awaits.of_slots (by rw [manager])

/-- A link that was awaited has its peer now, whose address is connected. -/
theorem announced {now : Nat} {peer : Peer} (noneStuck : before.NoneStuck addressOf inFlight)
    (announced : Announced now peer before after)
    (own : ∀ address, addressOf peer.link = some address →
      peer.address.endpoint = address.endpoint) : after.NoneStuck addressOf inFlight := by
  cases announced with
  | passedOver manager attempts =>
      exact noneStuck.of_entries (by rw [manager]) (by rw [manager]) attempts
  | accepted slot known admitted manager attempts =>
      rw [seat_eq] at manager
      apply noneStuck.of_each attempts
      intro tested connecting
      rw [manager] at connecting
      obtain ⟨different, earlier⟩ := AddressBook.connecting_of_markConnected connecting
      refine ⟨earlier, .inl, fun awaits => ?_⟩
      apply awaits.of_others peer.link
      · intro asked other
        rw [manager]
        exact (Table.get?_insert _ _ _ _).trans (if_neg other)
      · intro _ address _ _ isAddress same
        exact different ((own address isAddress).trans same)

/-- With a link that was awaited its address fails. -/
theorem ended {id : LinkId} (noneStuck : before.NoneStuck addressOf inFlight)
    (ended : Ended id before after) (own : before.links.peerAddress? id = addressOf id) :
    after.NoneStuck addressOf inFlight := by
  cases ended with
  | unknown same => rwa [same]
  | lost slot peer known joined manager attempts =>
      rw [vacate_eq] at manager
      apply noneStuck.of_each attempts
      intro tested connecting
      rw [manager] at connecting
      refine ⟨AddressBook.connecting_of_markDisconnected connecting, .inl, fun awaits => ?_⟩
      apply awaits.of_others id
      · intro asked other
        rw [manager]
        exact (Table.get?_erase _ _ _).trans (if_neg other)
      · intro other _ stored peerless
        rw [Option.some.inj (known.symm.trans stored), peerless] at joined
        cases joined
  | missed slot known peerless manager attempts =>
      rw [vacate_eq] at manager
      apply noneStuck.of_each attempts
      intro tested connecting
      rw [manager, own] at connecting
      obtain ⟨elsewhere, earlier⟩ :=
        AddressBook.connecting_of_elim AddressBook.connecting_of_miss connecting
      refine ⟨earlier, .inl, fun awaits => ?_⟩
      apply awaits.of_others id
      · intro asked other
        rw [manager]
        exact (Table.get?_erase _ _ _).trans (if_neg other)
      · intro _ address _ _ isAddress
        exact elsewhere address isAddress

end Turn.NoneStuck

/-! ## Steps and runs -/

theorem NoneStuck.start {manager : Manager} (noneStuck : manager.NoneStuck addressOf inFlight)
    (links : Links) : (Turn.start manager links).NoneStuck addressOf inFlight := by
  show manager.NoneStuck addressOf (inFlight ++ [])
  rwa [List.append_nil]

/-- A step that tells of no link and no attempt. -/
theorem Step.noneStuck_of_quiet {step : Step} {manager : Manager}
    (noneStuck : manager.NoneStuck addressOf inFlight) (noLink : step.move.connection? = none)
    (noFailure : step.move.failure? = none) (noPeer : step.move.announcement? = none)
    (noEnd : step.move.ending? = none) : (step.turn manager).NoneStuck addressOf inFlight := by
  have start := noneStuck.start step.links
  apply step.keeps _ _ _ start
  · intro link addresses turn noneStuck
    exact noneStuck.learned link addresses
  · intro part turn performs noneStuck
    cases part with
    | connection id => simp [Move.connection?_of_performs performs] at noLink
    | connectFailed address => simp [Move.failure?_of_performs performs] at noFailure
    | handshake peer => simp [Move.announcement?_of_performs performs] at noPeer
    | relay source addresses =>
        obtain ⟨same, attempts⟩ := relayToAgents_eq step.around source addresses turn
        exact noneStuck.of_entries (by rw [Part.perform, same]) (by rw [Part.perform, same]) attempts
    | route link signal => exact noneStuck.routed (routed_onSignal _ link signal turn)
    | ban link reason => exact noneStuck.banned step.around link reason
    | closed id => simp [Move.ending?_of_performs performs] at noEnd
    | checkPeerCount => exact noneStuck.checked (checked_checkPeerCount _ turn)
  · intro control _
    exact start.followed (followed_follow step.around control _)

/-- What comes out in a step is settled, and no other address gets stuck. -/
theorem Step.noneStuck {step : Step} {manager : Manager}
    (noneStuck : manager.NoneStuck step.links.peerAddress? inFlight)
    (announced : ∀ peer address, step.move.announcement? = some peer →
      step.links.peerAddress? peer.link = some address →
        peer.address.endpoint = address.endpoint) :
    (step.turn manager).NoneStuck step.links.peerAddress? (settle inFlight step.outcome?) := by
  have start := noneStuck.start step.links
  -- A link that comes or ends and a peer that is announced are the whole turn, up to a check of
  -- the number of peers, so the links are those that the step has found.
  cases handed : step.move.connection? with
  | some id =>
      rw [step.turn_of_connection? handed, step.outcome?_of_connection? handed]
      exact start.opened (opened_onConnection id _) rfl
  | none =>
      rw [step.outcome?_of_no_connection handed]
      cases failed : step.move.failure? with
      | some address =>
          exact (start.failed address).checked (step.checked_of_failure? failed manager)
      | none =>
          cases new : step.move.announcement? with
          | some peer =>
              rw [step.turn_of_announcement? new]
              exact start.announced (announced_onHandshake step.around peer _)
                fun address => announced peer address new
          | none =>
              cases ending : step.move.ending? with
              | some id =>
                  exact (start.ended (ended_onClosed id _) rfl).checked
                    (step.checked_of_ending? ending manager)
              | none => exact step.noneStuck_of_quiet noneStuck handed failed new ending

/-- Whether every link with a known address still has that address. -/
def KeepsAddresses (before after : Links) : Prop :=
  ∀ id address, before.peerAddress? id = some address → after.peerAddress? id = some address

/-- A link learns an address only if it has none. -/
theorem keepsAddresses_learnPeer (links : Links) (id : LinkId) (address : PeerAddress) :
    KeepsAddresses links (links.modify id fun link => link.learnPeer address) := by
  intro tested known found
  obtain ⟨link, stored, isAddress⟩ := Option.bind_eq_some_iff.1 found
  rw [Links.peerAddress?, Table.get?_modify, stored]
  by_cases same : tested = id
  · simp [same, Link.learnPeer, isAddress]
  · simp [same, isAddress]

/-- Whether a run says the same of its links throughout, until the given links are there: an
address, once it is known, stays the same, and the peer that is announced on a link with an
address has this address. -/
structure Faithful (steps : List Step) (links : Links) : Prop where
  lasting : (steps.map Step.links ++ [links]).Pairwise KeepsAddresses
  announced : ∀ step ∈ steps, ∀ peer address, step.move.announcement? = some peer →
    step.links.peerAddress? peer.link = some address → peer.address.endpoint = address.endpoint

theorem noneStuck_run {manager : Manager} {steps : List Step} {links : Links}
    (idle : ∀ address, manager.book.standing? address ≠ some .connecting)
    (faithful : Faithful steps links) :
    NoneStuck links.peerAddress? ((Ledger.blank manager).after steps).inFlight
      (run manager steps) := by
  induction steps using List.reverseRecOn generalizing links with
  | nil => exact fun address connecting => absurd connecting (idle address)
  | append_singleton earlier step hypothesis =>
      obtain ⟨lasting, announced⟩ := faithful
      rw [List.map_append, List.map_singleton, List.pairwise_append] at lasting
      obtain ⟨before, -, later⟩ := lasting
      have found : NoneStuck step.links.peerAddress? _ (run manager earlier) :=
        hypothesis ⟨before, fun other member =>
          announced other (List.mem_append_left _ member)⟩
      rw [run_append, Ledger.after_concat, Ledger.enter, Ledger.manager_after]
      have reached := Step.noneStuck found
        (announced step (List.mem_append_right _ (List.mem_singleton_self step)))
      exact reached.mono (later step.links (List.mem_append_right _ (List.mem_singleton_self _))
        links (List.mem_singleton_self links))

/-- In every run in which links keep their addresses and peers are announced with those of their
links, every address that is connecting has an attempt in flight, or there is an admitted link
without a peer that leads to it.  At first no address is connecting. -/
theorem connecting_in_flight_or_awaited (config : Config) (book : AddressBook)
    (steps : List Step) (links : Links) (idle : ∀ address, book.isConnecting address = false)
    (faithful : Faithful steps links) (address : PeerAddress)
    (connecting : (run (Manager.new config book) steps).book.isConnecting address) :
    address.endpoint ∈ ((Ledger.blank (Manager.new config book)).after steps).inFlight ∨
      ∃ id slot known, (run (Manager.new config book) steps).slots.get? id = some slot ∧
        slot.peer = none ∧ links.peerAddress? id = some known ∧
          known.endpoint = address.endpoint := by
  refine noneStuck_run ?_ faithful address ((AddressBook.isConnecting_iff _ address).1 connecting)
  intro tested begun
  exact absurd ((book.isConnecting_iff tested).2 begun) (Bool.eq_false_iff.1 (idle tested))

/-- Links to two of the hosts that are dialed, and one from a host that is not known yet. -/
def dialedLinks : Links :=
  ((Table.empty.insert 1 (.opened 1 .outbound .direct none
    (some (hostAddress "2.2.2.2")))).insert 2 (.opened 2 .outbound .direct none
    (some (hostAddress "3.3.3.3")))).insert 3 (.opened 3 .inbound .direct none none)

/-- The third host has announced itself. -/
def announcedLinks : Links :=
  dialedLinks.modify 3 fun link => link.learnPeer (hostAddress "5.5.5.5")

/-- Three hosts are dialed.  The first one has not announced itself yet, the second one is a
peer, and no link to the third one has come about.  Another host has opened a link and has become
a peer, too. -/
def dialsHosts : List Step :=
  let peer (link : LinkId) (host : String) : Peer := {
    link := link
    address := hostAddress host
    version := 2
    startHeight := 0
    totalWork := 0
  }
  [.plain dialedLinks (.control (.dial (hostAddress "2.2.2.2"))),
    .plain dialedLinks (.control (.dial (hostAddress "3.3.3.3"))),
    .plain dialedLinks (.control (.dial (hostAddress "4.4.4.4"))),
    .plain dialedLinks (.event (.connection 1)),
    .plain dialedLinks (.event (.connection 2)),
    .plain dialedLinks (.event (.connection 3)),
    .plain announcedLinks (.event (.handshake (peer 2 "3.3.3.3"))),
    .plain announcedLinks (.event (.handshake (peer 3 "5.5.5.5")))]

theorem faithful_dialsHosts : Faithful dialsHosts announcedLinks where
  lasting := by
    have same (links : Links) : KeepsAddresses links links := fun _ _ found => found
    have learned : KeepsAddresses dialedLinks announcedLinks := keepsAddresses_learnPeer _ _ _
    simp [dialsHosts, Step.plain, same, learned]
  announced := by
    have announcing : ∀ step ∈ dialsHosts, ∀ peer ∈ step.move.announcement?,
        ∀ address ∈ step.links.peerAddress? peer.link,
          peer.address.endpoint = address.endpoint := by decide
    intro step member peer address announces isAddress
    exact announcing step member peer announces address isAddress

theorem connecting_dialsHosts :
    Faithful dialsHosts announcedLinks ∧
      (run (atHost "1.1.1.1") dialsHosts).book.isConnecting (hostAddress "2.2.2.2") ∧
      (run (atHost "1.1.1.1") dialsHosts).book.isConnected (hostAddress "5.5.5.5") ∧
      ((Ledger.blank (atHost "1.1.1.1")).after dialsHosts).inFlight =
        [(hostAddress "4.4.4.4").endpoint] ∧
      ∃ id slot known, (run (atHost "1.1.1.1") dialsHosts).slots.get? id = some slot ∧
        slot.peer = none ∧ announcedLinks.peerAddress? id = some known ∧
        known.endpoint = (hostAddress "2.2.2.2").endpoint := by
  have connecting :
      (run (atHost "1.1.1.1") dialsHosts).book.isConnecting (hostAddress "2.2.2.2") := by decide
  have inFlight : ((Ledger.blank (atHost "1.1.1.1")).after dialsHosts).inFlight =
      [(hostAddress "4.4.4.4").endpoint] := by decide
  have either := connecting_in_flight_or_awaited (.full (hostAddress "1.1.1.1") "") .empty
    dialsHosts announcedLinks (fun _ => rfl) faithful_dialsHosts (hostAddress "2.2.2.2") connecting
  refine ⟨faithful_dialsHosts, connecting, by decide, inFlight, either.resolve_left ?_⟩
  intro flying
  have other : (hostAddress "2.2.2.2").endpoint ∉ [(hostAddress "4.4.4.4").endpoint] := by decide
  exact other (inFlight ▸ flying)

end Manager

end PeerOverlay
