import PeerOverlay.Proofs.Manager.Intake

/-!
# Peers at a network address

A link is counted under the network address that the transport sees, even if that is a
private one and the peer announces a public one later on.  Such a peer is at the
announced address without being counted there.  All other peers are counted where they
are, so no more of them are at one address than may be.
-/

namespace PeerOverlay.Manager

/-! ## Peers and where they are counted -/

def Slot.isAt (slot : Slot) (netAddress : NetAddress) : Bool :=
  slot.peer.any fun peer => peer.address.netAddress == some netAddress

/-- The number of peers over a protocol that are at a network address. -/
def peersAt (manager : Manager) (protocol : Protocol) (netAddress : NetAddress) : Nat :=
  manager.slots.countRows fun _ slot => slot.isAt netAddress && slot.protocol == protocol

/-- The number of those that are not counted there. -/
def straysAt (manager : Manager) (protocol : Protocol) (netAddress : NetAddress) : Nat :=
  manager.slots.countRows fun _ slot =>
    slot.isAt netAddress && slot.protocol == protocol && slot.countedUnder != some netAddress

/-- Whether the peer of a slot, if it is at a physical host, is counted there. -/
def Slot.Home (slot : Slot) : Prop :=
  ∀ netAddress, netAddress.isPseudo = false → slot.isAt netAddress →
    slot.countedUnder = some netAddress

def PeersHome (manager : Manager) : Prop :=
  ∀ id slot, manager.slots.get? id = some slot → slot.Home

/-- Whether no physical host has more peers over a protocol than it may. -/
def PeersCapped (manager : Manager) : Prop :=
  ∀ protocol netAddress, netAddress.isPseudo = false →
    manager.peersAt protocol netAddress ≤ manager.config.perIpMax protocol

theorem straysAt_eq_zero {manager : Manager} (home : PeersHome manager) {netAddress : NetAddress}
    (physical : netAddress.isPseudo = false) (protocol : Protocol) :
    manager.straysAt protocol netAddress = 0 := by
  apply Nat.eq_zero_of_not_pos
  intro positive
  obtain ⟨id, slot, known, stray⟩ := (Table.countRows_pos_iff _ _).1 positive
  simp only [Bool.and_eq_true, bne_iff_ne] at stray
  exact stray.2 (home id slot known netAddress physical stray.1.1)

/-- Apart from the strays the peers at a network address are among the links that are
counted there. -/
theorem peersAt_le (manager : Manager) (protocol : Protocol) (netAddress : NetAddress) :
    manager.peersAt protocol netAddress ≤
      manager.tallyOver protocol netAddress + manager.straysAt protocol netAddress := by
  apply Table.countRows_le_add
  intro id slot here
  by_cases counted : slot.countedUnder = some netAddress
  · left
    simpa [counted] using (Bool.and_eq_true_iff.1 here).2
  · right
    rw [here, Bool.true_and]
    simpa using counted

/-! ## Accepted peers -/

theorem resolve_of_public {seen : NetAddress} (isPublic : seen.isPrivate = false)
    (told : Option NetAddress) : resolve (some seen) told = some seen := by
  simp [resolve, Option.filter, isPublic]

theorem resolve_none (told : Option NetAddress) : resolve none told = told := by
  cases told with
  | none => rfl
  | some told => cases isPrivate : told.isPrivate <;> simp [resolve, Option.filter, isPrivate]

theorem resolve_of_private {seen : NetAddress} (isPrivate : seen.isPrivate)
    (told : Option NetAddress) :
    resolve (some seen) told = (told.filter fun told => !told.isPrivate).or (some seen) := by
  cases told with
  | none => simp [resolve, Option.filter, isPrivate]
  | some told =>
      cases isPublic : told.isPrivate <;> simp [resolve, Option.filter, isPrivate, isPublic]

theorem isPseudo_of_isPrivate {netAddress : NetAddress} (isPrivate : netAddress.isPrivate) :
    netAddress.isPseudo = false := by
  cases netAddress with
  | ip text => rfl
  | unknown => exact absurd isPrivate (by decide)

theorem countable_some {netAddress : NetAddress} (physical : netAddress.isPseudo = false) :
    countable (some netAddress) = some netAddress := by
  simp [countable, Option.filter, physical]

/-- Whether a peer announces a public network address over a link that the transport
sees at a private one. -/
def Slot.MovesOut (slot : Slot) (peer : Peer) : Prop :=
  ∃ seen told, slot.observed = some seen ∧ seen.isPrivate ∧
    peer.address.netAddress = some told ∧ told.isPrivate = false ∧ told.isPseudo = false

/-- The slot of a link whose peer is not known yet is counted under what the transport
sees. -/
def Slot.Waiting (slot : Slot) : Prop :=
  slot.peer = none ∧ slot.countedUnder = countable slot.observed

theorem Slot.isAt_accept_iff {slot : Slot} (peer : Peer) {netAddress : NetAddress} :
    (slot.accept (slot.locate peer)).isAt netAddress ↔
      resolve slot.observed peer.address.netAddress = some netAddress := by
  simp [isAt, accept, locate]

theorem Slot.Waiting.countedUnder_accept {slot : Slot} (waiting : slot.Waiting) (peer : Peer) :
    (slot.accept (slot.locate peer)).countedUnder =
      (countable slot.observed).or
        (countable (resolve slot.observed peer.address.netAddress)) := by
  show (slot.countedUnder.orElse fun _ => slot.uncounted (slot.locate peer)) = _
  rw [uncounted, waiting.2]
  cases countable slot.observed <;> rfl

/-- The first peer of a link is counted where it is, unless it has moved out. -/
theorem Slot.Waiting.home_accept_iff {slot : Slot} (waiting : slot.Waiting) (peer : Peer) :
    (slot.accept (slot.locate peer)).Home ↔ ¬ slot.MovesOut peer := by
  unfold Home MovesOut
  simp only [isAt_accept_iff, waiting.countedUnder_accept]
  cases slot.observed with
  | none =>
      simp only [resolve_none]
      constructor
      · rintro _ ⟨seen, told, absent, _⟩
        exact Option.some_ne_none seen absent.symm
      · intro _ netAddress physical there
        rw [there, countable_some physical]
        rfl
  | some seen =>
      cases isPrivate : seen.isPrivate with
      | false =>
          simp only [resolve_of_public isPrivate]
          constructor
          · rintro _ ⟨_, told, ⟨⟩, hidden, _⟩
            simp [isPrivate] at hidden
          · intro _ netAddress physical there
            rw [there, countable_some physical]
            rfl
      | true =>
          have counted := countable_some (isPseudo_of_isPrivate isPrivate)
          simp only [resolve_of_private isPrivate, counted, Option.some_or]
          constructor
          · rintro home ⟨_, told, ⟨⟩, _, announced, isPublic, physical⟩
            have there : (some told).filter (fun told => !told.isPrivate) = some told := by
              simp [Option.filter, isPublic]
            have same := home told physical (by rw [announced, there, Option.some_or])
            rw [Option.some.inj same, isPublic] at isPrivate
            simp at isPrivate
          · intro stays netAddress physical there
            cases announced : peer.address.netAddress.filter fun told => !told.isPrivate with
            | none =>
                rw [announced] at there
                exact there
            | some told =>
                obtain ⟨same, isPublic⟩ := Option.filter_eq_some_iff.1 announced
                rw [announced, Option.some_or, Option.some.injEq] at there
                rw [← there] at physical
                refine absurd ⟨seen, told, rfl, isPrivate, same, ?_, physical⟩ stays
                simpa using isPublic

/-! ## Steps and runs -/

/-- Whether a step accepts a peer that moves out. -/
def Step.MovesOut (step : Step) (manager : Manager) : Prop :=
  ∃ peer slot, step.move.announcement? = some peer ∧
    manager.slots.get? peer.link = some slot ∧ slot.MovesOut peer ∧
    manager.peerRefusal? step.around.now slot (slot.locate peer) = none

/-- Whether the slots without a peer are as they were when their links were taken in. -/
def SlotsWaiting (manager : Manager) : Prop :=
  ∀ id slot, manager.slots.get? id = some slot → slot.peer = none → slot.Waiting

/-- All peers stay counted where they are as long as none moves out. -/
theorem Step.peersHome {manager : Manager} {step : Step} (home : PeersHome manager)
    (waiting : SlotsWaiting manager)
    (first : ∀ peer, step.move.announcement? = some peer → manager.peerOf? peer.link = none)
    (stays : ¬ step.MovesOut manager) : PeersHome (step.apply manager) := by
  intro tested slot known
  cases step.brings manager with
  | nothing fewer => exact home tested slot (fewer.slots known)
  | link id link handed opened slots counts =>
      rw [slots, Table.get?_insert] at known
      split at known
      · rw [← Option.some.inj known]
        intro netAddress _ there
        simp [Slot.isAt, Slot.ofLink] at there
      · exact home tested slot known
  | peer peer earlier announced was admitted slots counts =>
      rw [slots, Table.get?_insert] at known
      split at known
      · have peerless := first peer announced
        rw [peerOf?, was, Option.bind_some] at peerless
        rw [← Option.some.inj known]
        apply ((waiting peer.link earlier was peerless).home_accept_iff peer).2
        intro movesOut
        exact stays ⟨peer, earlier, announced, was, movesOut, admitted⟩
      · exact home tested slot known

/-- A peer that moves out is not counted where it is. -/
theorem Step.MovesOut.not_peersHome {manager : Manager} {step : Step}
    (movesOut : step.MovesOut manager) (waiting : SlotsWaiting manager)
    (first : ∀ peer, step.move.announcement? = some peer → manager.peerOf? peer.link = none) :
    ¬ PeersHome (step.apply manager) := by
  intro home
  obtain ⟨peer, slot, announced, known, leaves, admitted⟩ := movesOut
  have slots := (step.apply_of_admitted announced known admitted).1
  have peerless := first peer announced
  rw [peerOf?, known, Option.bind_some] at peerless
  have moved : (step.apply manager).slots.get? peer.link =
      some (slot.accept (slot.locate peer)) := by
    rw [slots, Table.get?_insert, if_pos rfl]
  exact ((waiting peer.link slot known peerless).home_accept_iff peer).1
    (home peer.link _ moved) leaves

theorem peerOf?_run_eq_none {manager : Manager} {steps : List Step} {tested : LinkId}
    (absent : manager.peerOf? tested = none) (silent : tested ∉ announcing steps) :
    (run manager steps).peerOf? tested = none := by
  induction steps generalizing manager with
  | nil => exact absent
  | cons step rest hypothesis =>
      rw [announcing_cons, List.mem_append, not_or, Option.mem_toList] at silent
      exact hypothesis (Step.peerOf?_apply_eq_none absent silent.1) silent.2

/-- A link that announces one peer has none before it does. -/
theorem peerOf?_eq_none_of_announcement {config : Config} {book : AddressBook}
    {steps earlier : List Step} {step : Step} (announcedOnce : (announcing steps).Nodup)
    (initial : earlier ++ [step] <+: steps) {peer : Peer}
    (announced : step.move.announcement? = some peer) :
    (run (Manager.new config book) earlier).peerOf? peer.link = none := by
  apply peerOf?_run_eq_none (peerOf?_new config book peer.link)
  exact not_mem_of_nodup_concat (nodup_of_initial announcedOnce initial) (by rw [announced]; rfl)

theorem slotsWaiting_run (config : Config) (book : AddressBook) (steps : List Step) :
    SlotsWaiting (run (Manager.new config book) steps) := by
  apply slots_run
  · intro link _
    exact ⟨rfl, rfl⟩
  · intro slot peer _ peerless
    exact absurd peerless (Option.some_ne_none _)

/-- In every run in which no link is handed over twice and no link announces two peers,
all peers are counted where they are, as long as none moves out from a private network
address to a public one that it announces.  Then no physical host has more peers over a
protocol than it may, and otherwise only by those that have moved out. -/
theorem peersHome_iff_not_movesOut (config : Config) (book : AddressBook) (steps : List Step)
    (handedOnce : (handedOver steps).Nodup) (announcedOnce : (announcing steps).Nodup) :
    ((∀ earlier, earlier <+: steps → PeersHome (run (Manager.new config book) earlier)) ↔
      ∀ earlier step, earlier ++ [step] <+: steps →
        ¬ step.MovesOut (run (Manager.new config book) earlier)) ∧
      ∀ earlier, earlier <+: steps →
        (PeersHome (run (Manager.new config book) earlier) →
          PeersCapped (run (Manager.new config book) earlier)) ∧
        ∀ protocol netAddress,
          (run (Manager.new config book) earlier).peersAt protocol netAddress ≤
            config.perIpMax protocol +
              (run (Manager.new config book) earlier).straysAt protocol netAddress := by
  have first : ∀ earlier step, earlier ++ [step] <+: steps → ∀ peer,
      step.move.announcement? = some peer →
        (run (Manager.new config book) earlier).peerOf? peer.link = none :=
    fun earlier step initial peer announced =>
      peerOf?_eq_none_of_announcement announcedOnce initial announced
  have bounded : ∀ earlier, earlier <+: steps → ∀ protocol netAddress,
      (run (Manager.new config book) earlier).peersAt protocol netAddress ≤
        config.perIpMax protocol +
          (run (Manager.new config book) earlier).straysAt protocol netAddress := by
    intro earlier initial protocol netAddress
    have once : (handedOver earlier).Nodup := handedOnce.sublist (initial.filterMap _).sublist
    have capped := (connectionCounts_eq_tally config book earlier once).2.2.2 protocol netAddress
    have most := (run (Manager.new config book) earlier).peersAt_le protocol netAddress
    omega
  refine ⟨⟨?_, ?_⟩, ?_⟩
  · intro home earlier step initial movesOut
    apply movesOut.not_peersHome (slotsWaiting_run config book earlier)
      (first earlier step initial)
    have after := home (earlier ++ [step]) initial
    rwa [run_append] at after
  · intro stays
    apply run_keeps_along (P := PeersHome) (A := fun step manager => SlotsWaiting manager ∧
      (∀ peer, step.move.announcement? = some peer → manager.peerOf? peer.link = none) ∧
      ¬ step.MovesOut manager)
    · intro step manager allowed home
      exact step.peersHome home allowed.1 allowed.2.1 allowed.2.2
    · intro earlier step initial
      exact ⟨slotsWaiting_run config book earlier, first earlier step initial,
        stays earlier step initial⟩
    · intro id slot known
      exact absurd known (Option.some_ne_none slot).symm
  · intro earlier initial
    refine ⟨?_, bounded earlier initial⟩
    intro home protocol netAddress physical
    have most := bounded earlier initial protocol netAddress
    rw [straysAt_eq_zero home physical] at most
    rw [config_run]
    exact most

/-- Three relayed links whose peers announce one public network address. -/
def crowd (seen : LinkId → Option NetAddress) : List Step :=
  let links : Links :=
    ((Table.empty.insert 1 (.opened 1 .inbound .relayed (seen 1) none)).insert 2
      (.opened 2 .inbound .relayed (seen 2) none)).insert 3
      (.opened 3 .inbound .relayed (seen 3) none)
  let peer (link : LinkId) : Peer := {
    link := link
    address := (PeerAddress.fresh (.relayed (toString link)) .full 0).withNetAddress (.ip "8.8.8.8")
    version := 2
    startHeight := 0
    totalWork := 0
  }
  [.plain links (.event (.connection 1)),
    .plain links (.event (.connection 2)),
    .plain links (.event (.connection 3)),
    .plain links (.event (.handshake (peer 1))),
    .plain links (.event (.handshake (peer 2))),
    .plain links (.event (.handshake (peer 3)))]

/-- If the transport sees no network address, the third peer is refused. -/
theorem peersAt_crowd_unseen :
    ((handedOver (crowd fun _ => none)).Nodup ∧ (announcing (crowd fun _ => none)).Nodup) ∧
      (run (atHost "1.1.1.1") (crowd fun _ => none)).peersAt .relayed (.ip "8.8.8.8") = 2 ∧
        (run (atHost "1.1.1.1") (crowd fun _ => none)).peersAt .relayed (.ip "8.8.8.8") ≤
          (Config.full (hostAddress "1.1.1.1") "").perIpMax .relayed +
            (run (atHost "1.1.1.1") (crowd fun _ => none)).straysAt .relayed (.ip "8.8.8.8") := by
  have handedOnce : (handedOver (crowd fun _ => none)).Nodup := by decide
  have announcedOnce : (announcing (crowd fun _ => none)).Nodup := by decide
  have bounded := (peersHome_iff_not_movesOut (.full (hostAddress "1.1.1.1") "") .empty _
    handedOnce announcedOnce).2 _ (List.prefix_refl _)
  exact ⟨⟨handedOnce, announcedOnce⟩, by decide, bounded.2 .relayed (.ip "8.8.8.8")⟩

/-- Three hosts behind private network addresses. -/
def seenPrivate : LinkId → Option NetAddress
  | 1 => some (.ip "10.0.0.1")
  | 2 => some (.ip "10.0.0.2")
  | _ => some (.ip "10.0.0.3")

/-- If the transport sees private network addresses, all three peers are accepted,
although two are as many as may be at one network address. -/
theorem peersAt_crowd_movedOut :
    (run (atHost "1.1.1.1") (crowd seenPrivate)).config.perIpMax .relayed = 2 ∧
      (run (atHost "1.1.1.1") (crowd seenPrivate)).peersAt .relayed (.ip "8.8.8.8") = 3 ∧
        ¬ PeersCapped (run (atHost "1.1.1.1") (crowd seenPrivate)) := by
  have most : (run (atHost "1.1.1.1") (crowd seenPrivate)).config.perIpMax .relayed = 2 := by
    decide
  have crowded :
      (run (atHost "1.1.1.1") (crowd seenPrivate)).peersAt .relayed (.ip "8.8.8.8") = 3 := by
    decide
  refine ⟨most, crowded, ?_⟩
  intro capped
  have few := capped .relayed (.ip "8.8.8.8") rfl
  rw [most, crowded] at few
  exact absurd few (by decide)

end PeerOverlay.Manager
