import PeerOverlay.Proofs.Manager.Slots

/-!
# The limit of peers

There are never more peers than configured, and never two peers at one
endpoint.  A peer is checked against the slots themselves when it announces
itself, so whatever the book says about it, no second one comes in.
-/

namespace PeerOverlay.Manager

/-! ## Admitted peers -/

/-- Whether the peers keep to the limit and to different endpoints. -/
structure PeersAdmitted (manager : Manager) : Prop where
  few : manager.peerCount ≤ manager.config.peerCountMax
  distinct : ∀ {id other : LinkId} {peer otherPeer : Peer},
    manager.peerOf? id = some peer → manager.peerOf? other = some otherPeer →
    peer.address.endpoint = otherPeer.address.endpoint → id = other

namespace PeersAdmitted

variable {before after : Manager} {handed : Option LinkId}

theorem new (config : Config) (book : AddressBook) :
    PeersAdmitted (Manager.new config book) where
  few := Nat.zero_le _
  distinct := by
    intro id other peer otherPeer known
    simp [peerOf?_new] at known

/-- Slots that give no link another peer. -/
theorem of_peerOf? (admitted : PeersAdmitted before) (config : after.config = before.config)
    (few : after.peerCount ≤ before.peerCount)
    (fewer : ∀ {id peer}, after.peerOf? id = some peer → before.peerOf? id = some peer) :
    PeersAdmitted after where
  few := by
    rw [config]
    exact Nat.le_trans few admitted.few
  distinct := by
    intro id other peer otherPeer known otherKnown
    exact admitted.distinct (fewer known) (fewer otherKnown)

theorem kept (admitted : PeersAdmitted before) (same : SameSeats before after) :
    PeersAdmitted after := by
  apply admitted.of_peerOf? same.config
  · have count : after.peerCount = before.peerCount := by
      rw [peerCount_eq_countRows, peerCount_eq_countRows, same.slots]
    exact Nat.le_of_eq count
  · intro id peer known
    rwa [peerOf?_congr same.slots] at known

theorem takenIn (admitted : PeersAdmitted before) {id : LinkId} {link : Link}
    (config : after.config = before.config)
    (slots : after.slots = before.slots.insert id (.ofLink link)) : PeersAdmitted after := by
  apply admitted.of_peerOf? config
  · have count := before.slots.countRows_insert (fun _ slot => slot.peer.isSome) id (.ofLink link)
    have peerless : (Slot.ofLink link).peer.isSome = false := rfl
    rw [peerless, if_neg Bool.false_ne_true] at count
    rw [peerCount_eq_countRows, peerCount_eq_countRows, slots]
    omega
  · intro tested peer known
    exact peerOf?_of_ofLink slots known

theorem vacated (admitted : PeersAdmitted before) {id : LinkId}
    (config : after.config = before.config) (slots : after.slots = before.slots.erase id) :
    PeersAdmitted after := by
  apply admitted.of_peerOf? config
  · have count := before.slots.countRows_erase (fun _ slot => slot.peer.isSome) id
    rw [peerCount_eq_countRows, peerCount_eq_countRows, slots]
    omega
  · intro tested peer known
    exact (ne_and_peerOf?_of_erase slots known).2

/-- A peer that is accepted has room, and no other link has a peer at its
endpoint. -/
theorem accepted (admitted : PeersAdmitted before) {slot : Slot} {peer : Peer}
    (alone : before.hasOtherPeer peer.link peer.address = false)
    (few : before.hasMaxPeers = false) (config : after.config = before.config)
    (slots : after.slots = before.slots.insert peer.link (slot.accept peer)) :
    PeersAdmitted after where
  few := by
    have count := before.slots.countRows_insert (fun _ slot => slot.peer.isSome) peer.link
      (slot.accept peer)
    have joined : (slot.accept peer).peer.isSome = true := rfl
    rw [joined, if_pos rfl] at count
    have room : before.peerCount < before.config.peerCountMax :=
      Nat.lt_of_not_le (of_decide_eq_false few)
    rw [peerCount_eq_countRows] at room
    rw [peerCount_eq_countRows, slots, config]
    omega
  distinct := by
    have joined : (slot.accept peer).peer = some peer := rfl
    have others {other : LinkId} {otherPeer : Peer} (different : peer.link ≠ other)
        (known : after.peerOf? other = some otherPeer) :
        before.peerOf? other = some otherPeer := by
      rwa [peerOf?_of_insert slots, if_neg different] at known
    have own {otherPeer : Peer} (known : after.peerOf? peer.link = some otherPeer) :
        peer = otherPeer := by
      rw [peerOf?_of_insert slots, if_pos rfl, joined] at known
      exact Option.some.inj known
    have apart {other : LinkId} {otherPeer : Peer} (different : peer.link ≠ other)
        (known : after.peerOf? other = some otherPeer) :
        otherPeer.address.endpoint ≠ peer.address.endpoint :=
      ne_of_not_hasOtherPeer alone different.symm (others different known)
    intro id other first second known otherKnown same
    by_cases here : peer.link = id
    · by_cases there : peer.link = other
      · exact here.symm.trans there
      · subst here
        rw [← own known] at same
        exact absurd same.symm (apart there otherKnown)
    · by_cases there : peer.link = other
      · subst there
        rw [← own otherKnown] at same
        exact absurd same (apart here known)
      · exact admitted.distinct (others here known) (others there otherKnown) same

theorem reseated (admitted : PeersAdmitted before) (reseated : Reseated handed before after) :
    PeersAdmitted after := by
  cases reseated with
  | kept same => exact admitted.kept same
  | takenIn id link new room config slots counts => exact admitted.takenIn config slots
  | accepted slot peer known room alone few config slots counts =>
      exact admitted.accepted alone few config slots
  | vacated id slot known config slots counts => exact admitted.vacated config slots

end PeersAdmitted

theorem peersAdmitted_run (config : Config) (book : AddressBook) (steps : List Step) :
    PeersAdmitted (run (Manager.new config book) steps) := by
  apply run_keeps (P := PeersAdmitted)
  · intro step manager admitted
    exact step.keeps_of_reseated (fun reseated admitted => admitted.reseated reseated) admitted
  · exact PeersAdmitted.new config book

/-! ## Peers in any run -/

theorem PeersAdmitted.endpoints_nodup {manager : Manager} (admitted : PeersAdmitted manager) :
    (manager.peers.map fun peer => peer.address.endpoint).Nodup := by
  have keys : manager.slots.rows.Pairwise fun row other => row.1 ≠ other.1 :=
    List.pairwise_map.1 manager.slots.distinct
  have known {id : LinkId} {slot : Slot} {peer : Peer} (member : (id, slot) ∈ manager.slots.rows)
      (joined : slot.peer = some peer) : manager.peerOf? id = some peer := by
    unfold peerOf?
    rw [(Table.mem_rows_iff _ id slot).1 member]
    exact joined
  unfold peers Table.values
  rw [List.filterMap_map, List.Nodup, List.pairwise_map, List.pairwise_filterMap]
  apply keys.imp_of_mem
  rintro ⟨id, slot⟩ ⟨other, otherSlot⟩ member otherMember different peer joined otherPeer
    otherJoined same
  exact different (admitted.distinct (known member joined) (known otherMember otherJoined) same)

/-- In every run there are at most as many peers as configured, and no two of
them at one endpoint. -/
theorem peers_few_and_distinct (config : Config) (book : AddressBook) (steps : List Step) :
    (run (Manager.new config book) steps).peerCount ≤ config.peerCountMax ∧
      ((run (Manager.new config book) steps).peers.map fun peer =>
        peer.address.endpoint).Nodup := by
  have admitted := peersAdmitted_run config book steps
  have few := admitted.few
  rw [config_run] at few
  exact ⟨few, admitted.endpoints_nodup⟩

end PeerOverlay.Manager
