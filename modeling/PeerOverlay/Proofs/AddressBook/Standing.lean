import PeerOverlay.AddressBook.Book

/-!
# What the operations of an address book do to standings and links

Every operation that tells the book how a connection fares changes the standing
of one endpoint.  Addresses that are heard never change a standing, and an
address that is proposed to connect to is new or has failed.
-/

namespace PeerOverlay.AddressBook

/-! ## Standings after a failure and after a departure -/

/-- The standing after connecting has failed. -/
def Standing.unreached : Standing → Standing
  | .banned => .banned
  | _ => .failed

/-- The standing after the link to the peer is gone. -/
def Standing.disconnected : Standing → Standing
  | .connected => .new
  | standing => standing

theorem Entry.unreached_standing (entry : Entry) :
    entry.unreached.standing = entry.standing.unreached := by
  unfold Entry.unreached
  cases standing : entry.standing <;> simp [standing, Standing.unreached]

theorem Entry.disconnected_standing (entry : Entry) :
    entry.disconnected.standing = entry.standing.disconnected := by
  unfold Entry.disconnected
  cases entry.standing <;> simp [Standing.disconnected]

/-! ## Standings -/

variable (book : AddressBook) (address tested : PeerAddress)

theorem isConnected_iff : book.isConnected address ↔ book.standing? address = some .connected := by
  simp [isConnected]

theorem isConnecting_iff :
    book.isConnecting address ↔ book.standing? address = some .connecting := by
  simp [isConnecting]

theorem standing?_congr {address tested : PeerAddress}
    (same : address.endpoint = tested.endpoint) :
    book.standing? address = book.standing? tested := by
  unfold standing? find?
  rw [same]

theorem standing?_changeOrAdd {step : Entry → Entry} (keeps : Entry.KeepsEndpoint step) :
    (book.changeOrAdd address step keeps).standing? tested =
      if address.endpoint = tested.endpoint then some (step (book.entryOf address)).standing
      else book.standing? tested := by
  rw [standing?, find?_changeOrAdd]
  split <;> rfl

@[simp]
theorem standing?_markConnecting :
    (book.markConnecting address).standing? tested =
      if address.endpoint = tested.endpoint then some .connecting
      else book.standing? tested :=
  standing?_changeOrAdd book address tested Entry.keepsEndpoint_dialed

@[simp]
theorem standing?_markConnected (link : LinkId) :
    (book.markConnected link address).standing? tested =
      if address.endpoint = tested.endpoint then some .connected
      else book.standing? tested :=
  standing?_changeOrAdd book address tested (Entry.keepsEndpoint_connected link address)

@[simp]
theorem standing?_ban (now : Nat) :
    (book.ban address now).standing? tested =
      if address.endpoint = tested.endpoint then some .banned else book.standing? tested :=
  standing?_changeOrAdd book address tested (Entry.keepsEndpoint_bannedTo (now + banDuration))

@[simp]
theorem standing?_markUnreachable :
    (book.markUnreachable address).standing? tested =
      if address.endpoint = tested.endpoint then
        (book.standing? tested).map Standing.unreached
      else book.standing? tested := by
  rw [standing?, markUnreachable, find?_change, Option.map_map, standing?]
  by_cases same : address.endpoint = tested.endpoint
  · rw [if_pos same, Option.map_map]
    congr 1
    funext entry
    simp [same, Entry.unreached_standing]
  · have different : tested.endpoint ≠ address.endpoint := fun h => same h.symm
    rw [if_neg same]
    congr 1
    funext entry
    simp [different]

/-- The end of a link matters to the endpoint of that link only. -/
theorem standing?_markDisconnected (link : LinkId) :
    (book.markDisconnected link).standing? tested =
      if book.connectedLinks.get? link = some tested.endpoint then
        (book.standing? tested).map Standing.disconnected
      else book.standing? tested := by
  unfold markDisconnected
  cases connected : book.connectedLinks.get? link with
  | none => rfl
  | some endpoint =>
      show ((book.entries.modify endpoint Entry.disconnected).get? tested.endpoint).map
        Entry.standing = _
      rw [Table.get?_modify, Option.map_map, standing?, find?]
      by_cases same : endpoint = tested.endpoint
      · rw [if_pos (congrArg some same), Option.map_map]
        congr 1
        funext entry
        simp [same, Entry.disconnected_standing]
      · have different : tested.endpoint ≠ endpoint := fun h => same h.symm
        rw [if_neg (fun h => same (Option.some.inj h))]
        congr 1
        funext entry
        simp [different]

/-! ## Links -/

@[simp]
theorem connectedLinks_markConnecting :
    (book.markConnecting address).connectedLinks = book.connectedLinks := rfl

@[simp]
theorem connectedLinks_markUnreachable :
    (book.markUnreachable address).connectedLinks = book.connectedLinks := rfl

@[simp]
theorem connectedLinks_ban (now : Nat) :
    (book.ban address now).connectedLinks = book.connectedLinks := rfl

@[simp]
theorem connectedLinks_markConnected (link : LinkId) :
    (book.markConnected link address).connectedLinks =
      book.connectedLinks.insert link address.endpoint := rfl

theorem get?_connectedLinks_markDisconnected (link other : LinkId) :
    (book.markDisconnected link).connectedLinks.get? other =
      if link = other then none else book.connectedLinks.get? other := by
  unfold markDisconnected
  cases connected : book.connectedLinks.get? link with
  | none =>
      show book.connectedLinks.get? other = _
      split
      · next same => rw [← same, connected]
      · rfl
  | some endpoint => exact Table.get?_erase book.connectedLinks link other

@[simp]
theorem connectedLinks_giveUp :
    (book.giveUp address).connectedLinks = book.connectedLinks := by
  unfold giveUp
  split <;> rfl

@[simp]
theorem connectedLinks_miss : (book.miss address).connectedLinks = book.connectedLinks := by
  unfold miss
  split <;> rfl

/-! ## News -/

theorem standing?_learnRoute (link : LinkId) (news : PeerAddress) :
    (book.learnRoute link news).standing? tested = book.standing? tested := by
  unfold learnRoute
  split <;> rfl

/-- News of an address do not change the standing of any address that is known. -/
theorem standing?_hear {standing : Standing} (news : PeerAddress)
    (known : book.standing? tested = some standing) :
    (book.hear news).2.standing? tested = some standing := by
  obtain ⟨entry, found, rfl⟩ := Option.map_eq_some_iff.1 known
  unfold hear
  split
  · rw [standing?, find?_change, found]
    by_cases same : tested.endpoint = news.endpoint <;> simp [same, Entry.heard]
  · next absent =>
      have different : news.endpoint ≠ tested.endpoint := by
        intro same
        apply absent
        rw [Table.contains, same]
        exact Option.isSome_iff_exists.2 ⟨entry, found⟩
      show ((book.entries.insert news.endpoint _).get? tested.endpoint).map _ = _
      rw [Table.get?_insert, if_neg different]
      exact known

theorem standing?_ingestOne {standing : Standing} (link : LinkId)
    (known : book.standing? tested = some standing) :
    (book.ingestOne link address).2.standing? tested = some standing := by
  unfold ingestOne
  split
  · exact known
  · next news _ =>
      apply standing?_hear
      rw [standing?_learnRoute]
      exact known

/-- What is heard changes no standing that the book has. -/
theorem standing?_ingest {standing : Standing} (link : LinkId) (addresses : List PeerAddress)
    (known : book.standing? tested = some standing) :
    (book.ingest link addresses).2.standing? tested = some standing := by
  unfold ingest
  generalize addresses.take maxAddressesPerMessage = heard
  induction heard generalizing book with
  | nil => exact known
  | cons address rest hypothesis =>
      exact hypothesis _ (standing?_ingestOne book address tested link known)

theorem connectedLinks_learnRoute (link : LinkId) (news : PeerAddress) :
    (book.learnRoute link news).connectedLinks = book.connectedLinks := by
  unfold learnRoute
  split <;> rfl

theorem connectedLinks_ingestOne (link : LinkId) :
    (book.ingestOne link address).2.connectedLinks = book.connectedLinks := by
  unfold ingestOne hear
  split
  · rfl
  · next news _ =>
      rw [← connectedLinks_learnRoute book link news]
      split <;> rfl

@[simp]
theorem connectedLinks_ingest (link : LinkId) (addresses : List PeerAddress) :
    (book.ingest link addresses).2.connectedLinks = book.connectedLinks := by
  unfold ingest
  generalize addresses.take maxAddressesPerMessage = heard
  induction heard generalizing book with
  | nil => rfl
  | cons address rest hypothesis =>
      exact (hypothesis _).trans (connectedLinks_ingestOne book address link)

/-! ## Proposals -/

/-- What is proposed is the address of an entry that may be proposed. -/
theorem exists_of_pick? {book : AddressBook} {isOpen : LinkId → Bool} {now : Nat}
    {lots : List Nat} {address : PeerAddress}
    (picked : book.pick? isOpen now lots = some address) :
    ∃ entry, book.find? address = some entry ∧ book.isEligible isOpen now entry = true := by
  have member : address ∈ book.eligible isOpen now := mem_of_drawOne? picked
  obtain ⟨entry, chosen, rfl⟩ := List.mem_map.1 member
  obtain ⟨stored, eligible⟩ := List.mem_filter.1 chosen
  exact ⟨entry, find?_of_mem_values stored, eligible⟩

/-- An address is proposed only if the book has it as new or failed. -/
theorem standing?_of_pick? {book : AddressBook} {isOpen : LinkId → Bool} {now : Nat}
    {lots : List Nat} {address : PeerAddress}
    (picked : book.pick? isOpen now lots = some address) :
    book.standing? address = some .new ∨ book.standing? address = some .failed := by
  obtain ⟨entry, found, eligible⟩ := exists_of_pick? picked
  have standingIs : book.standing? address = some entry.standing := by
    rw [standing?, found]
    rfl
  simp only [isEligible, Bool.and_eq_true, Bool.or_eq_true, beq_iff_eq] at eligible
  rw [standingIs]
  exact eligible.1.1.1.1.imp (congrArg some) (congrArg some)

/-! ## Settled addresses -/

/-- Whether the book has an address as connected or banned, so that nothing
proposes it. -/
def Settled (book : AddressBook) (address : PeerAddress) : Prop :=
  book.standing? address = some .connected ∨ book.standing? address = some .banned

theorem settled_congr {before after : AddressBook} {tested : PeerAddress}
    (same : after.standing? tested = before.standing? tested) :
    after.Settled tested ↔ before.Settled tested := by
  unfold Settled
  rw [same]

theorem settled_markConnected (link : LinkId) :
    (book.markConnected link address).Settled address := by
  left
  rw [standing?_markConnected, if_pos rfl]

/-- An address that has failed is settled only if it is banned. -/
theorem not_settled_markUnreachable {address tested : PeerAddress}
    (same : address.endpoint = tested.endpoint)
    (allowed : book.standing? tested ≠ some .banned) :
    ¬ (book.markUnreachable address).Settled tested := by
  unfold Settled
  rw [standing?_markUnreachable, if_pos same]
  cases known : book.standing? tested with
  | none => simp
  | some standing =>
      cases standing with
      | banned => exact absurd known allowed
      | _ => simp [Standing.unreached]

namespace Settled

variable {book : AddressBook} {address tested : PeerAddress}

theorem not_new_nor_failed (settled : book.Settled tested) :
    ¬ (book.standing? tested = some .new ∨ book.standing? tested = some .failed) := by
  rcases settled with connected | banned
  · simp [connected]
  · simp [banned]

theorem markConnecting (settled : book.Settled tested)
    (different : address.endpoint ≠ tested.endpoint) :
    (book.markConnecting address).Settled tested := by
  have same : (book.markConnecting address).standing? tested = book.standing? tested := by
    rw [standing?_markConnecting, if_neg different]
  exact (settled_congr same).2 settled

theorem markConnected (settled : book.Settled tested) (link : LinkId) :
    (book.markConnected link address).Settled tested := by
  unfold Settled
  rw [standing?_markConnected]
  split
  · exact Or.inl rfl
  · exact settled

theorem ban (settled : book.Settled tested) (now : Nat) :
    (book.ban address now).Settled tested := by
  unfold Settled
  rw [standing?_ban]
  split
  · exact Or.inr rfl
  · exact settled

/-- What is settled after an attempt has started was settled before, and it is
another address. -/
theorem of_markConnecting (settled : (book.markConnecting address).Settled tested) :
    address.endpoint ≠ tested.endpoint ∧ book.Settled tested := by
  unfold Settled at settled
  rw [standing?_markConnecting] at settled
  by_cases same : address.endpoint = tested.endpoint
  · simp [same] at settled
  · rw [if_neg same] at settled
    exact ⟨same, settled⟩

/-- What is settled after a failure was settled before. -/
theorem of_markUnreachable (settled : (book.markUnreachable address).Settled tested) :
    book.Settled tested := by
  by_cases banned : book.standing? tested = some .banned
  · exact Or.inr banned
  · by_cases same : address.endpoint = tested.endpoint
    · exact absurd settled (not_settled_markUnreachable book same banned)
    · unfold Settled at settled
      rwa [standing?_markUnreachable, if_neg same] at settled

/-- A failure is harmless to other addresses and to banned ones. -/
theorem markUnreachable (settled : book.Settled tested)
    (harmless : address.endpoint = tested.endpoint → book.standing? tested = some .banned) :
    (book.markUnreachable address).Settled tested := by
  unfold Settled
  rw [standing?_markUnreachable]
  split
  · next same =>
      rw [harmless same]
      exact Or.inr rfl
  · exact settled

theorem giveUp (settled : book.Settled tested) : (book.giveUp address).Settled tested := by
  unfold AddressBook.giveUp
  split
  · next connecting =>
      apply settled.markUnreachable
      intro same
      rw [isConnecting_iff, standing?_congr book same] at connecting
      rcases settled with connected | banned
      · simp [connected] at connecting
      · exact banned
  · exact settled

theorem miss (settled : book.Settled tested) : (book.miss address).Settled tested := by
  unfold AddressBook.miss
  split
  · exact settled
  · next missing =>
      apply settled.markUnreachable
      intro same
      rw [isConnected_iff, standing?_congr book same] at missing
      rcases settled with connected | banned
      · exact absurd connected missing
      · exact banned

/-- The end of a link is harmless to addresses that are connected through
another one. -/
theorem markDisconnected (settled : book.Settled tested) {link : LinkId}
    (other : book.connectedLinks.get? link ≠ some tested.endpoint) :
    (book.markDisconnected link).Settled tested := by
  have same : (book.markDisconnected link).standing? tested = book.standing? tested := by
    rw [standing?_markDisconnected, if_neg other]
  exact (settled_congr same).2 settled

theorem ingest (settled : book.Settled tested) (link : LinkId)
    (addresses : List PeerAddress) : (book.ingest link addresses).2.Settled tested := by
  rcases settled with connected | banned
  · exact Or.inl (standing?_ingest book tested link addresses connected)
  · exact Or.inr (standing?_ingest book tested link addresses banned)

end Settled

end PeerOverlay.AddressBook
