import PeerOverlay.Proofs.AddressBook.Standing

/-!
# Entries of a kind

For every operation of an address book it is said when an entry that is of some kind
afterwards was of that kind before: if the transition that the operation makes brings no
entry to that kind, and no new entry is of it.
-/

namespace PeerOverlay.AddressBook

/-- Whether the book has an entry of some kind for an address. -/
def Has (book : AddressBook) (address : PeerAddress) (kind : Entry → Prop) : Prop :=
  ∃ entry, book.find? address = some entry ∧ kind entry

theorem mem_values_of_find? {book : AddressBook} {address : PeerAddress} {entry : Entry}
    (found : book.find? address = some entry) : entry ∈ book.entries.values :=
  List.mem_map.2 ⟨(address.endpoint, entry), (Table.mem_rows_iff _ _ _).2 found, rfl⟩

/-- Whether a transition brings no entry to a kind. -/
def Entry.Reflects (kind : Entry → Prop) (step : Entry → Entry) : Prop :=
  ∀ entry, kind (step entry) → kind entry

/-- The end of a link clears the entry of the endpoint that is stored for it. -/
theorem find?_markDisconnected (book : AddressBook) (link : LinkId) (tested : PeerAddress) :
    (book.markDisconnected link).find? tested =
      (book.find? tested).map fun entry =>
        if book.connectedLinks.get? link = some tested.endpoint then entry.disconnected
        else entry := by
  unfold markDisconnected
  cases connected : book.connectedLinks.get? link with
  | none => exact Option.map_id'.symm
  | some endpoint =>
      simp only [Option.some.injEq, eq_comm (a := endpoint)]
      exact Table.get?_modify book.entries endpoint Entry.disconnected tested.endpoint

namespace Has

variable {book before after : AddressBook} {address tested : PeerAddress} {kind : Entry → Prop}

theorem of_entries (entries : after.entries = before.entries) (has : after.Has tested kind) :
    before.Has tested kind := by
  obtain ⟨entry, found, isKind⟩ := has
  exact ⟨entry, by rwa [find?, ← entries], isKind⟩

theorem of_change {step : Entry → Entry} (keeps : Entry.KeepsEndpoint step)
    (reflects : Entry.Reflects kind step) (has : (book.change address step keeps).Has tested kind) :
    book.Has tested kind := by
  obtain ⟨entry, found, isKind⟩ := has
  rw [find?_change] at found
  obtain ⟨earlier, known, rfl⟩ := Option.map_eq_some_iff.1 found
  split at isKind
  · exact ⟨earlier, known, reflects earlier isKind⟩
  · exact ⟨earlier, known, isKind⟩

theorem of_changeOrAdd {step : Entry → Entry} (keeps : Entry.KeepsEndpoint step)
    (reflects : Entry.Reflects kind step) (new : ∀ address, ¬ kind (.ofAddress address))
    (has : (book.changeOrAdd address step keeps).Has tested kind) : book.Has tested kind := by
  obtain ⟨entry, found, isKind⟩ := has
  rw [find?_changeOrAdd] at found
  split at found
  · next same =>
      rw [← Option.some.inj found] at isKind
      have was := reflects _ isKind
      unfold entryOf at was
      cases known : book.find? address with
      | none =>
          rw [known] at was
          exact absurd was (new address)
      | some earlier =>
          rw [known] at was
          refine ⟨earlier, ?_, was⟩
          rwa [find?, ← same]
  · exact ⟨entry, found, isKind⟩

theorem of_markUnreachable (reflects : Entry.Reflects kind Entry.unreached)
    (has : (book.markUnreachable address).Has tested kind) : book.Has tested kind :=
  of_change Entry.keepsEndpoint_unreached reflects has

/-- An entry that is of a kind after a new connection is the one of that connection, or it
was of that kind before. -/
theorem of_markConnected {link : LinkId} (has : (book.markConnected link address).Has tested kind) :
    (address.endpoint = tested.endpoint ∧
        kind ((book.entryOf address).connected link address)) ∨
      book.Has tested kind := by
  obtain ⟨entry, found, isKind⟩ := has
  have changed := (book.find?_changeOrAdd address
    (Entry.keepsEndpoint_connected link address) tested).symm.trans found
  split at changed
  · next same => exact .inl ⟨same, Option.some.inj changed ▸ isKind⟩
  · exact .inr ⟨entry, changed, isKind⟩

/-- An entry that is of a kind after the end of a link was of that kind before, or it was
brought to it by the end of its connection. -/
theorem of_markDisconnected {link : LinkId} (has : (book.markDisconnected link).Has tested kind) :
    (book.connectedLinks.get? link = some tested.endpoint ∧
        book.Has tested fun entry => kind entry.disconnected) ∨
      (book.connectedLinks.get? link ≠ some tested.endpoint ∧ book.Has tested kind) := by
  obtain ⟨entry, found, isKind⟩ := has
  rw [find?_markDisconnected] at found
  obtain ⟨earlier, known, rfl⟩ := Option.map_eq_some_iff.1 found
  split at isKind
  · next own => exact .inl ⟨own, earlier, known, isKind⟩
  · next other => exact .inr ⟨other, earlier, known, isKind⟩

/-! ## News -/

theorem of_hear {news : PeerAddress} (reflects : Entry.Reflects kind fun entry => entry.heard news)
    (new : ∀ address, ¬ kind (.ofAddress address)) (has : (book.hear news).2.Has tested kind) :
    book.Has tested kind := by
  unfold hear at has
  split at has
  · exact of_change (Entry.keepsEndpoint_heard news) reflects has
  · obtain ⟨entry, found, isKind⟩ := has
    have inserted := (Table.get?_insert book.entries news.endpoint (.ofAddress news)
      tested.endpoint).symm.trans found
    split at inserted
    · exact absurd (Option.some.inj inserted ▸ isKind) (new news)
    · exact ⟨entry, inserted, isKind⟩

/-- Addresses that are heard bring no entry to a kind that has nothing to do with news. -/
theorem of_ingest {link : LinkId} {addresses : List PeerAddress}
    (reflects : ∀ news, Entry.Reflects kind fun entry => entry.heard news)
    (new : ∀ address, ¬ kind (.ofAddress address))
    (has : (book.ingest link addresses).2.Has tested kind) : book.Has tested kind := by
  unfold ingest at has
  generalize addresses.take maxAddressesPerMessage = heard at has
  induction heard generalizing book with
  | nil => exact has
  | cons address rest hypothesis =>
      have before := hypothesis has
      split at before
      · exact before
      · next news _ =>
          refine of_entries ?_ (of_hear (reflects news) new before)
          unfold learnRoute
          split <;> rfl

end Has

end PeerOverlay.AddressBook
