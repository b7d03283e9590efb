import PeerOverlay.Proofs.AddressBook.Entries

/-!
# Connected addresses and their links

The book has an address as connected through a link only after it was told so.
Every other operation leaves the connected addresses as they are, or takes some
of them away.
-/

namespace PeerOverlay.AddressBook

/-- Whether the book has an address as connected, and stores the given link with
it. -/
def ConnectedThrough (book : AddressBook) (address : PeerAddress) (link : Option LinkId) :
    Prop :=
  ∃ entry, book.find? address = some entry ∧ entry.standing = .connected ∧ entry.link = link

/-! ## Transitions that connect nothing -/

namespace Entry

/-- Whether an entry is connected after a transition only if it was connected
before, through the same link. -/
def ConnectsNothing (step : Entry → Entry) : Prop :=
  ∀ entry, (step entry).standing = .connected →
    entry.standing = .connected ∧ (step entry).link = entry.link

theorem connectsNothing_dialed : ConnectsNothing dialed := by
  intro entry connected
  simp [dialed] at connected

theorem connectsNothing_bannedTo (moment : Nat) :
    ConnectsNothing fun entry => entry.bannedTo moment := by
  intro entry connected
  simp [bannedTo] at connected

theorem connectsNothing_unreached : ConnectsNothing unreached := by
  intro entry connected
  rw [entry.unreached_standing] at connected
  cases standing : entry.standing <;> simp [standing, Standing.unreached] at connected

theorem connectsNothing_heard (news : PeerAddress) :
    ConnectsNothing fun entry => entry.heard news :=
  fun _ connected => ⟨connected, rfl⟩

theorem disconnected_standing_ne (entry : Entry) : entry.disconnected.standing ≠ .connected := by
  rw [entry.disconnected_standing]
  cases entry.standing <;> simp [Standing.disconnected]

theorem ConnectsNothing.reflects {step : Entry → Entry} (nothing : ConnectsNothing step)
    (link : Option LinkId) :
    Reflects (fun entry => entry.standing = .connected ∧ entry.link = link) step := by
  rintro entry ⟨standing, through⟩
  obtain ⟨before, kept⟩ := nothing entry standing
  exact ⟨before, kept.symm.trans through⟩

theorem not_connected_ofAddress (link : Option LinkId) (address : PeerAddress) :
    ¬ ((ofAddress address).standing = .connected ∧ (ofAddress address).link = link) := by
  rintro ⟨new, _⟩
  cases new

end Entry

namespace ConnectedThrough

variable {book : AddressBook} {address tested : PeerAddress} {link : Option LinkId}

theorem standing? (connected : book.ConnectedThrough tested link) :
    book.standing? tested = some .connected := by
  obtain ⟨entry, found, standing, _⟩ := connected
  rw [AddressBook.standing?, found, Option.map_some, standing]

theorem of_entries {before after : AddressBook} (entries : after.entries = before.entries)
    (connected : after.ConnectedThrough tested link) : before.ConnectedThrough tested link :=
  Has.of_entries entries connected

theorem of_change {step : Entry → Entry} (keeps : Entry.KeepsEndpoint step)
    (nothing : Entry.ConnectsNothing step)
    (connected : (book.change address step keeps).ConnectedThrough tested link) :
    book.ConnectedThrough tested link :=
  Has.of_change keeps (nothing.reflects link) connected

theorem of_changeOrAdd {step : Entry → Entry} (keeps : Entry.KeepsEndpoint step)
    (nothing : Entry.ConnectsNothing step)
    (connected : (book.changeOrAdd address step keeps).ConnectedThrough tested link) :
    book.ConnectedThrough tested link :=
  Has.of_changeOrAdd keeps (nothing.reflects link) (Entry.not_connected_ofAddress link) connected

theorem of_markConnecting (connected : (book.markConnecting address).ConnectedThrough tested link) :
    book.ConnectedThrough tested link :=
  of_changeOrAdd Entry.keepsEndpoint_dialed Entry.connectsNothing_dialed connected

theorem of_ban {now : Nat} (connected : (book.ban address now).ConnectedThrough tested link) :
    book.ConnectedThrough tested link :=
  of_changeOrAdd (Entry.keepsEndpoint_bannedTo _) (Entry.connectsNothing_bannedTo _) connected

theorem of_markUnreachable
    (connected : (book.markUnreachable address).ConnectedThrough tested link) :
    book.ConnectedThrough tested link :=
  of_change Entry.keepsEndpoint_unreached Entry.connectsNothing_unreached connected

/-- What is connected after a new connection is the address of that connection,
or it was connected before. -/
theorem of_markConnected {new : LinkId}
    (connected : (book.markConnected new address).ConnectedThrough tested link) :
    (address.endpoint = tested.endpoint ∧ link = some new) ∨
      book.ConnectedThrough tested link := by
  rcases Has.of_markConnected connected with ⟨same, _, through⟩ | earlier
  · exact .inl ⟨same, through.symm⟩
  · exact .inr earlier

theorem of_giveUp (connected : (book.giveUp address).ConnectedThrough tested link) :
    book.ConnectedThrough tested link := by
  rw [giveUp] at connected
  split at connected
  · exact of_markUnreachable connected
  · exact connected

theorem of_miss (connected : (book.miss address).ConnectedThrough tested link) :
    book.ConnectedThrough tested link := by
  rw [miss] at connected
  split at connected
  · exact connected
  · exact of_markUnreachable connected

/-- What is connected after a link is gone was connected before, and it is not
the address at the other end of that link. -/
theorem of_markDisconnected {gone : LinkId}
    (connected : (book.markDisconnected gone).ConnectedThrough tested link) :
    book.connectedLinks.get? gone ≠ some tested.endpoint ∧ book.ConnectedThrough tested link := by
  rcases Has.of_markDisconnected connected with ⟨_, entry, _, standing, _⟩ | earlier
  · exact absurd standing entry.disconnected_standing_ne
  · exact earlier

/-- Addresses that are heard connect nothing. -/
theorem of_ingest {source : LinkId} {addresses : List PeerAddress}
    (connected : (book.ingest source addresses).2.ConnectedThrough tested link) :
    book.ConnectedThrough tested link :=
  Has.of_ingest (fun news => (Entry.connectsNothing_heard news).reflects link)
    (Entry.not_connected_ofAddress link) connected

end ConnectedThrough

end PeerOverlay.AddressBook
