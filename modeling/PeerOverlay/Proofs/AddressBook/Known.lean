import PeerOverlay.Proofs.AddressBook.Entries

/-!
# What a book knows

No operation of an address book forgets an address.  Of the addresses that are heard, those are
new that the book did not know, and a new address is known afterwards, so that it is new only
once.
-/

namespace PeerOverlay.AddressBook

def Knows (book : AddressBook) (address : PeerAddress) : Prop :=
  (book.find? address).isSome

variable {book before after : AddressBook} {address tested : PeerAddress}

theorem knows_congr (same : address.endpoint = tested.endpoint) :
    book.Knows address ↔ book.Knows tested := by
  unfold Knows find?
  rw [same]

theorem knows_of_entries (entries : after.entries = before.entries) :
    after.Knows tested ↔ before.Knows tested := by
  unfold Knows find?
  rw [entries]

/-! ## Entries that are changed or added -/

theorem knows_change {step : Entry → Entry} (keeps : Entry.KeepsEndpoint step) :
    (book.change address step keeps).Knows tested ↔ book.Knows tested := by
  unfold Knows
  rw [find?_change, Option.isSome_map]

theorem knows_changeOrAdd {step : Entry → Entry} (keeps : Entry.KeepsEndpoint step) :
    (book.changeOrAdd address step keeps).Knows tested ↔
      address.endpoint = tested.endpoint ∨ book.Knows tested := by
  unfold Knows
  rw [find?_changeOrAdd]
  split
  · next same => simp [same]
  · next other => simp [other]

namespace Knows

theorem markConnecting (knows : book.Knows tested) (address : PeerAddress) :
    (book.markConnecting address).Knows tested :=
  (knows_changeOrAdd Entry.keepsEndpoint_dialed).2 (.inr knows)

theorem markConnected (knows : book.Knows tested) (link : LinkId) (address : PeerAddress) :
    (book.markConnected link address).Knows tested :=
  (knows_changeOrAdd (Entry.keepsEndpoint_connected link address)).2 (.inr knows)

theorem markUnreachable (knows : book.Knows tested) (address : PeerAddress) :
    (book.markUnreachable address).Knows tested :=
  (knows_change Entry.keepsEndpoint_unreached).2 knows

theorem ban (knows : book.Knows tested) (address : PeerAddress) (now : Nat) :
    (book.ban address now).Knows tested :=
  (knows_changeOrAdd (Entry.keepsEndpoint_bannedTo (now + banDuration))).2 (.inr knows)

theorem markDisconnected (knows : book.Knows tested) (link : LinkId) :
    (book.markDisconnected link).Knows tested := by
  unfold Knows
  rwa [find?_markDisconnected, Option.isSome_map]

theorem markUnroutable (knows : book.Knows tested) (link : LinkId) (signalId : SignalId) :
    (book.markUnroutable link signalId).Knows tested := by
  refine (knows_of_entries ?_).2 knows
  unfold AddressBook.markUnroutable
  split <;> rfl

end Knows

/-! ## Addresses that are heard -/

theorem hear_eq_none_iff {news : PeerAddress} : (book.hear news).1 = none ↔ book.Knows news := by
  unfold hear
  split
  · next known => exact iff_of_true rfl known
  · next unknown => exact iff_of_false (Option.some_ne_none news) unknown

theorem knows_hear {news : PeerAddress} :
    (book.hear news).2.Knows tested ↔ book.Knows tested ∨ news.endpoint = tested.endpoint := by
  unfold hear
  split
  · next known =>
      rw [knows_change, or_iff_left_of_imp]
      intro same
      exact (knows_congr same).1 known
  · unfold Knows find?
    rw [Table.get?_insert]
    split
    · next same => simp [same]
    · next other => simp [other]

/-- Of an address that is heard, the book tells at most the address as it was heard. -/
theorem fst_hear {news told : PeerAddress} (tells : (book.hear news).1 = some told) :
    told = news := by
  unfold hear at tells
  split at tells
  · exact absurd tells (Option.some_ne_none told).symm
  · exact (Option.some.inj tells).symm

theorem knows_learnRoute (link : LinkId) (news : PeerAddress) :
    (book.learnRoute link news).Knows tested ↔ book.Knows tested := by
  apply knows_of_entries
  unfold learnRoute
  split <;> rfl

variable {link : LinkId} {news : PeerAddress}

theorem new_of_ingestOne (added : (book.ingestOne link address).1 = some news) :
    ¬ book.Knows news := by
  unfold ingestOne at added
  split at added
  · exact absurd added (Option.some_ne_none news).symm
  · next heard _ =>
      intro known
      rw [fst_hear added] at known
      have silent := hear_eq_none_iff.2 ((knows_learnRoute link heard).2 known)
      exact Option.some_ne_none news (added.symm.trans silent)

/-- Afterwards the book knows what it knew before, and the address that is new. -/
theorem knows_ingestOne :
    (book.ingestOne link address).2.Knows tested ↔
      book.Knows tested ∨
        tested.endpoint ∈ (book.ingestOne link address).1.toList.map PeerAddress.endpoint := by
  unfold ingestOne
  split
  · simp
  · next heard _ =>
      rw [knows_hear, knows_learnRoute]
      cases tells : ((book.learnRoute link heard).hear heard).1 with
      | none =>
          have known := (knows_learnRoute link heard).1 (hear_eq_none_iff.1 tells)
          simp only [Option.toList_none, List.map_nil, List.not_mem_nil, or_false]
          refine or_iff_left_of_imp fun same => (knows_congr same).1 known
      | some told => simp [fst_hear tells, eq_comm]

section Addresses

variable {addresses : List PeerAddress}

theorem knows_ingestAll :
    (ingestAll link addresses book).2.Knows tested ↔
      book.Knows tested ∨
        tested.endpoint ∈ (ingestAll link addresses book).1.map PeerAddress.endpoint := by
  induction addresses generalizing book with
  | nil => simp [ingestAll]
  | cons address rest hypothesis =>
      simp only [ingestAll]
      rw [hypothesis, knows_ingestOne, List.map_append, List.mem_append, or_assoc]

theorem new_of_mem_ingestAll (added : news ∈ (ingestAll link addresses book).1) :
    ¬ book.Knows news := by
  induction addresses generalizing book with
  | nil => exact absurd added List.not_mem_nil
  | cons address rest hypothesis =>
      rcases List.mem_append.1 added with first | later
      · exact new_of_ingestOne (Option.mem_toList.1 first)
      · exact fun known => hypothesis later (knows_ingestOne.2 (.inl known))

theorem nodup_ingestAll :
    ((ingestAll link addresses book).1.map PeerAddress.endpoint).Nodup := by
  induction addresses generalizing book with
  | nil => exact List.nodup_nil
  | cons address rest hypothesis =>
      simp only [ingestAll, List.map_append]
      refine List.nodup_append.2 ⟨?_, hypothesis, ?_⟩
      · cases (book.ingestOne link address).1 <;> simp
      · -- What is new after the first address is told of by one of the rest only.
        rintro endpoint first _ later rfl
        obtain ⟨news, added, rfl⟩ := List.mem_map.1 later
        exact new_of_mem_ingestAll added (knows_ingestOne.2 (.inr first))

theorem length_ingestAll_le :
    (ingestAll link addresses book).1.length ≤ addresses.length := by
  induction addresses generalizing book with
  | nil => exact Nat.le_refl 0
  | cons address rest hypothesis =>
      have one : (book.ingestOne link address).1.toList.length ≤ 1 := by
        cases (book.ingestOne link address).1 <;> simp
      simp only [ingestAll, List.length_append, List.length_cons]
      rw [Nat.add_comm rest.length]
      exact Nat.add_le_add one hypothesis

theorem Knows.ingest (knows : book.Knows tested) (link : LinkId) (addresses : List PeerAddress) :
    (book.ingest link addresses).2.Knows tested :=
  knows_ingestAll.2 (.inl knows)

end Addresses

end PeerOverlay.AddressBook
