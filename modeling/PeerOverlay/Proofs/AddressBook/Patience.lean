import PeerOverlay.Proofs.AddressBook.Links
import PeerOverlay.Proofs.Table.Total

/-!
# Failures to come

An address that has failed too often is not proposed any more.  So the addresses that may be
proposed can have so many failures in all and no more, and each attempt at one of them that fails
at once takes away one.
-/

namespace PeerOverlay.AddressBook

/-- The failures that an address may still have before it is not proposed any more. -/
def Entry.patience (entry : Entry) : Nat :=
  maxFailures - entry.failures

/-- The failures that the addresses which may be proposed may still have in all. -/
def patience (book : AddressBook) (isOpen : LinkId → Bool) (now : Nat) : Nat :=
  ((book.entries.values.filter (book.isEligible isOpen now)).map Entry.patience).foldr (· + ·) 0

variable {book changed : AddressBook} {isOpen : LinkId → Bool} {now : Nat}

/-- What an entry adds to the failures to come. -/
def share (book : AddressBook) (isOpen : LinkId → Bool) (now : Nat) (entry : Entry) : Nat :=
  if book.isEligible isOpen now entry then entry.patience else 0

theorem patience_eq_total (book : AddressBook) (isOpen : LinkId → Bool) (now : Nat) :
    book.patience isOpen now = book.entries.total fun _ => book.share isOpen now := by
  unfold patience share Table.values Table.total
  induction book.entries.rows with
  | nil => rfl
  | cons row rest hypothesis =>
      rw [List.map_cons, List.filter_cons, Table.addRows_cons, ← hypothesis]
      split
      · rw [List.map_cons, List.foldr_cons]
      · rw [Nat.zero_add]

/-! ## Addresses that may be proposed -/

theorem isEligible_congr (own : changed.localEndpoint = book.localEndpoint)
    (routes : changed.routes = book.routes) :
    changed.isEligible isOpen now = book.isEligible isOpen now := by
  funext entry
  unfold isEligible isLocal isDialable hasRoute openRoute?
  rw [own, routes]

/-- A route is open later only if it was open before, unless its link is reopened. -/
theorem hasRoute_of_fewer {later : LinkId → Bool} {signalId : SignalId}
    (fewer : ∀ link, book.leadsThrough link = true → later link = true → isOpen link = true)
    (has : book.hasRoute later signalId = true) : book.hasRoute isOpen signalId = true := by
  unfold hasRoute openRoute? at has ⊢
  rw [Option.isSome_map, List.find?_isSome] at has ⊢
  obtain ⟨route, member, opened⟩ := has
  refine ⟨route, member, fewer route.link ?_ opened⟩
  rw [leadsThrough_iff]
  cases stored : book.routes.get? signalId with
  | none =>
      rw [stored] at member
      cases member
  | some routes =>
      rw [stored] at member
      exact ⟨signalId, routes, stored, route, member, rfl⟩

/-- Whether an address may be proposed depends on the time no more than on a link that was closed
before. -/
theorem isEligible_of_fewer {later : LinkId → Bool} {moment : Nat} {entry : Entry}
    (fewer : ∀ link, book.leadsThrough link = true → later link = true → isOpen link = true)
    (eligible : book.isEligible later moment entry = true) :
    book.isEligible isOpen now entry = true := by
  unfold isEligible at eligible ⊢
  simp only [Bool.and_eq_true] at eligible ⊢
  obtain ⟨⟨⟨⟨standing, bearable⟩, _⟩, foreign⟩, dialable⟩ := eligible
  refine ⟨⟨⟨⟨standing, bearable⟩, ?_⟩, foreign⟩, ?_⟩
  · -- Only a banned address is banned at any time.
    unfold Entry.isBanned
    cases isStanding : entry.standing <;> simp [isStanding] at standing ⊢
  · unfold isDialable at dialable ⊢
    split at dialable
    · rfl
    · exact hasRoute_of_fewer fewer dialable
    · cases dialable

/-! ## An attempt that fails at once -/

/-- The book after an attempt to connect to an address that is not started. -/
def refuse (book : AddressBook) (address : PeerAddress) : AddressBook :=
  (book.markConnecting address).markUnreachable address

theorem isEligible_refuse (address : PeerAddress) :
    (book.refuse address).isEligible isOpen now = book.isEligible isOpen now :=
  isEligible_congr rfl rfl

theorem share_le_patience (entry : Entry) :
    book.share isOpen now entry ≤ entry.patience := by
  unfold share
  split
  · exact Nat.le_refl _
  · exact Nat.zero_le _

/-- An address that is being dialed is not proposed. -/
theorem share_dialed (entry : Entry) : book.share isOpen now entry.dialed = 0 :=
  if_neg (by simp [isEligible, Entry.dialed])

/-- An attempt that fails at once leaves fewer failures to come. -/
theorem patience_refuse {address : PeerAddress} {entry : Entry}
    (found : book.find? address = some entry)
    (eligible : book.isEligible isOpen now entry = true) :
    (book.refuse address).patience isOpen now < book.patience isOpen now := by
  have own : book.entryOf address = entry := by
    rw [entryOf, found]
    rfl
  have bearable : entry.failures < maxFailures := by
    unfold isEligible Entry.isTerrible at eligible
    simp only [Bool.and_eq_true, Bool.not_eq_true', decide_eq_false_iff_not] at eligible
    exact Nat.lt_of_not_le eligible.1.1.1.2
  have entries : (book.refuse address).entries =
      (book.entries.insert address.endpoint entry.dialed).modify address.endpoint
        Entry.unreached := by
    rw [← own]
    rfl
  have shares : (book.refuse address).share isOpen now = book.share isOpen now := by
    unfold share
    rw [isEligible_refuse]
  have before : book.share isOpen now entry = maxFailures - entry.failures := if_pos eligible
  have between : book.share isOpen now entry.dialed = 0 := share_dialed entry
  have after : book.share isOpen now entry.dialed.unreached ≤
      maxFailures - (entry.failures + 1) :=
    share_le_patience entry.dialed.unreached
  have inserted := Table.total_insert book.entries (fun _ => book.share isOpen now)
    address.endpoint entry.dialed
  have modified := Table.total_modify (book.entries.insert address.endpoint entry.dialed)
    (fun _ => book.share isOpen now) address.endpoint Entry.unreached
  unfold find? at found
  simp only [found, Table.get?_insert, if_true, Option.map_some, Table.portion_some]
    at inserted modified
  rw [patience_eq_total, patience_eq_total, entries, shares]
  omega

end PeerOverlay.AddressBook
