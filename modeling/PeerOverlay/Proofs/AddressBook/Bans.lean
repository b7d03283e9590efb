import PeerOverlay.Proofs.AddressBook.Standing

/-!
# Bans in the address book

A ban is a moment up to which an address is banned.  It is set by a ban and lost
when the address is dialed or connected.  No other operation changes it: a
failure, the end of a link and news leave every ban as it is.
-/

namespace PeerOverlay.AddressBook

/-- The moment up to which an entry is banned, if it is. -/
def Entry.ban? (entry : Entry) : Option Nat :=
  if entry.standing = .banned then entry.bannedUntil else none

/-- The moment up to which the book has an address as banned, if it has. -/
def bannedUntil? (book : AddressBook) (address : PeerAddress) : Option Nat :=
  (book.find? address).bind Entry.ban?

/-! ## Transitions -/

namespace Entry

/-- Whether a transition leaves every ban as it is. -/
def KeepsBan (step : Entry → Entry) : Prop :=
  ∀ entry, (step entry).ban? = entry.ban?

theorem ban?_of_not_banned {entry : Entry} (free : entry.standing ≠ .banned) :
    entry.ban? = none :=
  if_neg free

theorem isBanned_eq (entry : Entry) (now : Nat) :
    entry.isBanned now = entry.ban?.any fun moment => decide (now < moment) := by
  unfold isBanned ban?
  cases entry.standing <;> cases entry.bannedUntil <;> rfl

theorem keepsBan_unreached : KeepsBan unreached := by
  intro entry
  by_cases banned : entry.standing = .banned
  · rw [unreached, if_pos banned]
  · rw [unreached, if_neg banned, ban?_of_not_banned banned]
    rfl

theorem keepsBan_disconnected : KeepsBan disconnected := by
  intro entry
  unfold ban?
  rw [disconnected_standing]
  cases entry.standing <;> rfl

theorem keepsBan_heard (news : PeerAddress) : KeepsBan fun entry => entry.heard news :=
  fun _ => rfl

end Entry

/-! ## Operations -/

variable (book : AddressBook) (address tested : PeerAddress)

theorem isBanned_iff (now : Nat) :
    book.isBanned tested now = true ↔
      ∃ moment, book.bannedUntil? tested = some moment ∧ now < moment := by
  unfold isBanned bannedUntil?
  cases book.find? tested with
  | none => simp
  | some entry => simp [entry.isBanned_eq, Option.any_eq_true]

theorem bannedUntil?_congr {address tested : PeerAddress}
    (same : address.endpoint = tested.endpoint) :
    book.bannedUntil? address = book.bannedUntil? tested := by
  unfold bannedUntil? find?
  rw [same]

/-- An address that may be proposed to connect to is not banned. -/
theorem bannedUntil?_of_free
    (free : book.standing? tested = some .new ∨ book.standing? tested = some .failed) :
    book.bannedUntil? tested = none := by
  unfold bannedUntil?
  cases known : book.find? tested with
  | none => rfl
  | some entry =>
      apply Entry.ban?_of_not_banned
      intro banned
      rw [standing?, known] at free
      simp [banned] at free

theorem bannedUntil?_change {step : Entry → Entry} (keeps : Entry.KeepsEndpoint step)
    (keepsBan : Entry.KeepsBan step) :
    (book.change address step keeps).bannedUntil? tested = book.bannedUntil? tested := by
  unfold bannedUntil?
  rw [find?_change]
  cases book.find? tested with
  | none => rfl
  | some entry =>
      show (if tested.endpoint = address.endpoint then step entry else entry).ban? = entry.ban?
      split
      · exact keepsBan entry
      · rfl

theorem bannedUntil?_changeOrAdd {step : Entry → Entry} (keeps : Entry.KeepsEndpoint step) :
    (book.changeOrAdd address step keeps).bannedUntil? tested =
      if address.endpoint = tested.endpoint then (step (book.entryOf address)).ban?
      else book.bannedUntil? tested := by
  unfold bannedUntil?
  rw [find?_changeOrAdd]
  split <;> rfl

@[simp]
theorem bannedUntil?_ban (now : Nat) :
    (book.ban address now).bannedUntil? tested =
      if address.endpoint = tested.endpoint then some (now + banDuration)
      else book.bannedUntil? tested :=
  bannedUntil?_changeOrAdd book address tested (Entry.keepsEndpoint_bannedTo (now + banDuration))

@[simp]
theorem bannedUntil?_markConnecting :
    (book.markConnecting address).bannedUntil? tested =
      if address.endpoint = tested.endpoint then none else book.bannedUntil? tested :=
  bannedUntil?_changeOrAdd book address tested Entry.keepsEndpoint_dialed

@[simp]
theorem bannedUntil?_markConnected (link : LinkId) :
    (book.markConnected link address).bannedUntil? tested =
      if address.endpoint = tested.endpoint then none else book.bannedUntil? tested :=
  bannedUntil?_changeOrAdd book address tested (Entry.keepsEndpoint_connected link address)

@[simp]
theorem bannedUntil?_markUnreachable :
    (book.markUnreachable address).bannedUntil? tested = book.bannedUntil? tested :=
  bannedUntil?_change book address tested Entry.keepsEndpoint_unreached Entry.keepsBan_unreached

@[simp]
theorem bannedUntil?_giveUp :
    (book.giveUp address).bannedUntil? tested = book.bannedUntil? tested := by
  unfold giveUp
  split
  · exact bannedUntil?_markUnreachable book address tested
  · rfl

@[simp]
theorem bannedUntil?_miss :
    (book.miss address).bannedUntil? tested = book.bannedUntil? tested := by
  unfold miss
  split
  · rfl
  · exact bannedUntil?_markUnreachable book address tested

@[simp]
theorem bannedUntil?_markDisconnected (link : LinkId) :
    (book.markDisconnected link).bannedUntil? tested = book.bannedUntil? tested := by
  unfold markDisconnected
  cases book.connectedLinks.get? link with
  | none => rfl
  | some endpoint =>
      show ((book.entries.modify endpoint Entry.disconnected).get? tested.endpoint).bind
        Entry.ban? = (book.entries.get? tested.endpoint).bind Entry.ban?
      rw [Table.get?_modify]
      cases book.entries.get? tested.endpoint with
      | none => rfl
      | some entry =>
          show (if tested.endpoint = endpoint then entry.disconnected else entry).ban? = entry.ban?
          split
          · exact Entry.keepsBan_disconnected entry
          · rfl

/-! ## News -/

theorem bannedUntil?_learnRoute (link : LinkId) (news : PeerAddress) :
    (book.learnRoute link news).bannedUntil? tested = book.bannedUntil? tested := by
  unfold learnRoute
  split <;> rfl

theorem bannedUntil?_hear (news : PeerAddress) :
    (book.hear news).2.bannedUntil? tested = book.bannedUntil? tested := by
  unfold hear
  split
  · exact bannedUntil?_change book news tested (Entry.keepsEndpoint_heard news)
        (Entry.keepsBan_heard news)
  · next absent =>
      show ((book.entries.insert news.endpoint (.ofAddress news)).get? tested.endpoint).bind
        Entry.ban? = (book.entries.get? tested.endpoint).bind Entry.ban?
      rw [Table.get?_insert]
      split
      · next same =>
          -- An address that was not known was not banned, and neither is a new entry.
          have unknown : book.entries.get? tested.endpoint = none := by
            rw [← same]
            simpa [Table.contains] using absent
          rw [unknown]
          rfl
      · rfl

theorem bannedUntil?_ingestOne (link : LinkId) :
    (book.ingestOne link address).2.bannedUntil? tested = book.bannedUntil? tested := by
  unfold ingestOne
  split
  · rfl
  · next news _ =>
      exact (bannedUntil?_hear (book.learnRoute link news) tested news).trans
        (bannedUntil?_learnRoute book tested link news)

@[simp]
theorem bannedUntil?_ingest (link : LinkId) (addresses : List PeerAddress) :
    (book.ingest link addresses).2.bannedUntil? tested = book.bannedUntil? tested := by
  unfold ingest
  generalize addresses.take maxAddressesPerMessage = heard
  induction heard generalizing book with
  | nil => rfl
  | cons address rest hypothesis =>
      exact (hypothesis _).trans (bannedUntil?_ingestOne book address tested link)

end PeerOverlay.AddressBook
