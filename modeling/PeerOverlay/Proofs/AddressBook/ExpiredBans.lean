import PeerOverlay.Proofs.AddressBook.Bans
import PeerOverlay.Proofs.AddressBook.Operations

/-!
# Bans that have expired

A ban is not reported any more once it has expired.  But the address keeps the standing of a banned
one: it is not proposed to connect to, and failures to connect to it do not count.  What ends
that is a visit, that is, the address is dialed or connected after its last ban.
-/

namespace PeerOverlay.AddressBook

variable {book : AddressBook} {address : PeerAddress} {now : Nat}

/-! ## Bans and visits in a history -/

/-- When an operation bans an address, if it does. -/
def Operation.bansAt? (address : PeerAddress) : Operation → Option Nat
  | ban banned now => if banned.endpoint = address.endpoint then some now else none
  | _ => none

/-- Whether an operation dials or connects an address. -/
def Operation.visits (address : PeerAddress) : Operation → Bool
  | markConnecting other => other.endpoint = address.endpoint
  | markConnected _ other => other.endpoint = address.endpoint
  | _ => false

/-- When an address was banned last in a history, if it was. -/
def lastBan? (address : PeerAddress) (operations : List Operation) : Option Nat :=
  (operations.filterMap (Operation.bansAt? address)).getLast?

/-- Whether an address was visited in a history and not banned again since. -/
def VisitedSinceBan (address : PeerAddress) (operations : List Operation) : Prop :=
  ∃ earlier visit later, operations = earlier ++ visit :: later ∧
    visit.visits address = true ∧ lastBan? address later = none

theorem lastBan?_concat (address : PeerAddress) (earlier : List Operation)
    (operation : Operation) :
    lastBan? address (earlier ++ [operation]) =
      (operation.bansAt? address).or (lastBan? address earlier) := by
  unfold lastBan?
  rw [List.filterMap_append]
  cases bans : operation.bansAt? address with
  | none => simp [bans]
  | some now => simp [bans]

theorem visitedSinceBan_concat {earlier : List Operation} {operation : Operation} :
    VisitedSinceBan address (earlier ++ [operation]) ↔
      operation.visits address = true ∨
        operation.bansAt? address = none ∧ VisitedSinceBan address earlier := by
  constructor
  · rintro ⟨before, visit, later, same, visits, free⟩
    rcases List.eq_nil_or_concat later with rfl | ⟨others, last, rfl⟩
    · have own : operation = visit := by
        have ends := congrArg List.getLast? same
        simpa using ends
      rw [own]
      exact .inl visits
    · rw [List.concat_eq_append] at same free
      rw [lastBan?_concat, Option.or_eq_none_iff] at free
      have ends : earlier ++ [operation] = (before ++ visit :: others) ++ [last] := by
        rw [same]
        simp
      obtain ⟨rfl, lasts⟩ := List.append_inj' ends rfl
      cases lasts
      exact .inr ⟨free.1, before, visit, others, rfl, visits, free.2⟩
  · rintro (visits | ⟨free, before, visit, later, rfl, visits, unbanned⟩)
    · exact ⟨earlier, operation, [], rfl, visits, rfl⟩
    · refine ⟨before, visit, later ++ [operation], by simp, visits, ?_⟩
      rw [lastBan?_concat, free, unbanned]
      rfl

/-! ## What a history makes of a ban -/

theorem bannedUntil?_add (book : AddressBook) (address tested : PeerAddress) :
    (book.add address).2.bannedUntil? tested = book.bannedUntil? tested := by
  unfold add
  split
  · rfl
  · next absent =>
      show ((book.entries.insert address.endpoint (.ofAddress address)).get? tested.endpoint).bind
        Entry.ban? = (book.entries.get? tested.endpoint).bind Entry.ban?
      rw [Table.get?_insert]
      split
      · next same =>
          have unknown : book.entries.get? tested.endpoint = none := by
            rw [← same]
            simp [Table.contains] at absent
            exact absent.2
          rw [unknown]
          rfl
      · rfl

theorem Operation.bannedUntil?_apply (operation : Operation) (book : AddressBook)
    (address : PeerAddress) :
    (operation.apply book).bannedUntil? address =
      if operation.visits address then none
      else ((operation.bansAt? address).map (· + banDuration)).or (book.bannedUntil? address) := by
  cases operation with
  | add other => exact bannedUntil?_add book other address
  | markConnecting other =>
      simp [Operation.apply, Operation.visits, Operation.bansAt?]
  | markConnected link other =>
      simp [Operation.apply, Operation.visits, Operation.bansAt?]
  | markDisconnected link => exact bannedUntil?_markDisconnected book address link
  | markUnreachable other => exact bannedUntil?_markUnreachable book other address
  | markUnroutable link signalId =>
      show (book.markUnroutable link signalId).bannedUntil? address = _
      unfold AddressBook.markUnroutable
      split <;> rfl
  | ban banned now =>
      by_cases same : banned.endpoint = address.endpoint <;>
        simp [Operation.apply, Operation.visits, Operation.bansAt?, same]
  | ingest link addresses => exact bannedUntil?_ingest book address link addresses

/-- The book has an address as banned if it was banned and not visited since, however long ago
that was. -/
theorem bannedUntil?_after (localEndpoint : Option Endpoint) (operations : List Operation)
    (moment : Nat) :
    (after localEndpoint operations).bannedUntil? address = some moment ↔
      ∃ banned, lastBan? address operations = some banned ∧ moment = banned + banDuration ∧
        ¬ VisitedSinceBan address operations := by
  induction operations using List.reverseRecOn with
  | nil =>
      have unbanned : (blank localEndpoint).bannedUntil? address = none := by
        cases localEndpoint <;> rfl
      simp [unbanned, lastBan?]
  | append_singleton earlier operation hypothesis =>
      rw [after_concat, operation.bannedUntil?_apply, lastBan?_concat, visitedSinceBan_concat]
      by_cases visits : operation.visits address = true
      · simp [visits]
      · rw [if_neg visits, or_iff_right visits]
        cases bans : operation.bansAt? address with
        | none => simp [hypothesis]
        | some now => simp [eq_comm]

/-! ## Bans without an end -/

/-- Whether an entry is banned without an end to the ban. -/
def Entry.IsBannedForever (entry : Entry) : Prop :=
  entry.standing = .banned ∧ entry.bannedUntil = none

namespace Entry

theorem not_isBannedForever_ofAddress (address : PeerAddress) :
    ¬ (ofAddress address).IsBannedForever := by
  rintro ⟨banned, _⟩
  cases banned

theorem reflects_isBannedForever_unreached : Reflects IsBannedForever unreached := by
  intro entry forever
  unfold unreached at forever
  split at forever
  · exact forever
  · cases forever.1

theorem reflects_isBannedForever_disconnected : Reflects IsBannedForever disconnected := by
  rintro entry ⟨banned, endless⟩
  refine ⟨?_, endless⟩
  rw [disconnected_standing] at banned
  cases standing : entry.standing <;> simp [standing, Standing.disconnected] at banned ⊢

end Entry

theorem Operation.not_bannedForever_apply (operation : Operation)
    (ends : ¬ book.Has address Entry.IsBannedForever) :
    ¬ (operation.apply book).Has address Entry.IsBannedForever := by
  intro has
  apply ends
  cases operation with
  | add other =>
      have stored : (book.add other).2.Has address Entry.IsBannedForever := has
      unfold AddressBook.add at stored
      split at stored
      · exact stored
      · obtain ⟨entry, found, forever⟩ := stored
        have inserted := (Table.get?_insert book.entries other.endpoint (.ofAddress other)
          address.endpoint).symm.trans found
        split at inserted
        · cases inserted
          exact absurd forever (Entry.not_isBannedForever_ofAddress other)
        · exact ⟨entry, inserted, forever⟩
  | markConnecting other =>
      exact Has.of_changeOrAdd Entry.keepsEndpoint_dialed (fun _ forever => by cases forever.1)
        Entry.not_isBannedForever_ofAddress has
  | markConnected link other =>
      rcases Has.of_markConnected has with ⟨_, forever⟩ | before
      · cases forever.1
      · exact before
  | markDisconnected link =>
      rcases Has.of_markDisconnected has with ⟨_, entry, found, forever⟩ | ⟨_, before⟩
      · exact ⟨entry, found, Entry.reflects_isBannedForever_disconnected entry forever⟩
      · exact before
  | markUnreachable other =>
      exact Has.of_markUnreachable Entry.reflects_isBannedForever_unreached has
  | markUnroutable link signalId =>
      have stored : (book.markUnroutable link signalId).Has address Entry.IsBannedForever := has
      unfold AddressBook.markUnroutable at stored
      split at stored
      · exact stored
      · exact Has.of_entries rfl stored
  | ban other now =>
      exact Has.of_changeOrAdd (Entry.keepsEndpoint_bannedTo (now + banDuration))
        (fun _ forever => by cases forever.2) Entry.not_isBannedForever_ofAddress has
  | ingest link addresses =>
      exact Has.of_ingest (fun _ _ forever => forever) Entry.not_isBannedForever_ofAddress has

theorem not_bannedForever_after (localEndpoint : Option Endpoint) (operations : List Operation) :
    ¬ (after localEndpoint operations).Has address Entry.IsBannedForever := by
  induction operations using List.reverseRecOn with
  | nil =>
      rintro ⟨entry, found, _⟩
      cases localEndpoint <;> cases found
  | append_singleton earlier operation hypothesis =>
      rw [after_concat]
      exact operation.not_bannedForever_apply hypothesis

/-! ## What an expired ban still does -/

/-- Whether a failure to connect to an address counts as one more. -/
def CountsFailure (book : AddressBook) (address : PeerAddress) : Prop :=
  ∃ entry, book.find? address = some entry ∧
    (book.markUnreachable address).Has address fun later => later.failures = entry.failures + 1

/-- Whether some lots propose an address to connect to. -/
def MayPropose (book : AddressBook) (isOpen : LinkId → Bool) (now : Nat) (address : PeerAddress) :
    Prop :=
  ∃ lots picked, book.pick? isOpen now lots = some picked ∧ picked.endpoint = address.endpoint

/-- Whether an address is neither connected nor dialed and has not failed too often. -/
def Idle (book : AddressBook) (address : PeerAddress) : Prop :=
  book.Has address fun entry =>
    entry.isTerrible = false ∧ entry.standing ≠ .connecting ∧ entry.standing ≠ .connected

theorem countsFailure_iff {entry : Entry} (found : book.find? address = some entry) :
    book.CountsFailure address ↔ entry.standing ≠ .banned := by
  have failed : (book.markUnreachable address).find? address = some entry.unreached := by
    rw [markUnreachable, find?_change, found, Option.map_some, if_pos rfl]
  constructor
  · rintro ⟨own, foundOwn, later, foundLater, counted⟩ banned
    cases found.symm.trans foundOwn
    cases failed.symm.trans foundLater
    rw [Entry.unreached, if_pos banned] at counted
    omega
  · intro free
    refine ⟨entry, found, entry.unreached, failed, ?_⟩
    rw [Entry.unreached, if_neg free]

/-- An idle address that can be reached is proposed unless its standing is that of a banned
one. -/
theorem mayPropose_iff {isOpen : LinkId → Bool} (idle : book.Idle address)
    (foreign : book.localEndpoint ≠ some address.endpoint)
    (dialable : book.isDialable isOpen address = true) :
    book.MayPropose isOpen now address ↔ book.standing? address ≠ some .banned := by
  obtain ⟨entry, found, bearable, undialed, unconnected⟩ := idle
  have known : book.standing? address = some entry.standing := by
    rw [standing?, found]
    rfl
  constructor
  · rintro ⟨lots, picked, proposed, same⟩ banned
    have free := standing?_of_pick? proposed
    rw [standing?_congr book same, banned] at free
    simp at free
  · intro free
    rw [known] at free
    have own : entry.address.endpoint = address.endpoint := book.keyed _ _ found
    have eligible : book.isEligible isOpen now entry = true := by
      have standing : entry.standing = .new ∨ entry.standing = .failed := by
        cases isStanding : entry.standing <;> simp_all
      have unbanned : entry.isBanned now = false := by
        rcases standing with isStanding | isStanding <;> simp [Entry.isBanned, isStanding]
      have reachable : book.isDialable isOpen entry.address = true := by
        unfold isDialable at dialable ⊢
        rwa [own]
      simp [isEligible, standing, bearable, unbanned, reachable, isLocal, own, foreign]
    have member : entry.address ∈ book.eligible isOpen now :=
      List.mem_map.2 ⟨entry, List.mem_filter.2 ⟨mem_values_of_find? found, eligible⟩, rfl⟩
    obtain ⟨lots, drawn⟩ := exists_drawOne?_eq member
    exact ⟨lots, entry.address, drawn, own⟩

/-- The standing of an address that was banned is that of a banned one until it is visited. -/
theorem standing?_after_eq_banned_iff (localEndpoint : Option Endpoint)
    {operations : List Operation} {banned : Nat} (last : lastBan? address operations = some banned) :
    (after localEndpoint operations).standing? address = some .banned ↔
      ¬ VisitedSinceBan address operations := by
  have holds (moment : Nat) := @bannedUntil?_after address localEndpoint operations moment
  constructor
  · intro standing visited
    obtain ⟨entry, found, isBanned⟩ := Option.map_eq_some_iff.1 standing
    have endless : entry.bannedUntil = none := by
      rw [Option.eq_none_iff_forall_not_mem]
      intro moment member
      have known : (after localEndpoint operations).bannedUntil? address = some moment := by
        rw [bannedUntil?, found, Option.bind_some, Entry.ban?, if_pos isBanned]
        exact member
      obtain ⟨_, _, _, unvisited⟩ := (holds moment).1 known
      exact unvisited visited
    exact not_bannedForever_after localEndpoint operations ⟨entry, found, isBanned, endless⟩
  · intro unvisited
    by_contra free
    have known := (holds (banned + banDuration)).2 ⟨banned, last, rfl, unvisited⟩
    obtain ⟨entry, found, isBanned⟩ := Option.bind_eq_some_iff.1 known
    rw [standing?, found, Option.map_some, Option.some.injEq] at free
    rw [Entry.ban?_of_not_banned free] at isBanned
    cases isBanned

theorem knows_of_lastBan? (localEndpoint : Option Endpoint) {operations : List Operation}
    {banned : Nat} (last : lastBan? address operations = some banned) :
    (after localEndpoint operations).Knows address := by
  induction operations using List.reverseRecOn generalizing banned with
  | nil => cases last
  | append_singleton earlier operation hypothesis =>
      rw [lastBan?_concat] at last
      rw [after_concat]
      cases bans : operation.bansAt? address with
      | none =>
          rw [bans, Option.none_or] at last
          exact operation.knows_apply (hypothesis last)
      | some now =>
          cases operation with
          | ban other moment =>
              have same : other.endpoint = address.endpoint :=
                (Option.ite_none_right_eq_some.1 bans).1
              exact (knows_changeOrAdd (Entry.keepsEndpoint_bannedTo _)).2 (.inl same)
          | _ => cases bans

/-- Once the last ban of an address has expired it is not reported any more.  Whether its failures
count again, and whether it can be proposed to connect to, depends on a visit since that ban. -/
theorem expired_ban_over_iff_visited (localEndpoint : Option Endpoint)
    (operations : List Operation) (address : PeerAddress) {banned now : Nat}
    (last : lastBan? address operations = some banned) (expired : banned + banDuration ≤ now) :
    (after localEndpoint operations).isBanned address now = false ∧
    ((after localEndpoint operations).CountsFailure address ↔
      VisitedSinceBan address operations) ∧
    ∀ isOpen, localEndpoint ≠ some address.endpoint →
      (after localEndpoint operations).isDialable isOpen address = true →
      (after localEndpoint operations).Idle address →
        ((after localEndpoint operations).MayPropose isOpen now address ↔
          VisitedSinceBan address operations) := by
  have standing := standing?_after_eq_banned_iff localEndpoint last
  refine ⟨?_, ?_, ?_⟩
  · rw [Bool.eq_false_iff, Ne, isBanned_iff]
    rintro ⟨moment, known, early⟩
    obtain ⟨own, same, rfl, _⟩ := (bannedUntil?_after localEndpoint operations moment).1 known
    cases last.symm.trans same
    omega
  · obtain ⟨entry, found⟩ := Option.isSome_iff_exists.1 (knows_of_lastBan? localEndpoint last)
    rw [countsFailure_iff found, ← not_iff_not, not_not, ← standing, standing?, found,
      Option.map_some, Option.some.injEq]
  · intro isOpen foreign dialable idle
    rw [← localEndpoint_after localEndpoint operations] at foreign
    rw [mayPropose_iff idle foreign dialable, Ne, standing, not_not]

def offender : PeerAddress := .fresh (.direct "2.2.2.2" 8443) .full 0

/-- An address is banned twice, dialed after that and not reached. -/
def pardon : List Operation :=
  [.add offender, .ban offender 0, .ban offender 5, .markConnecting offender,
    .markUnreachable offender]

/-- Visited since its last ban, an address fails and is proposed like any other. -/
theorem expired_ban_over_pardoned :
    lastBan? offender pardon = some 5 ∧ 5 + banDuration ≤ 600005 ∧
      (after none pardon).isBanned offender 600005 = false ∧
      (after none pardon).CountsFailure offender ∧
      (after none pardon).MayPropose (fun _ => true) 600005 offender := by
  have last : lastBan? offender pardon = some 5 := by decide
  have expired : 5 + banDuration ≤ 600005 := by decide
  have idle : (after none pardon).Idle offender := ⟨_, rfl, by decide⟩
  have visited : VisitedSinceBan offender pardon :=
    ⟨pardon.take 3, .markConnecting offender, pardon.drop 4, rfl, by decide, by decide⟩
  obtain ⟨unreported, counts, proposes⟩ :=
    expired_ban_over_iff_visited none pardon offender last expired
  exact ⟨last, expired, unreported, counts.2 visited,
    (proposes (fun _ => true) (by decide) (by decide) idle).2 visited⟩

/-- An address is banned, and nothing else is done with it. -/
def verdict : List Operation :=
  [.add offender, .ban offender 0]

/-- A ban has expired and is not reported any more, and still the address is not proposed and
its failures do not count. -/
theorem expired_ban_still_bars :
    lastBan? offender verdict = some 0 ∧
      (after none verdict).isBanned offender banDuration = false ∧
      (after none verdict).Idle offender ∧
      ¬ (after none verdict).MayPropose (fun _ => true) banDuration offender ∧
      ¬ (after none verdict).CountsFailure offender := by
  have idle : (after none verdict).Idle offender := ⟨_, rfl, by decide⟩
  refine ⟨by decide, by decide, idle, ?_, ?_⟩
  · rw [mayPropose_iff idle (by decide) (by decide)]
    decide
  · rw [countsFailure_iff rfl]
    decide

end PeerOverlay.AddressBook
