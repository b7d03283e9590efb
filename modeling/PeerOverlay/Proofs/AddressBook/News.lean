import PeerOverlay.Proofs.AddressBook.Known

/-!
# News of addresses

Of the addresses that come through a link a book accepts those that are neither its own nor too
far away.  An address that is new is stored as it was first heard.  News of an address that is
known are merged into its entry: the latest time and the shortest distance count, a network
address is filled in only where there was none, and nothing that is known of the connection to
the peer changes.
-/

namespace PeerOverlay

/-- An address as it is heard here: a relayed peer is one hop further away. -/
def PeerAddress.oneHopOn (address : PeerAddress) : PeerAddress :=
  if address.protocol = .relayed then { address with distance := address.distance + 1 }
  else address

namespace AddressBook

variable {book : AddressBook} {link : LinkId} {address : PeerAddress}

/-! ## Addresses that are accepted -/

/-- Whether the book accepts an address that comes through a link: not the address of its own
node, and no relayed peer that is too far away after one more hop. -/
def Accepts (book : AddressBook) (address : PeerAddress) : Prop :=
  book.localEndpoint ≠ some address.endpoint ∧
    (address.protocol = .relayed → address.distance.toNat + 1 ≤ maxDistance.toNat)

instance (book : AddressBook) (address : PeerAddress) : Decidable (book.Accepts address) :=
  inferInstanceAs (Decidable (_ ∧ _))

/-- The addresses that the book accepts, as they are heard. -/
def accepted (book : AddressBook) (addresses : List PeerAddress) : List PeerAddress :=
  (addresses.filter fun address => book.Accepts address).map PeerAddress.oneHopOn

theorem oneFurther_of_near {distance : UInt8}
    (near : distance.toNat + 1 ≤ maxDistance.toNat) :
    oneFurther distance = distance + 1 ∧ ¬ maxDistance < oneFurther distance := by
  have small : distance.toNat + 1 ≤ 4 := near
  have further : oneFurther distance = distance + 1 := by
    unfold oneFurther
    rw [if_neg]
    rintro rfl
    exact absurd small (by decide)
  refine ⟨further, ?_⟩
  rw [further, UInt8.lt_iff_toNat_lt, UInt8.toNat_add]
  show ¬ 4 < (distance.toNat + 1) % 256
  omega

theorem too_far_of_not_near {distance : UInt8}
    (far : ¬ distance.toNat + 1 ≤ maxDistance.toNat) : maxDistance < oneFurther distance := by
  have large : ¬ distance.toNat + 1 ≤ 4 := far
  unfold oneFurther
  split
  · decide
  · next finite =>
      have bound : distance.toNat ≠ 255 := fun same => finite (UInt8.toNat_inj.1 same)
      have below := distance.toNat_lt
      rw [UInt8.lt_iff_toNat_lt, UInt8.toNat_add]
      show 4 < (distance.toNat + 1) % 256
      omega

theorem heard?_eq (book : AddressBook) (address : PeerAddress) :
    book.heard? address = if book.Accepts address then some address.oneHopOn else none := by
  obtain ⟨endpoint, services, timestamp, netAddress, distance⟩ := address
  unfold heard? Accepts isLocal PeerAddress.oneHopOn PeerAddress.protocol PeerAddress.signalId?
  by_cases own : book.localEndpoint = some endpoint
  · simp [own]
  · cases endpoint with
    | direct host port => simp [own, Endpoint.protocol, Endpoint.signalId?]
    | unreachable peerId => simp [own, Endpoint.protocol, Endpoint.signalId?]
    | relayed signalId =>
        by_cases near : distance.toNat + 1 ≤ maxDistance.toNat
        · obtain ⟨further, fits⟩ := oneFurther_of_near near
          rw [further] at fits
          simp [own, near, further, fits, Endpoint.protocol, Endpoint.signalId?]
        · simp [own, near, too_far_of_not_near near, Endpoint.protocol, Endpoint.signalId?]

theorem endpoint_oneHopOn (address : PeerAddress) :
    address.oneHopOn.endpoint = address.endpoint := by
  unfold PeerAddress.oneHopOn
  split <;> rfl

/-- Which addresses a book accepts depends on the address of its node only. -/
theorem accepted_congr {before after : AddressBook}
    (same : after.localEndpoint = before.localEndpoint) (addresses : List PeerAddress) :
    after.accepted addresses = before.accepted addresses := by
  unfold accepted
  refine congrArg _ (List.filter_congr fun address _ => decide_eq_decide.2 ?_)
  unfold Accepts
  rw [same]

theorem accepted_cons (book : AddressBook) (address : PeerAddress) (rest : List PeerAddress) :
    book.accepted (address :: rest) = (book.heard? address).toList ++ book.accepted rest := by
  unfold accepted
  rw [heard?_eq, List.filter_cons]
  by_cases accepts : book.Accepts address <;> simp [accepts]

/-! ## Addresses that are new -/

/-- The first address of each peer, in order. -/
def firstOfEach : List PeerAddress → List PeerAddress
  | [] => []
  | first :: rest =>
      first :: (firstOfEach rest).filter fun later => later.endpoint ≠ first.endpoint

/-- A test of endpoints chooses all addresses of a peer or none of them. -/
theorem firstOfEach_filter (chosen : Endpoint → Bool) (addresses : List PeerAddress) :
    firstOfEach (addresses.filter fun address => chosen address.endpoint) =
      (firstOfEach addresses).filter fun address => chosen address.endpoint := by
  induction addresses with
  | nil => rfl
  | cons first rest hypothesis =>
      rw [List.filter_cons, firstOfEach, List.filter_cons]
      split
      · rw [firstOfEach, hypothesis, List.filter_filter, List.filter_filter]
        simp only [Bool.and_comm]
      · next passed =>
          rw [hypothesis, List.filter_filter]
          refine List.filter_congr fun later _ => ?_
          by_cases same : later.endpoint = first.endpoint <;> simp [same, passed]

/-- Whether the book has no entry for the peer of an address. -/
def isNew (book : AddressBook) (address : PeerAddress) : Bool :=
  (book.find? address).isNone

theorem localEndpoint_learnRoute (book : AddressBook) (link : LinkId) (news : PeerAddress) :
    (book.learnRoute link news).localEndpoint = book.localEndpoint := by
  unfold learnRoute
  split <;> rfl

theorem localEndpoint_hear (book : AddressBook) (news : PeerAddress) :
    (book.hear news).2.localEndpoint = book.localEndpoint := by
  unfold hear
  split <;> rfl

theorem localEndpoint_ingestOne (book : AddressBook) (link : LinkId) (address : PeerAddress) :
    (book.ingestOne link address).2.localEndpoint = book.localEndpoint := by
  unfold ingestOne
  split
  · rfl
  · next news _ =>
      exact (localEndpoint_hear (book.learnRoute link news) news).trans
        (localEndpoint_learnRoute book link news)

theorem fst_hear_eq (book : AddressBook) (news : PeerAddress) :
    (book.hear news).1 = if book.isNew news then some news else none := by
  unfold hear isNew find? Table.contains
  cases book.entries.get? news.endpoint <;> rfl

theorem isNew_iff : book.isNew address = true ↔ ¬ book.Knows address := by
  unfold isNew Knows
  cases book.find? address <;> simp

theorem isNew_learnRoute (link : LinkId) (news tested : PeerAddress) :
    (book.learnRoute link news).isNew tested = book.isNew tested := by
  rw [Bool.eq_iff_iff, isNew_iff, isNew_iff, knows_learnRoute]

theorem isNew_congr {address tested : PeerAddress} (same : address.endpoint = tested.endpoint) :
    book.isNew address = book.isNew tested := by
  unfold isNew find?
  rw [same]

/-- After an address was heard, only addresses of other peers are new. -/
theorem isNew_hear (news tested : PeerAddress) :
    (book.hear news).2.isNew tested =
      (decide (tested.endpoint ≠ news.endpoint) && book.isNew tested) := by
  rw [Bool.eq_iff_iff, Bool.and_eq_true, isNew_iff, isNew_iff, knows_hear, not_or,
    decide_eq_true_eq, ne_comm, and_comm]

/-- What is told of an address that is heard, and of those behind it. -/
theorem firstOfEach_hear (book : AddressBook) (news : PeerAddress) (rest : List PeerAddress) :
    (book.hear news).1.toList ++ firstOfEach (rest.filter (book.hear news).2.isNew) =
      firstOfEach ((news :: rest).filter book.isNew) := by
  rw [fst_hear_eq, List.filter_cons]
  cases unknown : book.isNew news with
  | true =>
      have others : rest.filter (book.hear news).2.isNew =
          (rest.filter book.isNew).filter fun other => decide (other.endpoint ≠ news.endpoint) := by
        rw [List.filter_filter]
        exact List.filter_congr fun other _ => isNew_hear news other
      rw [others, firstOfEach_filter fun endpoint => decide (endpoint ≠ news.endpoint)]
      rfl
  | false =>
      have others : rest.filter (book.hear news).2.isNew = rest.filter book.isNew := by
        refine List.filter_congr fun other _ => ?_
        rw [isNew_hear]
        by_cases same : other.endpoint = news.endpoint
        · rw [isNew_congr same, unknown, Bool.and_false]
        · rw [decide_eq_true same, Bool.true_and]
      rw [others]
      rfl

/-- The addresses that are new are told of once each, in the order in which they are first
accepted. -/
theorem fst_ingestAll_eq (link : LinkId) (addresses : List PeerAddress) (book : AddressBook) :
    (ingestAll link addresses book).1 =
      firstOfEach ((book.accepted addresses).filter book.isNew) := by
  induction addresses generalizing book with
  | nil => rfl
  | cons address rest hypothesis =>
      have others := hypothesis (book.ingestOne link address).2
      rw [accepted_congr (localEndpoint_ingestOne book link address)] at others
      rw [ingestAll, accepted_cons]
      dsimp only
      rw [others]
      unfold ingestOne
      cases book.heard? address with
      | none => rfl
      | some news =>
          have learned : (book.learnRoute link news).isNew = book.isNew :=
            funext (isNew_learnRoute link news)
          refine (firstOfEach_hear (book.learnRoute link news) news (book.accepted rest)).trans ?_
          rw [learned]
          rfl

/-! ## Addresses that are known -/

/-- What comes of an entry when news of its address are merged into it. -/
structure Entry.Merges (before : Entry) (news : List PeerAddress) (after : Entry) : Prop where
  standing : after.standing = before.standing
  attempts : after.attempts = before.attempts
  failures : after.failures = before.failures
  bannedUntil : after.bannedUntil = before.bannedUntil
  link : after.link = before.link
  endpoint : after.address.endpoint = before.address.endpoint
  services : after.address.services = before.address.services
  timestamp :
    (before.address.timestamp :: news.map PeerAddress.timestamp).max? =
      some after.address.timestamp
  distance :
    (before.address.distance :: news.map PeerAddress.distance).min? = some after.address.distance
  netAddress :
    after.address.netAddress = before.address.netAddress.or (news.findSome? PeerAddress.netAddress)

theorem Entry.Merges.refl (entry : Entry) : entry.Merges [] entry where
  standing := rfl
  attempts := rfl
  failures := rfl
  bannedUntil := rfl
  link := rfl
  endpoint := rfl
  services := rfl
  timestamp := rfl
  distance := rfl
  netAddress := (Option.or_none ..).symm

theorem later_eq_max (first second : Int64) :
    (if first < second then second else first) = max first second := by
  show _ = if first ≤ second then second else first
  by_cases earlier : first < second
  · rw [if_pos earlier, if_pos (Int64.le_of_lt earlier)]
  · rw [if_neg earlier]
    split
    · next notLater => exact (Int64.le_antisymm (Int64.not_lt.1 earlier) notLater).symm
    · rfl

theorem shorter_eq_min (first second : UInt8) :
    (if second < first then second else first) = min first second := by
  show _ = if first ≤ second then first else second
  by_cases shorter : second < first
  · rw [if_pos shorter, if_neg (UInt8.not_le.2 shorter)]
  · rw [if_neg shorter, if_pos (UInt8.not_lt.1 shorter)]

/-- What is heard first is merged first. -/
theorem Entry.Merges.cons {entry after : Entry} {first : PeerAddress} {rest : List PeerAddress}
    (merges : (entry.heard first).Merges rest after) : entry.Merges (first :: rest) after where
  standing := merges.standing
  attempts := merges.attempts
  failures := merges.failures
  bannedUntil := merges.bannedUntil
  link := merges.link
  endpoint := merges.endpoint
  services := merges.services
  timestamp := by
    have later := merges.timestamp
    rw [List.max?_cons'] at later ⊢
    rwa [Entry.heard, later_eq_max] at later
  distance := by
    have shorter := merges.distance
    rw [List.min?_cons'] at shorter ⊢
    rwa [Entry.heard, shorter_eq_min] at shorter
  netAddress := by
    rw [merges.netAddress, List.findSome?_cons, Entry.heard]
    cases entry.address.netAddress <;> cases first.netAddress <;> rfl

/-- The news of one peer among some addresses. -/
def about (endpoint : Endpoint) (addresses : List PeerAddress) : List PeerAddress :=
  addresses.filter fun address => address.endpoint = endpoint

theorem find?_hear_of_known (news : PeerAddress) {tested : PeerAddress} {entry : Entry}
    (known : book.find? tested = some entry) :
    (book.hear news).2.find? tested =
      some (if tested.endpoint = news.endpoint then entry.heard news else entry) := by
  unfold hear
  split
  · rw [find?_change, known]
    rfl
  · next unknown =>
      have other : news.endpoint ≠ tested.endpoint := by
        intro same
        apply unknown
        rw [same]
        exact Option.isSome_of_eq_some known
      rw [if_neg (Ne.symm other)]
      exact ((Table.get?_insert ..).trans (if_neg other)).trans known

theorem find?_learnRoute (link : LinkId) (news tested : PeerAddress) :
    (book.learnRoute link news).find? tested = book.find? tested := by
  unfold learnRoute
  split <;> rfl

theorem find?_ingestOne_of_known (link : LinkId) (address : PeerAddress) {tested : PeerAddress}
    {entry : Entry} (known : book.find? tested = some entry) :
    (book.ingestOne link address).2.find? tested =
      some ((about tested.endpoint (book.heard? address).toList).foldl Entry.heard entry) := by
  unfold ingestOne
  cases book.heard? address with
  | none => exact known
  | some news =>
      refine (find?_hear_of_known news ((find?_learnRoute link news tested).trans known)).trans ?_
      rw [about, Option.toList_some, List.filter_cons, List.filter_nil]
      by_cases same : tested.endpoint = news.endpoint
      · simp [same]
      · simp [same, Ne.symm same]

theorem Entry.Merges.append {entry after : Entry} (news : List PeerAddress)
    {later : List PeerAddress} (merges : (news.foldl Entry.heard entry).Merges later after) :
    entry.Merges (news ++ later) after := by
  induction news generalizing entry with
  | nil => exact merges
  | cons first rest hypothesis => exact .cons (hypothesis merges)

/-- All news of an address that is known are merged into its entry, and nothing else. -/
theorem merges_ingestAll (link : LinkId) (addresses : List PeerAddress) {book : AddressBook}
    {tested : PeerAddress} {entry : Entry} (known : book.find? tested = some entry) :
    ∃ after, (ingestAll link addresses book).2.find? tested = some after ∧
      entry.Merges (about tested.endpoint (book.accepted addresses)) after := by
  induction addresses generalizing book entry with
  | nil => exact ⟨entry, known, .refl entry⟩
  | cons address rest hypothesis =>
      obtain ⟨after, found, merges⟩ := hypothesis (find?_ingestOne_of_known link address known)
      rw [accepted_congr (localEndpoint_ingestOne book link address)] at merges
      refine ⟨after, found, ?_⟩
      rw [accepted_cons, about, List.filter_append]
      exact merges.append _

/-! ## What is heard through a link -/

/-- Of the addresses of one message a book tells those that are new, each peer once and in the
order in which they are first accepted.  It knows them afterwards, beside what it knew before, and
whatever the message says, the entry of an address that was known changes by its news only. -/
theorem ingest_tells_new_and_merges_known (book : AddressBook) (link : LinkId)
    (addresses : List PeerAddress) :
    (book.ingest link addresses).1 =
        firstOfEach ((book.accepted (addresses.take maxAddressesPerMessage)).filter book.isNew) ∧
      ((book.ingest link addresses).1.map PeerAddress.endpoint).Nodup ∧
      (∀ tested, (book.ingest link addresses).2.Knows tested ↔
        book.Knows tested ∨
          tested.endpoint ∈ (book.ingest link addresses).1.map PeerAddress.endpoint) ∧
      ∀ tested entry, book.find? tested = some entry →
        ∃ after, (book.ingest link addresses).2.find? tested = some after ∧
          entry.Merges
            (about tested.endpoint (book.accepted (addresses.take maxAddressesPerMessage)))
            after :=
  ⟨fst_ingestAll_eq link _ book, nodup_ingestAll, fun _ => knows_ingestAll,
    fun _ _ => merges_ingestAll link _⟩

/-- News of a relayed peer from some hops away. -/
def rumourOf (signalId : SignalId) (timestamp : Int64) (distance : UInt8) : PeerAddress :=
  { PeerAddress.fresh (.relayed signalId) .full timestamp with distance := distance }

/-- A book that has banned a relayed peer at distance three. -/
def grudging : AddressBook :=
  (withLocal (.direct "1.1.1.1" 8443)).ban (rumourOf "aaaa" 5 3) 0

/-- News of the node itself, of the banned peer, of two new ones and of one too far away, with
repetitions. -/
def mixedNews : List PeerAddress :=
  [.fresh (.direct "1.1.1.1" 8443) .full 9, rumourOf "bbbb" 3 2, rumourOf "aaaa" 8 3,
    rumourOf "cccc" 9 4, .fresh (.direct "5.5.5.5" 8443) .full 0, rumourOf "bbbb" 4 0,
    (rumourOf "aaaa" 7 1).withNetAddress (.ip "6.6.6.6")]

theorem grudging_hears_mixedNews :
    ∃ entry, grudging.find? (rumourOf "aaaa" 0 0) = some entry ∧ entry.standing = .banned ∧
      ((grudging.ingest 1 mixedNews).1 =
          [rumourOf "bbbb" 3 3, .fresh (.direct "5.5.5.5" 8443) .full 0] ∧
        ∃ after, (grudging.ingest 1 mixedNews).2.find? (rumourOf "aaaa" 0 0) = some after ∧
          entry.Merges
            [rumourOf "aaaa" 8 4, (rumourOf "aaaa" 7 2).withNetAddress (.ip "6.6.6.6")] after) := by
  obtain ⟨told, -, -, merged⟩ := ingest_tells_new_and_merges_known grudging 1 mixedNews
  obtain ⟨after, found, merges⟩ := merged (rumourOf "aaaa" 0 0) _ rfl
  exact ⟨_, rfl, rfl, told.trans (by decide), after, found, merges⟩

end AddressBook

end PeerOverlay
