import PeerOverlay.Proofs.AddressBook.Operations

/-!
# The address of the node itself

A book that knows the address of its node never proposes it and never tells that it is new.  But
dialing it, a connection to it and a ban enter it like any other address, and queries do not pass
it over: from then on it is told to whoever asks.
-/

namespace PeerOverlay.AddressBook

variable {book : AddressBook} {own : PeerAddress}

/-! ## Proposals and news -/

theorem endpoint_ne_of_pick? (isOwn : book.localEndpoint = some own.endpoint)
    {isOpen : LinkId → Bool} {now : Nat} {lots : List Nat} {picked : PeerAddress}
    (proposed : book.pick? isOpen now lots = some picked) : picked.endpoint ≠ own.endpoint := by
  obtain ⟨entry, chosen, rfl⟩ := List.mem_map.1 (mem_of_drawOne? proposed)
  have eligible := (List.mem_filter.1 chosen).2
  simp only [isEligible, Bool.and_eq_true, isLocal, isOwn] at eligible
  intro same
  rw [same] at eligible
  simp at eligible

theorem mem_of_mem_firstOfEach {address : PeerAddress} {addresses : List PeerAddress}
    (member : address ∈ firstOfEach addresses) : address ∈ addresses := by
  induction addresses with
  | nil => exact member
  | cons first rest hypothesis =>
      rcases List.mem_cons.1 member with rfl | later
      · exact List.mem_cons_self
      · exact List.mem_cons_of_mem first (hypothesis (List.mem_filter.1 later).1)

theorem endpoint_ne_of_mem_accepted (isOwn : book.localEndpoint = some own.endpoint)
    {news : PeerAddress} {addresses : List PeerAddress} (member : news ∈ book.accepted addresses) :
    news.endpoint ≠ own.endpoint := by
  obtain ⟨address, chosen, rfl⟩ := List.mem_map.1 member
  have accepts := of_decide_eq_true (List.mem_filter.1 chosen).2
  rw [endpoint_oneHopOn]
  intro same
  exact accepts.1 (isOwn.trans (congrArg some same.symm))

theorem endpoint_ne_of_mem_ingest (isOwn : book.localEndpoint = some own.endpoint)
    {link : LinkId} {addresses : List PeerAddress} {news : PeerAddress}
    (member : news ∈ (book.ingest link addresses).1) : news.endpoint ≠ own.endpoint := by
  rw [ingest, fst_ingestAll_eq] at member
  exact endpoint_ne_of_mem_accepted isOwn
    (List.mem_filter.1 (mem_of_mem_firstOfEach member)).1

/-! ## How the own address gets into the book -/

/-- The services that the book has for the peer of an address, if it has an entry for it. -/
def servicesOf (book : AddressBook) (address : PeerAddress) : Option Services :=
  (book.find? address).map fun entry => entry.address.services

/-- Whether a transition leaves the services of every address as they are. -/
def Entry.KeepsServices (step : Entry → Entry) : Prop :=
  ∀ entry, (step entry).address.services = entry.address.services

theorem Entry.keepsServices_unreached : Entry.KeepsServices Entry.unreached := by
  intro entry
  unfold Entry.unreached
  split <;> rfl

/-- The address that an operation enters for a peer, whether it is the node itself or not. -/
def Operation.enters? (own : PeerAddress) : Operation → Option PeerAddress
  | markConnecting address => if address.endpoint = own.endpoint then some address else none
  | markConnected _ address => if address.endpoint = own.endpoint then some address else none
  | ban address _ => if address.endpoint = own.endpoint then some address else none
  | _ => none

/-- The address under which the node itself is entered first, if it is. -/
def firstEntered? (own : PeerAddress) (operations : List Operation) : Option PeerAddress :=
  operations.findSome? (Operation.enters? own)

theorem firstEntered?_concat (own : PeerAddress) (earlier : List Operation)
    (operation : Operation) :
    firstEntered? own (earlier ++ [operation]) =
      (firstEntered? own earlier).or (operation.enters? own) := by
  unfold firstEntered?
  rw [List.findSome?_append, List.findSome?_cons, List.findSome?_nil]
  cases operation.enters? own <;> rfl

theorem servicesOf_changeOrAdd {address : PeerAddress} {step : Entry → Entry}
    (keeps : Entry.KeepsEndpoint step) (keepsServices : Entry.KeepsServices step) :
    (book.changeOrAdd address step keeps).servicesOf own =
      (book.servicesOf own).or
        ((if address.endpoint = own.endpoint then some address else none).map
          PeerAddress.services) := by
  unfold servicesOf
  rw [find?_changeOrAdd]
  by_cases same : address.endpoint = own.endpoint
  · rw [if_pos same, if_pos same, Option.map_some, keepsServices, entryOf, find?, find?, same]
    cases book.entries.get? own.endpoint <;> rfl
  · rw [if_neg same, if_neg same, Option.map_none, Option.or_none]

theorem servicesOf_change {address : PeerAddress} {step : Entry → Entry}
    (keeps : Entry.KeepsEndpoint step) (keepsServices : Entry.KeepsServices step) :
    (book.change address step keeps).servicesOf own = book.servicesOf own := by
  unfold servicesOf
  rw [find?_change, Option.map_map]
  refine congrArg (Option.map · (book.find? own)) (funext fun entry => ?_)
  show (if own.endpoint = address.endpoint then step entry else entry).address.services = _
  split
  · exact keepsServices entry
  · rfl

theorem servicesOf_markDisconnected (link : LinkId) :
    (book.markDisconnected link).servicesOf own = book.servicesOf own := by
  unfold servicesOf
  rw [find?_markDisconnected, Option.map_map]
  refine congrArg (Option.map · (book.find? own)) (funext fun entry => ?_)
  show (if _ then entry.disconnected else entry).address.services = _
  split <;> rfl

theorem servicesOf_ingest (isOwn : book.localEndpoint = some own.endpoint) (link : LinkId)
    (addresses : List PeerAddress) :
    (book.ingest link addresses).2.servicesOf own = book.servicesOf own := by
  unfold servicesOf
  cases known : book.find? own with
  | some entry =>
      obtain ⟨merged, found, merges⟩ :=
        merges_ingestAll link (addresses.take maxAddressesPerMessage) known
      rw [ingest, found, Option.map_some, Option.map_some, merges.services]
  | none =>
      have unknown : ¬ (book.ingest link addresses).2.Knows own := by
        intro knows
        rcases knows_ingestAll.1 knows with before | added
        · rw [Knows, known] at before
          cases before
        · obtain ⟨news, member, same⟩ := List.mem_map.1 added
          exact endpoint_ne_of_mem_ingest isOwn member same
      rw [Option.not_isSome_iff_eq_none.1 unknown]

theorem servicesOf_apply (isOwn : book.localEndpoint = some own.endpoint)
    (operation : Operation) :
    (operation.apply book).servicesOf own =
      (book.servicesOf own).or ((operation.enters? own).map PeerAddress.services) := by
  have kept {changed : AddressBook} (same : changed.servicesOf own = book.servicesOf own) :
      changed.servicesOf own = (book.servicesOf own).or none :=
    same.trans (Option.or_none ..).symm
  cases operation with
  | add address =>
      apply kept
      show (book.add address).2.servicesOf own = _
      unfold AddressBook.add
      split
      · rfl
      · next stored =>
          have other : address.endpoint ≠ own.endpoint := by
            intro same
            simp [isLocal, isOwn, same] at stored
          unfold servicesOf
          exact congrArg _ ((Table.get?_insert ..).trans (if_neg other))
  | markConnecting address =>
      exact servicesOf_changeOrAdd Entry.keepsEndpoint_dialed fun _ => rfl
  | markConnected link address =>
      exact servicesOf_changeOrAdd (Entry.keepsEndpoint_connected link address) fun _ => rfl
  | markDisconnected link => exact kept (servicesOf_markDisconnected link)
  | markUnreachable address =>
      exact kept (servicesOf_change Entry.keepsEndpoint_unreached Entry.keepsServices_unreached)
  | markUnroutable link signalId =>
      apply kept
      show (book.markUnroutable link signalId).servicesOf own = _
      unfold AddressBook.markUnroutable
      split <;> rfl
  | ban address now =>
      exact servicesOf_changeOrAdd (Entry.keepsEndpoint_bannedTo (now + banDuration)) fun _ => rfl
  | ingest link addresses => exact kept (servicesOf_ingest isOwn link addresses)

/-- A book has the node itself with the services with which it was entered first. -/
theorem servicesOf_after (own : PeerAddress) (operations : List Operation) :
    (after (some own.endpoint) operations).servicesOf own =
      (firstEntered? own operations).map PeerAddress.services := by
  induction operations using List.reverseRecOn with
  | nil => rfl
  | append_singleton earlier operation hypothesis =>
      rw [after_concat, servicesOf_apply (localEndpoint_after _ earlier), hypothesis,
        firstEntered?_concat, Option.map_or]

/-! ## Queries -/

theorem exists_of_mem_query {protocols : Protocols} {services : Services} {now : Nat}
    {lots : List Nat} {told : PeerAddress}
    (member : told ∈ book.query protocols services now lots) :
    ∃ entry, book.find? told = some entry ∧ entry.address = told ∧
      matchesQuery protocols services now entry = true := by
  have drawn := (draw_perm lots _).mem_iff.1 (List.mem_of_mem_take member)
  obtain ⟨entry, matching, rfl⟩ := List.mem_map.1 drawn
  obtain ⟨stored, fits⟩ := List.mem_filter.1 matching
  exact ⟨entry, find?_of_mem_values stored, rfl, fits⟩

/-- What fits a query is told, if the lots draw it early. -/
theorem exists_mem_query {protocols : Protocols} {services : Services} {now : Nat}
    {entry : Entry} (found : book.find? own = some entry)
    (fits : matchesQuery protocols services now entry = true) :
    ∃ lots, entry.address ∈ book.query protocols services now lots := by
  have matching : entry.address ∈ book.matching protocols services now :=
    List.mem_map.2 ⟨entry, List.mem_filter.2 ⟨mem_values_of_find? found, fits⟩, rfl⟩
  obtain ⟨lots, others, drawn⟩ := exists_draw_eq_cons matching
  refine ⟨lots, ?_⟩
  rw [query, drawn]
  exact List.mem_cons_self

theorem intersects_none (services : Services) : Services.none.intersects services = false := by
  simp [Services.none, Services.intersects]

theorem intersects_self {services : Services} (some : services ≠ .none) :
    services.intersects services = true := by
  obtain ⟨bits⟩ := services
  have nonzero : bits ≠ 0 := by
    rintro rfl
    exact some rfl
  simp [Services.intersects, nonzero]

theorem contains_only (protocol : Protocol) :
    (Protocols.only protocol).contains protocol = true := by
  cases protocol <;> rfl

theorem matchesQuery_of_entered {entry : Entry} {address : PeerAddress} {now : Nat}
    (harmless : entry.failures = 0) (free : entry.isBanned now = false)
    (endpoint : entry.address.endpoint = address.endpoint)
    (services : entry.address.services = address.services) (serves : address.services ≠ .none) :
    matchesQuery (.only address.protocol) address.services now entry = true := by
  unfold matchesQuery Entry.isTerrible PeerAddress.protocol
  rw [harmless, free, endpoint, services, contains_only, intersects_self serves]
  rfl

theorem find?_changeOrAdd_of_unknown {address : PeerAddress} {step : Entry → Entry}
    (keeps : Entry.KeepsEndpoint step) (unknown : book.find? own = none)
    (same : address.endpoint = own.endpoint) :
    (book.changeOrAdd address step keeps).find? own = some (step (.ofAddress address)) := by
  have fresh : book.entryOf address = .ofAddress address := by
    rw [entryOf, find?, same, ← find?, unknown]
    rfl
  rw [find?_changeOrAdd, if_pos same, fresh]

/-- An operation that enters the node itself makes an entry that fits some query, a ban once it
has expired. -/
theorem exists_fitting_of_enters {operation : Operation} {address : PeerAddress}
    (enters : operation.enters? own = some address) (unknown : book.find? own = none)
    (serves : address.services ≠ .none) :
    ∃ entry now, (operation.apply book).find? own = some entry ∧
      entry.address.endpoint = own.endpoint ∧
      matchesQuery (.only address.protocol) address.services now entry = true := by
  unfold Operation.enters? at enters
  split at enters
  · obtain ⟨same, named⟩ := Option.ite_none_right_eq_some.1 enters
    cases named
    exact ⟨_, 0, find?_changeOrAdd_of_unknown Entry.keepsEndpoint_dialed unknown same, same,
      matchesQuery_of_entered rfl rfl rfl rfl serves⟩
  · next link _ =>
      obtain ⟨same, named⟩ := Option.ite_none_right_eq_some.1 enters
      cases named
      exact ⟨_, 0, find?_changeOrAdd_of_unknown (Entry.keepsEndpoint_connected link address)
        unknown same, same, matchesQuery_of_entered rfl rfl rfl rfl serves⟩
  · next now =>
      obtain ⟨same, named⟩ := Option.ite_none_right_eq_some.1 enters
      cases named
      have expired : ((Entry.ofAddress address).bannedTo (now + banDuration)).isBanned
          (now + banDuration) = false := by simp [Entry.isBanned, Entry.bannedTo]
      exact ⟨_, now + banDuration,
        find?_changeOrAdd_of_unknown (Entry.keepsEndpoint_bannedTo (now + banDuration)) unknown
          same,
        same, matchesQuery_of_entered rfl expired rfl rfl serves⟩
  · cases enters

/-! ## Along a history -/

theorem exists_enters_of_firstEntered? {operations : List Operation} {address : PeerAddress}
    (first : firstEntered? own operations = some address) :
    ∃ earlier operation, earlier ++ [operation] <+: operations ∧
      operation.enters? own = some address ∧ firstEntered? own earlier = none := by
  obtain ⟨earlier, operation, later, rfl, enters, silent⟩ := List.findSome?_eq_some_iff.1 first
  refine ⟨earlier, operation, ?_, enters, List.findSome?_eq_none_iff.2 silent⟩
  exact ⟨later, by simp⟩

theorem find?_eq_none_of_firstEntered? {operations : List Operation}
    (never : firstEntered? own operations = none) :
    (after (some own.endpoint) operations).find? own = none := by
  have nothing := servicesOf_after own operations
  rw [never] at nothing
  exact Option.map_eq_none_iff.1 nothing

/-- If a query tells the address of the node, it was entered with some service. -/
theorem exists_firstEntered?_of_mem_query {operations : List Operation} {protocols : Protocols}
    {services : Services} {now : Nat} {lots : List Nat} {told : PeerAddress}
    (member :
      told ∈ (after (some own.endpoint) operations).query protocols services now lots)
    (same : told.endpoint = own.endpoint) :
    ∃ address, firstEntered? own operations = some address ∧ address.services ≠ .none := by
  obtain ⟨entry, found, rfl, fits⟩ := exists_of_mem_query member
  have stored := servicesOf_after own operations
  have known : (after (some own.endpoint) operations).find? own = some entry := by
    rwa [find?, same] at found
  rw [servicesOf, known, Option.map_some] at stored
  obtain ⟨address, first, services⟩ := Option.map_eq_some_iff.1 stored.symm
  refine ⟨address, first, ?_⟩
  rw [services]
  intro none
  rw [matchesQuery, none, intersects_none, Bool.and_false] at fits
  cases fits

/-- A book that knows the address of its node never proposes to connect to it and never tells
that it is new.  But that address is missing from the answers to all queries, all along a
history, if and only if nothing in the history enters it, or it is entered first without any
service. -/
theorem own_address_untold_iff_not_entered (own : PeerAddress) (operations : List Operation) :
    (∀ isOpen now lots, ∀ picked,
      (after (some own.endpoint) operations).pick? isOpen now lots = some picked →
        picked.endpoint ≠ own.endpoint) ∧
    (∀ link addresses, ∀ news ∈ ((after (some own.endpoint) operations).ingest link addresses).1,
      news.endpoint ≠ own.endpoint) ∧
    ((∀ earlier, earlier <+: operations → ∀ protocols services now lots,
        ∀ told ∈ (after (some own.endpoint) earlier).query protocols services now lots,
          told.endpoint ≠ own.endpoint) ↔
      ∀ address, firstEntered? own operations = some address → address.services = .none) := by
  have isOwn := localEndpoint_after (some own.endpoint) operations
  refine ⟨fun _ _ _ _ => endpoint_ne_of_pick? isOwn,
    fun _ _ _ => endpoint_ne_of_mem_ingest isOwn, ?_, ?_⟩
  · intro untold address first
    by_contra serves
    obtain ⟨earlier, operation, initial, enters, never⟩ := exists_enters_of_firstEntered? first
    obtain ⟨entry, now, found, same, fits⟩ :=
      exists_fitting_of_enters enters (find?_eq_none_of_firstEntered? never) serves
    rw [← after_concat] at found
    obtain ⟨lots, told⟩ := exists_mem_query found fits
    exact untold _ initial _ _ now lots _ told same
  · intro serveless earlier initial protocols services now lots told member same
    obtain ⟨address, first, services⟩ := exists_firstEntered?_of_mem_query member same
    obtain ⟨later, rfl⟩ := initial
    have whole : firstEntered? own (earlier ++ later) = some address := by
      unfold firstEntered? at first ⊢
      rw [List.findSome?_append, first]
      rfl
    exact services (serveless address whole)

/-- Once the address of the node was dialed, a query tells it. -/
theorem own_address_told_once_dialed :
    (after (some (.direct "1.1.1.1" 8443))
        [.markConnecting (.fresh (.direct "1.1.1.1" 8443) .full 0)]).query ⟨7⟩ ⟨7⟩ 0 [] =
      [.fresh (.direct "1.1.1.1" 8443) .full 0] := by
  decide

end PeerOverlay.AddressBook
