import PeerOverlay.AddressBook.Book

/-!
# Where the addresses in a book come from

A book makes up no endpoints and no network addresses.  What it stores, proposes,
answers and passes on is made of endpoints and network addresses that it was
given.
-/

namespace PeerOverlay

/-- The endpoints and network addresses of which addresses may be made. -/
structure Places where
  endpoint : Endpoint → Prop
  netAddress : NetAddress → Prop

namespace Places

variable (places : Places)

/-- Whether an address is made of given places. -/
structure Admits (address : PeerAddress) : Prop where
  endpoint : places.endpoint address.endpoint
  netAddress : ∀ netAddress, address.netAddress = some netAddress → places.netAddress netAddress

/-- Whether all addresses in a book are made of given places. -/
def Stores (book : AddressBook) : Prop :=
  ∀ endpoint entry, book.entries.get? endpoint = some entry → places.Admits entry.address

variable {places}

/-- One network address if there is one, and else another. -/
theorem netAddress_of_orElse {first second : Option NetAddress}
    (left : ∀ netAddress, first = some netAddress → places.netAddress netAddress)
    (right : ∀ netAddress, second = some netAddress → places.netAddress netAddress) :
    ∀ netAddress, (first.orElse fun _ => second) = some netAddress →
      places.netAddress netAddress := by
  cases first with
  | none => exact right
  | some known => exact left

end Places

namespace AddressBook

open Places

variable {places : Places} {book : AddressBook} {address : PeerAddress}

/-! ## Entries -/

/-- Whether a transition makes up no places. -/
def Entry.KeepsPlaces (places : Places) (step : Entry → Entry) : Prop :=
  ∀ entry, places.Admits entry.address → places.Admits (step entry).address

theorem Entry.keepsPlaces_dialed : KeepsPlaces places dialed := fun _ admits => admits

theorem Entry.keepsPlaces_disconnected : KeepsPlaces places disconnected := fun _ admits => admits

theorem Entry.keepsPlaces_unreached : KeepsPlaces places unreached := by
  intro entry admits
  unfold unreached
  split <;> exact admits

theorem Entry.keepsPlaces_bannedTo (moment : Nat) :
    KeepsPlaces places fun entry => entry.bannedTo moment := fun _ admits => admits

theorem Entry.keepsPlaces_connected (link : LinkId) (announced : places.Admits address) :
    KeepsPlaces places fun entry => entry.connected link address := by
  intro entry admits
  exact ⟨admits.endpoint, netAddress_of_orElse announced.netAddress admits.netAddress⟩

theorem Entry.keepsPlaces_heard (news : places.Admits address) :
    KeepsPlaces places fun entry => entry.heard address := by
  intro entry admits
  exact ⟨admits.endpoint, netAddress_of_orElse admits.netAddress news.netAddress⟩

end AddressBook

namespace Places.Stores

open AddressBook

variable {places : Places} {book : AddressBook} {address : PeerAddress}

/-! ## Operations -/

theorem of_insert (stores : places.Stores book) {entry : Entry} {after : AddressBook}
    {endpoint : Endpoint} (admits : places.Admits entry.address)
    (entries : after.entries = book.entries.insert endpoint entry) : places.Stores after := by
  intro tested other known
  rw [entries, Table.get?_insert] at known
  split at known
  · rw [← Option.some.inj known]
    exact admits
  · exact stores tested other known

theorem of_modify (stores : places.Stores book) {step : Entry → Entry} {after : AddressBook}
    {endpoint : Endpoint} (keeps : Entry.KeepsPlaces places step)
    (entries : after.entries = book.entries.modify endpoint step) : places.Stores after := by
  intro tested entry known
  rw [entries, Table.get?_modify] at known
  obtain ⟨old, stored, same⟩ := Option.map_eq_some_iff.1 known
  have admits := stores tested old stored
  rw [← same]
  split
  · exact keeps old admits
  · exact admits

theorem stored (stores : places.Stores book) {known : PeerAddress}
    (found : book.stored? address = some known) : places.Admits known := by
  obtain ⟨entry, present, same⟩ := Option.map_eq_some_iff.1 found
  rw [← same]
  exact stores address.endpoint entry present

theorem entryOf (stores : places.Stores book) (admits : places.Admits address) :
    places.Admits (book.entryOf address).address := by
  unfold AddressBook.entryOf
  cases found : book.find? address with
  | none => exact admits
  | some entry => exact stores address.endpoint entry found

theorem markConnecting (stores : places.Stores book) (admits : places.Admits address) :
    places.Stores (book.markConnecting address) :=
  stores.of_insert (Entry.keepsPlaces_dialed _ (stores.entryOf admits)) rfl

theorem markConnected (stores : places.Stores book) (link : LinkId)
    (admits : places.Admits address) : places.Stores (book.markConnected link address) :=
  stores.of_insert (Entry.keepsPlaces_connected link admits _ (stores.entryOf admits)) rfl

theorem ban (stores : places.Stores book) (admits : places.Admits address) (now : Nat) :
    places.Stores (book.ban address now) :=
  stores.of_insert (Entry.keepsPlaces_bannedTo _ _ (stores.entryOf admits)) rfl

theorem markUnreachable (stores : places.Stores book) (address : PeerAddress) :
    places.Stores (book.markUnreachable address) :=
  stores.of_modify Entry.keepsPlaces_unreached rfl

theorem giveUp (stores : places.Stores book) (address : PeerAddress) :
    places.Stores (book.giveUp address) := by
  unfold AddressBook.giveUp
  split
  · exact stores.markUnreachable address
  · exact stores

theorem miss (stores : places.Stores book) (address : PeerAddress) :
    places.Stores (book.miss address) := by
  unfold AddressBook.miss
  split
  · exact stores
  · exact stores.markUnreachable address

theorem markDisconnected (stores : places.Stores book) (link : LinkId) :
    places.Stores (book.markDisconnected link) := by
  unfold AddressBook.markDisconnected
  cases book.connectedLinks.get? link with
  | none => exact stores
  | some endpoint => exact stores.of_modify Entry.keepsPlaces_disconnected rfl

/-! ## News -/

theorem admits_of_heard? {news : PeerAddress} (admits : places.Admits address)
    (heard : book.heard? address = some news) : places.Admits news := by
  unfold heard? at heard
  split at heard
  · cases heard
  · split at heard
    · cases heard
      exact admits
    · dsimp only at heard
      split at heard
      · cases heard
      · cases heard
        exact ⟨admits.endpoint, admits.netAddress⟩

theorem learnRoute (stores : places.Stores book) (link : LinkId) (news : PeerAddress) :
    places.Stores (book.learnRoute link news) := by
  unfold AddressBook.learnRoute
  split <;> exact stores

theorem ingestOne (stores : places.Stores book) (link : LinkId) (admits : places.Admits address) :
    (∀ news, (book.ingestOne link address).1 = some news → places.Admits news) ∧
      places.Stores (book.ingestOne link address).2 := by
  unfold AddressBook.ingestOne
  split
  · exact ⟨(fun _ none => by cases none), stores⟩
  · next news heard =>
      have known := admits_of_heard? admits heard
      have learned := stores.learnRoute link news
      unfold AddressBook.hear
      split
      · exact ⟨(fun _ none => by cases none),
          learned.of_modify (Entry.keepsPlaces_heard known) rfl⟩
      · refine ⟨?_, learned.of_insert known rfl⟩
        intro added same
        rw [← Option.some.inj same]
        exact known

/-- What a book takes in, and what of it is new, is made of what it has heard. -/
theorem ingest (stores : places.Stores book) (link : LinkId) {addresses : List PeerAddress}
    (admits : ∀ address ∈ addresses, places.Admits address) :
    (∀ address ∈ (book.ingest link addresses).1, places.Admits address) ∧
      places.Stores (book.ingest link addresses).2 := by
  unfold AddressBook.ingest
  have heard : ∀ address ∈ addresses.take maxAddressesPerMessage, places.Admits address :=
    fun address member => admits address (List.mem_of_mem_take member)
  generalize addresses.take maxAddressesPerMessage = told at heard
  induction told generalizing book with
  | nil => exact ⟨fun _ member => absurd member List.not_mem_nil, stores⟩
  | cons address rest hypothesis =>
      obtain ⟨first, kept⟩ := stores.ingestOne link (heard address List.mem_cons_self)
      obtain ⟨others, after⟩ := hypothesis kept fun other member =>
        heard other (List.mem_cons_of_mem address member)
      refine ⟨?_, after⟩
      intro added member
      rcases List.mem_append.1 member with own | later
      · exact first added (Option.mem_toList.1 own)
      · exact others added later

/-! ## Choosing addresses -/

theorem values (stores : places.Stores book) {entry : Entry}
    (member : entry ∈ book.entries.values) : places.Admits entry.address :=
  stores entry.address.endpoint entry (find?_of_mem_values member)

theorem pick? (stores : places.Stores book) {isOpen : LinkId → Bool} {now : Nat}
    {lots : List Nat} (picked : book.pick? isOpen now lots = some address) :
    places.Admits address := by
  have member := mem_of_drawOne? picked
  obtain ⟨entry, eligible, same⟩ := List.mem_map.1 member
  rw [← same]
  exact stores.values ((List.mem_filter.1 eligible).1)

theorem query (stores : places.Stores book) {protocols : Protocols} {services : Services}
    {now : Nat} {lots : List Nat}
    (member : address ∈ book.query protocols services now lots) : places.Admits address := by
  have drawn := (draw_perm lots _).mem_iff.1 (List.mem_of_mem_take member)
  obtain ⟨entry, matching, same⟩ := List.mem_map.1 drawn
  rw [← same]
  exact stores.values ((List.mem_filter.1 matching).1)

end Places.Stores

end PeerOverlay
