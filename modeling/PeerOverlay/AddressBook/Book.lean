import PeerOverlay.AddressBook.Entry
import PeerOverlay.Draw

/-!
# The address book

The address book stores addresses and where the connections to them stand.  It
learns through which links signals reach relayed peers, it never hands out the
address of its own node, and it proposes addresses to connect to.
-/

namespace PeerOverlay

open AddressBook (Entry Standing)

/-- A link through which signals reach a relayed peer. -/
structure AddressBook.Route where
  link : LinkId
  distance : UInt8
  deriving DecidableEq, Repr

/-! ## Entries under their endpoints -/

/-- Whether every entry stands under the endpoint of its address. -/
def AddressBook.Keyed (entries : Table Endpoint Entry) : Prop :=
  ∀ endpoint entry, entries.get? endpoint = some entry → entry.address.endpoint = endpoint

namespace AddressBook.Keyed

variable {entries : Table Endpoint Entry}

theorem empty : Keyed .empty := by
  intro endpoint entry found
  simp at found

theorem insert (keyed : Keyed entries) {endpoint : Endpoint} {entry : Entry}
    (own : entry.address.endpoint = endpoint) : Keyed (entries.insert endpoint entry) := by
  intro tested found
  rw [Table.get?_insert]
  split
  · next same =>
      intro equality
      rw [← Option.some.inj equality, own, same]
  · exact keyed tested found

theorem modify (keyed : Keyed entries) (endpoint : Endpoint) {step : Entry → Entry}
    (keeps : Entry.KeepsEndpoint step) : Keyed (entries.modify endpoint step) := by
  intro tested found
  rw [Table.get?_modify, Option.map_eq_some_iff]
  rintro ⟨entry, known, rfl⟩
  have own := keyed tested entry known
  split
  · rw [keeps, own]
  · exact own

end AddressBook.Keyed

/-- Known addresses, connected links and routes to relayed peers. -/
structure AddressBook where
  entries : Table Endpoint Entry
  keyed : AddressBook.Keyed entries
  /-- The endpoint at the other end of each connected link. -/
  connectedLinks : Table LinkId Endpoint
  /-- The routes to each signal name, nearest first. -/
  routes : Table SignalId (List AddressBook.Route)
  /-- The endpoint of this node, if the book knows it. -/
  localEndpoint : Option Endpoint

namespace AddressBook

def empty : AddressBook where
  entries := .empty
  keyed := .empty
  connectedLinks := .empty
  routes := .empty
  localEndpoint := none

instance : Inhabited AddressBook := ⟨empty⟩

def withLocal (endpoint : Endpoint) : AddressBook :=
  { empty with localEndpoint := some endpoint }

def isLocal (book : AddressBook) (address : PeerAddress) : Bool :=
  book.localEndpoint == some address.endpoint

/-! ## What the book knows -/

def size (book : AddressBook) : Nat :=
  book.entries.size

def connectedCount (book : AddressBook) : Nat :=
  book.connectedLinks.size

def find? (book : AddressBook) (address : PeerAddress) : Option Entry :=
  book.entries.get? address.endpoint

/-- The address as the book has it, with the latest news. -/
def stored? (book : AddressBook) (address : PeerAddress) : Option PeerAddress :=
  (book.find? address).map Entry.address

def standing? (book : AddressBook) (address : PeerAddress) : Option Standing :=
  (book.find? address).map Entry.standing

def isConnected (book : AddressBook) (address : PeerAddress) : Bool :=
  book.standing? address == some .connected

def isConnecting (book : AddressBook) (address : PeerAddress) : Bool :=
  book.standing? address == some .connecting

def isBanned (book : AddressBook) (address : PeerAddress) (now : Nat) : Bool :=
  ((book.find? address).map fun entry => entry.isBanned now).getD false

/-! ## Adding addresses -/

/-- Store an address that is neither known nor the node's own; whether it was
stored. -/
def add (book : AddressBook) (address : PeerAddress) : Bool × AddressBook :=
  if book.isLocal address || book.entries.contains address.endpoint then
    (false, book)
  else
    (true,
      { book with
        entries := book.entries.insert address.endpoint (.ofAddress address)
        keyed := book.keyed.insert rfl })

/-- Store some addresses; the number of those that were stored. -/
def addAll (book : AddressBook) (addresses : List PeerAddress) : Nat × AddressBook :=
  addresses.foldl
    (fun (count, book) address =>
      let (stored, book) := book.add address
      (if stored then count + 1 else count, book))
    (0, book)

def change (book : AddressBook) (address : PeerAddress) (step : Entry → Entry)
    (keeps : Entry.KeepsEndpoint step) : AddressBook :=
  { book with
    entries := book.entries.modify address.endpoint step
    keyed := book.keyed.modify address.endpoint keeps }

/-- The entry of an address, a new one if it is not known. -/
def entryOf (book : AddressBook) (address : PeerAddress) : Entry :=
  (book.find? address).getD (.ofAddress address)

theorem entryOf_endpoint (book : AddressBook) (address : PeerAddress) :
    (book.entryOf address).address.endpoint = address.endpoint := by
  unfold entryOf
  cases found : book.find? address with
  | none => rfl
  | some entry => exact book.keyed address.endpoint entry found

/-- Change the entry of an address, which is stored if it is not known. -/
def changeOrAdd (book : AddressBook) (address : PeerAddress) (step : Entry → Entry)
    (keeps : Entry.KeepsEndpoint step) : AddressBook :=
  { book with
    entries := book.entries.insert address.endpoint (step (book.entryOf address))
    keyed := book.keyed.insert ((keeps _).trans (book.entryOf_endpoint address)) }

theorem find?_change (book : AddressBook) (address : PeerAddress) {step : Entry → Entry}
    (keeps : Entry.KeepsEndpoint step) (tested : PeerAddress) :
    (book.change address step keeps).find? tested =
      (book.find? tested).map fun entry =>
        if tested.endpoint = address.endpoint then step entry else entry :=
  Table.get?_modify book.entries address.endpoint step tested.endpoint

theorem find?_changeOrAdd (book : AddressBook) (address : PeerAddress)
    {step : Entry → Entry} (keeps : Entry.KeepsEndpoint step) (tested : PeerAddress) :
    (book.changeOrAdd address step keeps).find? tested =
      if address.endpoint = tested.endpoint then some (step (book.entryOf address))
      else book.find? tested :=
  Table.get?_insert book.entries address.endpoint _ tested.endpoint

theorem find?_of_mem_values {book : AddressBook} {entry : Entry}
    (stored : entry ∈ book.entries.values) : book.find? entry.address = some entry := by
  obtain ⟨⟨endpoint, entry⟩, row, rfl⟩ := List.mem_map.1 stored
  have found := (Table.mem_rows_iff book.entries endpoint entry).1 row
  rw [find?, book.keyed endpoint entry found]
  exact found

/-! ## Where connections stand -/

def markConnecting (book : AddressBook) (address : PeerAddress) : AddressBook :=
  book.changeOrAdd address Entry.dialed Entry.keepsEndpoint_dialed

def markConnected (book : AddressBook) (link : LinkId) (address : PeerAddress) :
    AddressBook :=
  let book :=
    book.changeOrAdd address (fun entry => entry.connected link address)
      (Entry.keepsEndpoint_connected link address)
  { book with connectedLinks := book.connectedLinks.insert link address.endpoint }

def dropRoutes (book : AddressBook) (link : LinkId) : AddressBook :=
  let kept := book.routes.mapValues fun _ routes => routes.filter (·.link ≠ link)
  { book with routes := kept.filter fun _ routes => !routes.isEmpty }

def markDisconnected (book : AddressBook) (link : LinkId) : AddressBook :=
  let book :=
    match book.connectedLinks.get? link with
    | none => book
    | some endpoint =>
        { book with
          connectedLinks := book.connectedLinks.erase link
          entries := book.entries.modify endpoint Entry.disconnected
          keyed := book.keyed.modify endpoint Entry.keepsEndpoint_disconnected }
  book.dropRoutes link

def markUnreachable (book : AddressBook) (address : PeerAddress) : AddressBook :=
  book.change address Entry.unreached Entry.keepsEndpoint_unreached

/-- Connecting to an address is given up, if it was under way. -/
def giveUp (book : AddressBook) (address : PeerAddress) : AddressBook :=
  if book.isConnecting address then book.markUnreachable address else book

/-- A link to an address has come to nothing.  A peer that is connected through
another link stays connected. -/
def miss (book : AddressBook) (address : PeerAddress) : AddressBook :=
  if book.isConnected address then book else book.markUnreachable address

def ban (book : AddressBook) (address : PeerAddress) (now : Nat) : AddressBook :=
  book.changeOrAdd address (fun entry => entry.bannedTo (now + banDuration))
    (Entry.keepsEndpoint_bannedTo (now + banDuration))

/-! ## Routes -/

/-- Routes with one through a link; of two distances the smaller one counts. -/
def putRoute (link : LinkId) (distance : UInt8) : List Route → List Route
  | [] => [⟨link, distance⟩]
  | route :: rest =>
      if route.link = link then
        ⟨link, if distance < route.distance then distance else route.distance⟩ :: rest
      else
        route :: putRoute link distance rest

def nearestFirst (routes : List Route) : List Route :=
  routes.mergeSort fun first second => first.distance ≤ second.distance

/-- A relayed peer has been heard of through a link. -/
def addRoute (book : AddressBook) (signalId : SignalId) (link : LinkId) (distance : UInt8) :
    AddressBook :=
  let routes := (book.routes.get? signalId).getD []
  { book with
    routes := book.routes.insert signalId (nearestFirst (putRoute link distance routes)) }

/-- Signals do not reach a relayed peer through a link. -/
def markUnroutable (book : AddressBook) (link : LinkId) (signalId : SignalId) : AddressBook :=
  match book.routes.get? signalId with
  | none => book
  | some routes =>
      let routes := routes.filter (·.link ≠ link)
      { book with
        routes :=
          if routes.isEmpty then book.routes.erase signalId
          else book.routes.insert signalId routes }

def openRoute? (book : AddressBook) (isOpen : LinkId → Bool) (signalId : SignalId) :
    Option LinkId :=
  (((book.routes.get? signalId).getD []).find? fun route => isOpen route.link).map Route.link

def hasRoute (book : AddressBook) (isOpen : LinkId → Bool) (signalId : SignalId) : Bool :=
  (book.openRoute? isOpen signalId).isSome

/-- The link of a relayed peer that is itself connected. -/
def directRoute? (book : AddressBook) (isOpen : LinkId → Bool) (signalId : SignalId) :
    Option LinkId :=
  match book.entries.get? (.relayed signalId) with
  | none => none
  | some entry =>
      if entry.standing = .connected then entry.link.filter isOpen else none

/-- The open link through which signals to a relayed peer are sent. -/
def lookup? (book : AddressBook) (isOpen : LinkId → Bool) (signalId : SignalId) :
    Option LinkId :=
  (book.directRoute? isOpen signalId).orElse fun _ => book.openRoute? isOpen signalId

/-! ## News -/

/-- One more hop, up to the largest distance that can be told. -/
def oneFurther (distance : UInt8) : UInt8 :=
  if distance = 255 then 255 else distance + 1

/-- An address as it is heard through a link: a relayed peer is one hop further
away.  The node's own address and peers too far away are not heard. -/
def heard? (book : AddressBook) (address : PeerAddress) : Option PeerAddress :=
  if book.isLocal address then
    none
  else
    match address.signalId? with
    | none => some address
    | some _ =>
        let distance := oneFurther address.distance
        if maxDistance < distance then none
        else some { address with distance := distance }

/-- A relayed peer that was heard of through a link can be reached through it. -/
def learnRoute (book : AddressBook) (link : LinkId) (news : PeerAddress) : AddressBook :=
  match news.signalId? with
  | none => book
  | some signalId => book.addRoute signalId link news.distance

/-- Store an address as it was heard, or its news; the address itself if it is
new. -/
def hear (book : AddressBook) (news : PeerAddress) : Option PeerAddress × AddressBook :=
  if book.entries.contains news.endpoint then
    (none, book.change news (fun entry => entry.heard news) (Entry.keepsEndpoint_heard news))
  else
    (some news,
      { book with
        entries := book.entries.insert news.endpoint (.ofAddress news)
        keyed := book.keyed.insert rfl })

/-- Take in one address heard through a link; the address itself if it is new. -/
def ingestOne (book : AddressBook) (link : LinkId) (address : PeerAddress) :
    Option PeerAddress × AddressBook :=
  match book.heard? address with
  | none => (none, book)
  | some news => (book.learnRoute link news).hear news

/-- Take in addresses heard through a link; those that are new, in order. -/
def ingestAll (link : LinkId) :
    List PeerAddress → AddressBook → List PeerAddress × AddressBook
  | [], book => ([], book)
  | address :: rest, book =>
      let (added, book) := book.ingestOne link address
      let (others, book) := ingestAll link rest book
      (added.toList ++ others, book)

/-- Take in the addresses of one message; those that are new, in order.  What is
beyond the limit of a message is not heard. -/
def ingest (book : AddressBook) (link : LinkId) (addresses : List PeerAddress) :
    List PeerAddress × AddressBook :=
  ingestAll link (addresses.take maxAddressesPerMessage) book

/-! ## Choosing addresses -/

def isDialable (book : AddressBook) (isOpen : LinkId → Bool) (address : PeerAddress) : Bool :=
  match address.endpoint with
  | .direct _ _ => true
  | .relayed signalId => book.hasRoute isOpen signalId
  | .unreachable _ => false

def isEligible (book : AddressBook) (isOpen : LinkId → Bool) (now : Nat) (entry : Entry) :
    Bool :=
  (entry.standing == .new || entry.standing == .failed) &&
    !entry.isTerrible && !entry.isBanned now && !book.isLocal entry.address &&
    book.isDialable isOpen entry.address

def eligible (book : AddressBook) (isOpen : LinkId → Bool) (now : Nat) : List PeerAddress :=
  (book.entries.values.filter (book.isEligible isOpen now)).map Entry.address

def pick? (book : AddressBook) (isOpen : LinkId → Bool) (now : Nat) (lots : List Nat) :
    Option PeerAddress :=
  drawOne? lots (book.eligible isOpen now)

def matchesQuery (protocols : Protocols) (services : Services) (now : Nat) (entry : Entry) :
    Bool :=
  !entry.isTerrible && !entry.isBanned now &&
    protocols.contains entry.address.protocol &&
    entry.address.services.intersects services

def matching (book : AddressBook) (protocols : Protocols) (services : Services) (now : Nat) :
    List PeerAddress :=
  (book.entries.values.filter (matchesQuery protocols services now)).map Entry.address

/-- Drawn addresses that answer a query, no more than a message holds. -/
def query (book : AddressBook) (protocols : Protocols) (services : Services) (now : Nat)
    (lots : List Nat) : List PeerAddress :=
  (draw lots (book.matching protocols services now)).take maxAddressesPerMessage

end AddressBook

end PeerOverlay
