import PeerOverlay.Proofs.AddressBook.Entries

/-!
# Where an address book holds links

A book holds a link with the endpoint to which it is connected, in the entry of that endpoint,
and in the routes that lead through it.  The entries hold no other links than the connected
ones, and routes through a link come only from the addresses that are heard through it.
-/

namespace PeerOverlay.AddressBook

variable {book before after : AddressBook} {address tested : PeerAddress} {link other : LinkId}

/-! ## Links in entries -/

/-- Whether the entry of an address holds a link. -/
def Holds (book : AddressBook) (address : PeerAddress) (link : LinkId) : Prop :=
  book.Has address fun entry => entry.link = some link

namespace Entry

variable {link : LinkId}

theorem not_link_ofAddress (address : PeerAddress) : ¬ (ofAddress address).link = some link :=
  (Option.some_ne_none link).symm

theorem reflects_link_dialed : Reflects (fun entry => entry.link = some link) dialed :=
  fun _ holds => holds

theorem reflects_link_bannedTo (moment : Nat) :
    Reflects (fun entry => entry.link = some link) fun entry => entry.bannedTo moment :=
  fun _ holds => holds

theorem reflects_link_heard (news : PeerAddress) :
    Reflects (fun entry => entry.link = some link) fun entry => entry.heard news :=
  fun _ holds => holds

theorem reflects_link_unreached :
    Reflects (fun entry => entry.link = some link) unreached := by
  intro entry holds
  unfold unreached at holds
  split at holds
  · exact holds
  · cases holds

end Entry

/-- Whether the entries hold only links that are connected, each in the entry of its
endpoint. -/
def Linked (book : AddressBook) : Prop :=
  ∀ address link, book.Holds address link → book.connectedLinks.get? link = some address.endpoint

namespace Linked

theorem of_fewer (linked : before.Linked) (links : after.connectedLinks = before.connectedLinks)
    (fewer : ∀ {address link}, after.Holds address link → before.Holds address link) :
    after.Linked := by
  intro address link holds
  rw [links]
  exact linked address link (fewer holds)

theorem markConnecting (linked : book.Linked) (address : PeerAddress) :
    (book.markConnecting address).Linked :=
  linked.of_fewer rfl
    (Has.of_changeOrAdd Entry.keepsEndpoint_dialed Entry.reflects_link_dialed
      Entry.not_link_ofAddress)

theorem markUnreachable (linked : book.Linked) (address : PeerAddress) :
    (book.markUnreachable address).Linked :=
  linked.of_fewer rfl (Has.of_markUnreachable Entry.reflects_link_unreached)

theorem ban (linked : book.Linked) (address : PeerAddress) (now : Nat) :
    (book.ban address now).Linked :=
  linked.of_fewer rfl
    (Has.of_changeOrAdd (Entry.keepsEndpoint_bannedTo _) (Entry.reflects_link_bannedTo _)
      Entry.not_link_ofAddress)

theorem markUnroutable (linked : book.Linked) (link : LinkId) (signalId : SignalId) :
    (book.markUnroutable link signalId).Linked := by
  unfold AddressBook.markUnroutable
  split
  · exact linked
  · exact linked.of_fewer rfl (Has.of_entries rfl)

theorem ingest (linked : book.Linked) (link : LinkId) (addresses : List PeerAddress) :
    (book.ingest link addresses).2.Linked :=
  linked.of_fewer (connectedLinks_ingest book link addresses)
    (Has.of_ingest Entry.reflects_link_heard Entry.not_link_ofAddress)

/-- A link that is not connected yet gets the entry of its endpoint. -/
theorem markConnected (linked : book.Linked) (absent : book.connectedLinks.get? link = none)
    (address : PeerAddress) : (book.markConnected link address).Linked := by
  intro tested other holds
  rw [connectedLinks_markConnected, Table.get?_insert]
  rcases Has.of_markConnected holds with ⟨same, own⟩ | earlier
  · rw [if_pos (Option.some.inj own), same]
  · have known := linked tested other earlier
    have different : link ≠ other := by
      rintro rfl
      exact Option.some_ne_none _ (known.symm.trans absent)
    rw [if_neg different, known]

theorem markDisconnected (linked : book.Linked) (link : LinkId) :
    (book.markDisconnected link).Linked := by
  intro tested other holds
  rw [get?_connectedLinks_markDisconnected]
  rcases Has.of_markDisconnected holds with ⟨_, cleared⟩ | ⟨elsewhere, earlier⟩
  · obtain ⟨entry, _, isHeld⟩ := cleared
    cases isHeld
  · have known := linked tested other earlier
    have different : link ≠ other := by
      rintro rfl
      exact elsewhere known
    rw [if_neg different, known]

end Linked

/-! ## Links in routes -/

/-- Whether some route leads through a link. -/
def leadsThrough (book : AddressBook) (link : LinkId) : Bool :=
  book.routes.values.any fun routes => routes.any fun route => route.link == link

theorem leadsThrough_iff :
    book.leadsThrough link = true ↔
      ∃ signalId routes, book.routes.get? signalId = some routes ∧
        ∃ route ∈ routes, route.link = link := by
  unfold leadsThrough Table.values
  simp only [List.any_eq_true, List.mem_map, beq_iff_eq, Prod.exists]
  constructor
  · rintro ⟨_, ⟨signalId, routes, row, rfl⟩, leads⟩
    exact ⟨signalId, routes, (Table.mem_rows_iff _ _ _).1 row, leads⟩
  · rintro ⟨signalId, routes, found, leads⟩
    exact ⟨routes, ⟨signalId, routes, (Table.mem_rows_iff _ _ _).2 found, rfl⟩, leads⟩

theorem leadsThrough_congr (routes : after.routes = before.routes) (link : LinkId) :
    after.leadsThrough link = before.leadsThrough link := by
  unfold leadsThrough
  rw [routes]

theorem routes_miss (book : AddressBook) (address : PeerAddress) :
    (book.miss address).routes = book.routes := by
  unfold miss
  split <;> rfl

/-- Routes that are among those of an earlier book lead through no further link. -/
theorem leadsThrough_of_fewer
    (fewer : ∀ {signalId routes route}, after.routes.get? signalId = some routes → route ∈ routes →
      ∃ earlier, before.routes.get? signalId = some earlier ∧ route ∈ earlier)
    (leads : after.leadsThrough link = true) : before.leadsThrough link = true := by
  obtain ⟨signalId, routes, found, route, member, own⟩ := leadsThrough_iff.1 leads
  obtain ⟨earlier, known, among⟩ := fewer found member
  exact leadsThrough_iff.2 ⟨signalId, earlier, known, route, among, own⟩

theorem leadsThrough_markUnroutable {signalId : SignalId}
    (leads : (book.markUnroutable other signalId).leadsThrough link = true) :
    book.leadsThrough link = true := by
  unfold markUnroutable at leads
  split at leads
  · exact leads
  · next routes known =>
      apply leadsThrough_of_fewer _ leads
      intro tested kept route found member
      dsimp only at found
      split at found
      · rw [Table.get?_erase] at found
        split at found
        · cases found
        · exact ⟨kept, found, member⟩
      · rw [Table.get?_insert] at found
        split at found
        · next same =>
            rw [← Option.some.inj found] at member
            exact ⟨routes, same ▸ known, (List.mem_filter.1 member).1⟩
        · exact ⟨kept, found, member⟩

/-- What is left of the routes when those through a link are dropped. -/
theorem get?_routes_dropRoutes {signalId : SignalId} {routes : List Route}
    (found : (book.dropRoutes link).routes.get? signalId = some routes) :
    ∃ earlier, book.routes.get? signalId = some earlier ∧
      routes = earlier.filter fun route => route.link ≠ link := by
  have filtered := (Table.get?_filter _ _ _).symm.trans found
  have kept := (Option.filter_eq_some_iff.1 filtered).1
  rw [Table.get?_mapValues] at kept
  obtain ⟨earlier, known, same⟩ := Option.map_eq_some_iff.1 kept
  exact ⟨earlier, known, same.symm⟩

theorem leadsThrough_dropRoutes (leads : (book.dropRoutes other).leadsThrough link = true) :
    link ≠ other ∧ book.leadsThrough link = true := by
  obtain ⟨signalId, routes, found, route, member, own⟩ := leadsThrough_iff.1 leads
  obtain ⟨earlier, known, rfl⟩ := get?_routes_dropRoutes found
  obtain ⟨among, elsewhere⟩ := List.mem_filter.1 member
  refine ⟨?_, leadsThrough_iff.2 ⟨signalId, earlier, known, route, among, own⟩⟩
  rw [← own]
  exact of_decide_eq_true elsewhere

/-- With a link that is gone no route is left through it. -/
theorem leadsThrough_markDisconnected
    (leads : (book.markDisconnected other).leadsThrough link = true) :
    link ≠ other ∧ book.leadsThrough link = true := by
  unfold markDisconnected at leads
  split at leads
  · exact leadsThrough_dropRoutes leads
  · exact leadsThrough_dropRoutes leads

theorem mem_putRoute {distance : UInt8} {routes : List Route} {route : Route}
    (member : route ∈ putRoute other distance routes) : route.link = other ∨ route ∈ routes := by
  induction routes with
  | nil =>
      rw [List.mem_singleton.1 member]
      exact .inl rfl
  | cons first rest hypothesis =>
      unfold putRoute at member
      split at member
      · rcases List.mem_cons.1 member with rfl | later
        · exact .inl rfl
        · exact .inr (List.mem_cons_of_mem first later)
      · rcases List.mem_cons.1 member with rfl | later
        · exact .inr (List.mem_cons_self ..)
        · exact (hypothesis later).imp id (List.mem_cons_of_mem first)

theorem leadsThrough_addRoute {signalId : SignalId} {distance : UInt8}
    (leads : (book.addRoute signalId other distance).leadsThrough link = true) :
    link = other ∨ book.leadsThrough link = true := by
  obtain ⟨tested, routes, found, route, member, own⟩ := leadsThrough_iff.1 leads
  unfold addRoute at found
  dsimp only at found
  rw [Table.get?_insert] at found
  split at found
  · rw [← Option.some.inj found, nearestFirst, List.mem_mergeSort] at member
    rcases mem_putRoute member with isOther | earlier
    · exact .inl (own.symm.trans isOther)
    · right
      cases known : book.routes.get? signalId with
      | none =>
          rw [known] at earlier
          cases earlier
      | some before =>
          rw [known] at earlier
          exact leadsThrough_iff.2 ⟨signalId, before, known, route, earlier, own⟩
  · exact .inr (leadsThrough_iff.2 ⟨tested, routes, found, route, member, own⟩)

/-- Addresses that are heard bring routes only through the link that they come from. -/
theorem leadsThrough_ingest {addresses : List PeerAddress}
    (leads : (book.ingest other addresses).2.leadsThrough link = true) :
    link = other ∨ book.leadsThrough link = true := by
  unfold ingest at leads
  generalize addresses.take maxAddressesPerMessage = heard at leads
  induction heard generalizing book with
  | nil => exact .inr leads
  | cons address rest hypothesis =>
      rcases hypothesis leads with isOther | before
      · exact .inl isOther
      · split at before
        · exact .inr before
        · next news _ =>
            have learned : (book.learnRoute other news).leadsThrough link = true := by
              unfold hear at before
              split at before <;> exact before
            unfold learnRoute at learned
            split at learned
            · exact .inr learned
            · exact leadsThrough_addRoute learned

end PeerOverlay.AddressBook
