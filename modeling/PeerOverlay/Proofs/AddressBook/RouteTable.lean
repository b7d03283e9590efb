import PeerOverlay.Proofs.AddressBook.Links
import PeerOverlay.Proofs.AddressBook.Operations
import PeerOverlay.Proofs.AddressBook.Routes

/-!
# The route table

Whatever is done to an address book, its routes to each relayed peer lead through different links
and stand in order of their distances, and the distance of a route is the least at which the peer
was accepted through that link since the route was last taken away.  A lookup answers with the
link of the peer itself if it is connected through one that is open, and else with an open link
of least distance.
-/

namespace PeerOverlay.AddressBook

/-! ## Routes to one peer -/

/-- Whether routes lead through different links and stand in order of their distances. -/
structure Arranged (routes : List Route) : Prop where
  distinct : (routes.map Route.link).Nodup
  nearestFirst : routes.Pairwise fun first second => first.distance ≤ second.distance

/-- The distance at which a peer is reached through a link, if it is. -/
def distanceThrough (link : LinkId) (routes : List Route) : Option UInt8 :=
  (routes.find? fun route => route.link = link).map Route.distance

variable {routes : List Route} {link : LinkId}

theorem distanceThrough_eq_some_iff (distinct : (routes.map Route.link).Nodup)
    {distance : UInt8} :
    distanceThrough link routes = some distance ↔ ⟨link, distance⟩ ∈ routes := by
  induction routes with
  | nil => simp [distanceThrough]
  | cons route rest hypothesis =>
      rw [List.map_cons, List.nodup_cons] at distinct
      have later := hypothesis distinct.2
      unfold distanceThrough at later ⊢
      obtain ⟨known, near⟩ := route
      by_cases same : known = link
      · subst same
        have absent : (⟨known, distance⟩ : Route) ∉ rest := fun member =>
          distinct.1 (List.mem_map.2 ⟨_, member, rfl⟩)
        simp [absent, eq_comm]
      · simpa [same, Ne.symm same] using later

theorem distanceThrough_filter (gone : LinkId) (routes : List Route) :
    distanceThrough link (routes.filter (·.link ≠ gone)) =
      if gone = link then none else distanceThrough link routes := by
  unfold distanceThrough
  rw [List.find?_filter]
  by_cases same : gone = link
  · subst same
    simp
  · rw [if_neg same]
    congr 2
    funext route
    by_cases here : route.link = link
    · simp [here, Ne.symm same]
    · simp [here]

/-- Of two distances through one link the shorter one is kept. -/
theorem distanceThrough_putRoute (target : LinkId) (distance : UInt8) (routes : List Route) :
    distanceThrough link (putRoute target distance routes) =
      if target = link then
        some ((distanceThrough link routes).elim distance fun known => min known distance)
      else distanceThrough link routes := by
  induction routes with
  | nil => by_cases same : target = link <;> simp [putRoute, distanceThrough, same]
  | cons route rest hypothesis =>
      obtain ⟨known, near⟩ := route
      unfold putRoute
      by_cases same : known = target
      · subst same
        by_cases here : known = link
        · simp [distanceThrough, here, shorter_eq_min]
        · simp [distanceThrough, here]
      · by_cases here : known = link
        · subst here
          simp [distanceThrough, same, Ne.symm same]
        · unfold distanceThrough at hypothesis ⊢
          simpa [same, here] using hypothesis

theorem map_link_putRoute_subset (target : LinkId) (distance : UInt8) {routes : List Route} :
    ∀ link ∈ (putRoute target distance routes).map Route.link,
      link = target ∨ link ∈ routes.map Route.link := by
  intro link member
  obtain ⟨route, among, rfl⟩ := List.mem_map.1 member
  exact (mem_putRoute among).imp id fun earlier => List.mem_map.2 ⟨route, earlier, rfl⟩

theorem nodup_putRoute (target : LinkId) (distance : UInt8)
    (distinct : (routes.map Route.link).Nodup) :
    ((putRoute target distance routes).map Route.link).Nodup := by
  induction routes with
  | nil => simp [putRoute]
  | cons route rest hypothesis =>
      rw [List.map_cons, List.nodup_cons] at distinct
      unfold putRoute
      split
      · next same =>
          rw [List.map_cons, List.nodup_cons, ← same]
          exact distinct
      · next other =>
          rw [List.map_cons, List.nodup_cons]
          refine ⟨fun member => ?_, hypothesis distinct.2⟩
          rcases map_link_putRoute_subset target distance _ member with same | earlier
          · exact other same
          · exact distinct.1 earlier

theorem perm_nearestFirst (routes : List Route) : (nearestFirst routes).Perm routes :=
  List.mergeSort_perm routes _

theorem pairwise_nearestFirst (routes : List Route) :
    (nearestFirst routes).Pairwise fun first second => first.distance ≤ second.distance := by
  have transitive (first second third : Route)
      (near : decide (first.distance ≤ second.distance) = true)
      (far : decide (second.distance ≤ third.distance) = true) :
      decide (first.distance ≤ third.distance) = true :=
    decide_eq_true (UInt8.le_trans (of_decide_eq_true near) (of_decide_eq_true far))
  have total (first second : Route) :
      (decide (first.distance ≤ second.distance) ||
        decide (second.distance ≤ first.distance)) = true := by
    rcases UInt8.le_total first.distance second.distance with near | far
    · simp [near]
    · simp [far]
  exact (List.pairwise_mergeSort transitive total routes).imp of_decide_eq_true

theorem nearestFirst_putRoute_ne_nil (target : LinkId) (distance : UInt8) (routes : List Route) :
    nearestFirst (putRoute target distance routes) ≠ [] := by
  intro none
  have same := perm_nearestFirst (putRoute target distance routes)
  rw [none] at same
  have without := same.nil_eq
  cases routes with
  | nil => cases without
  | cons route rest =>
      unfold putRoute at without
      split at without <;> cases without

namespace Arranged

theorem nil : Arranged [] := ⟨List.nodup_nil, .nil⟩

theorem filter (arranged : Arranged routes) (keep : Route → Bool) :
    Arranged (routes.filter keep) where
  distinct := arranged.distinct.sublist (List.filter_sublist.map Route.link)
  nearestFirst := arranged.nearestFirst.filter keep

theorem put (arranged : Arranged routes) (target : LinkId) (distance : UInt8) :
    Arranged (AddressBook.nearestFirst (putRoute target distance routes)) where
  distinct := ((perm_nearestFirst _).map Route.link).nodup_iff.2
    (nodup_putRoute target distance arranged.distinct)
  nearestFirst := pairwise_nearestFirst _

end Arranged

theorem distanceThrough_nearestFirst (distinct : (routes.map Route.link).Nodup) :
    distanceThrough link (nearestFirst routes) = distanceThrough link routes := by
  have same := perm_nearestFirst routes
  have sorted := (same.map Route.link).nodup_iff.2 distinct
  refine Option.ext fun distance => ?_
  rw [distanceThrough_eq_some_iff sorted, distanceThrough_eq_some_iff distinct, same.mem_iff]

/-! ## Routes of a book -/

variable {book changed : AddressBook}

theorem routesTo_addRoute (book : AddressBook) (signalId : SignalId) (link : LinkId)
    (distance : UInt8) (tested : SignalId) :
    (book.addRoute signalId link distance).routesTo tested =
      if signalId = tested then nearestFirst (putRoute link distance (book.routesTo signalId))
      else book.routesTo tested := by
  unfold addRoute routesTo
  dsimp only
  rw [Table.get?_insert]
  split <;> rfl

theorem routesTo_dropRoutes (book : AddressBook) (link : LinkId) (tested : SignalId) :
    (book.dropRoutes link).routesTo tested = (book.routesTo tested).filter (·.link ≠ link) := by
  unfold dropRoutes routesTo
  dsimp only
  rw [Table.get?_filter, Table.get?_mapValues]
  cases book.routes.get? tested with
  | none => rfl
  | some routes =>
      show ((some (routes.filter (·.link ≠ link))).filter fun kept => !kept.isEmpty).getD [] =
        routes.filter (·.link ≠ link)
      cases routes.filter (·.link ≠ link) <;> rfl

theorem min?_concat (distances : List UInt8) (distance : UInt8) :
    (distances ++ [distance]).min? =
      some (distances.min?.elim distance fun known => min known distance) := by
  cases distances with
  | nil => rfl
  | cons first rest =>
      rw [List.cons_append, List.min?_cons', List.min?_cons', List.foldl_append]
      rfl

/-- Whether the routes of a book are arranged, none of them stored without a way, and have the
least of the distances that are on record for them. -/
structure Tabulates (book : AddressBook) (record : LinkId → SignalId → List UInt8) : Prop where
  stored : ∀ signalId, book.routes.get? signalId ≠ some []
  arranged : ∀ signalId, Arranged (book.routesTo signalId)
  least : ∀ link signalId,
    distanceThrough link (book.routesTo signalId) = (record link signalId).min?

namespace Tabulates

variable {record : LinkId → SignalId → List UInt8}

theorem of_routes (same : changed.routes = book.routes) (tabulates : book.Tabulates record) :
    changed.Tabulates record := by
  refine ⟨?_, ?_, ?_⟩
  · rw [same]
    exact tabulates.stored
  · intro signalId
    rw [routesTo_congr same]
    exact tabulates.arranged signalId
  · intro link signalId
    rw [routesTo_congr same]
    exact tabulates.least link signalId

theorem addRoute (tabulates : book.Tabulates record) (signalId : SignalId) (target : LinkId)
    (distance : UInt8) :
    (book.addRoute signalId target distance).Tabulates fun link name =>
      record link name ++ if target = link ∧ signalId = name then [distance] else [] := by
  refine ⟨?_, ?_, ?_⟩
  · intro name empty
    rw [AddressBook.addRoute, Table.get?_insert] at empty
    split at empty
    · exact nearestFirst_putRoute_ne_nil _ _ _ (Option.some.inj empty)
    · exact tabulates.stored name empty
  · intro name
    rw [routesTo_addRoute]
    split
    · exact (tabulates.arranged signalId).put target distance
    · exact tabulates.arranged name
  · intro link name
    rw [routesTo_addRoute]
    by_cases same : signalId = name
    · subst same
      have put := nodup_putRoute target distance (tabulates.arranged signalId).distinct
      rw [if_pos rfl, distanceThrough_nearestFirst put, distanceThrough_putRoute,
        tabulates.least]
      by_cases here : target = link
      · rw [if_pos here, if_pos ⟨here, rfl⟩, min?_concat]
      · rw [if_neg here, if_neg fun both => here both.1, List.append_nil]
    · rw [if_neg same, if_neg fun both => same both.2, List.append_nil, tabulates.least]

theorem markUnroutable (tabulates : book.Tabulates record) (gone : LinkId)
    (signalId : SignalId) :
    (book.markUnroutable gone signalId).Tabulates fun link name =>
      if gone = link ∧ signalId = name then [] else record link name := by
  refine ⟨?_, ?_, ?_⟩
  · intro name empty
    unfold AddressBook.markUnroutable at empty
    split at empty
    · exact tabulates.stored name empty
    · dsimp only at empty
      split at empty
      · rw [Table.get?_erase] at empty
        split at empty
        · cases empty
        · exact tabulates.stored name empty
      · next some =>
          rw [Table.get?_insert] at empty
          split at empty
          · exact some (List.isEmpty_iff.2 (Option.some.inj empty))
          · exact tabulates.stored name empty
  · intro name
    rw [routesTo_markUnroutable]
    split
    · exact (tabulates.arranged name).filter _
    · exact tabulates.arranged name
  · intro link name
    rw [routesTo_markUnroutable]
    by_cases same : signalId = name
    · rw [if_pos same, distanceThrough_filter, tabulates.least]
      by_cases here : gone = link
      · rw [if_pos here, if_pos ⟨here, same⟩]
        rfl
      · rw [if_neg here, if_neg fun both => here both.1]
    · rw [if_neg same, if_neg fun both => same both.2, tabulates.least]

theorem dropRoutes (tabulates : book.Tabulates record) (gone : LinkId) :
    (book.dropRoutes gone).Tabulates fun link name =>
      if gone = link then [] else record link name := by
  refine ⟨?_, ?_, ?_⟩
  · intro name empty
    have kept := (Option.filter_eq_some_iff.1 ((Table.get?_filter ..).symm.trans empty)).2
    cases kept
  · intro name
    rw [routesTo_dropRoutes]
    exact (tabulates.arranged name).filter _
  · intro link name
    rw [routesTo_dropRoutes, distanceThrough_filter, tabulates.least]
    split <;> rfl

theorem markDisconnected (tabulates : book.Tabulates record) (gone : LinkId) :
    (book.markDisconnected gone).Tabulates fun link name =>
      if gone = link then [] else record link name := by
  refine of_routes ?_ (tabulates.dropRoutes gone)
  unfold AddressBook.markDisconnected
  split <;> rfl

/-! ## News -/

theorem of_record {other : LinkId → SignalId → List UInt8} (tabulates : book.Tabulates record)
    (same : ∀ link signalId, record link signalId = other link signalId) :
    book.Tabulates other := by
  have equal : record = other := funext fun link => funext (same link)
  exact equal ▸ tabulates

theorem learnRoute (tabulates : book.Tabulates record) (source : LinkId) (news : PeerAddress) :
    (book.learnRoute source news).Tabulates fun link name =>
      record link name ++
        if source = link then (about (.relayed name) [news]).map PeerAddress.distance else [] := by
  obtain ⟨endpoint, services, timestamp, netAddress, distance⟩ := news
  cases endpoint with
  | direct host port => exact tabulates.of_record fun link name => by simp [about]
  | unreachable peerId => exact tabulates.of_record fun link name => by simp [about]
  | relayed signalId =>
      refine (tabulates.addRoute signalId source distance).of_record fun link name => ?_
      by_cases here : source = link <;> by_cases same : signalId = name <;>
        simp [about, here, same]

theorem routes_hear (book : AddressBook) (news : PeerAddress) :
    (book.hear news).2.routes = book.routes := by
  unfold hear
  split <;> rfl

theorem ingestOne (tabulates : book.Tabulates record) (source : LinkId) (address : PeerAddress) :
    (book.ingestOne source address).2.Tabulates fun link name =>
      record link name ++
        if source = link then
          (about (.relayed name) (book.heard? address).toList).map PeerAddress.distance
        else [] := by
  unfold AddressBook.ingestOne
  cases book.heard? address with
  | none => exact tabulates.of_record fun link name => by simp [about]
  | some news => exact of_routes (routes_hear _ news) (tabulates.learnRoute source news)

theorem ingestAll (source : LinkId) (addresses : List PeerAddress)
    (tabulates : book.Tabulates record) :
    (AddressBook.ingestAll source addresses book).2.Tabulates fun link name =>
      record link name ++
        if source = link then
          (about (.relayed name) (book.accepted addresses)).map PeerAddress.distance
        else [] := by
  induction addresses generalizing book record with
  | nil => exact tabulates.of_record fun link name => by simp [about, accepted]
  | cons address rest hypothesis =>
      have later := hypothesis (tabulates.ingestOne source address)
      refine later.of_record fun link name => ?_
      rw [accepted_congr (localEndpoint_ingestOne book source address), accepted_cons]
      by_cases here : source = link <;> simp [here, about]

end Tabulates

/-! ## The record of a history -/

/-- The distances at which an operation makes a book accept a relayed peer through a link. -/
def Operation.offers (book : AddressBook) (link : LinkId) (signalId : SignalId) :
    Operation → List UInt8
  | ingest source addresses =>
      if source = link then
        (about (.relayed signalId)
          (book.accepted (addresses.take maxAddressesPerMessage))).map PeerAddress.distance
      else []
  | _ => []

/-- Whether an operation takes the route to a relayed peer through a link away. -/
def Operation.takesAway (link : LinkId) (signalId : SignalId) : Operation → Bool
  | markDisconnected gone => gone = link
  | markUnroutable gone name => gone = link ∧ name = signalId
  | _ => false

/-- The distances at which a relayed peer was accepted through a link, after the route was last
taken away. -/
def offersSince (localEndpoint : Option Endpoint) (operations : List Operation) (link : LinkId)
    (signalId : SignalId) : List UInt8 :=
  operations.foldl
    (fun offers operation =>
      if operation.takesAway link signalId then []
      else offers ++ operation.offers (blank localEndpoint) link signalId)
    []

theorem offersSince_concat (localEndpoint : Option Endpoint) (earlier : List Operation)
    (operation : Operation) (link : LinkId) (signalId : SignalId) :
    offersSince localEndpoint (earlier ++ [operation]) link signalId =
      if operation.takesAway link signalId then []
      else
        offersSince localEndpoint earlier link signalId ++
          operation.offers (blank localEndpoint) link signalId :=
  List.foldl_append

/-- What every operation makes of the record. -/
theorem Tabulates.apply {localEndpoint : Option Endpoint} {book : AddressBook}
    {record : LinkId → SignalId → List UInt8} (tabulates : book.Tabulates record)
    (own : book.localEndpoint = localEndpoint) (operation : Operation) :
    (operation.apply book).Tabulates fun link signalId =>
      if operation.takesAway link signalId then []
      else record link signalId ++ operation.offers (blank localEndpoint) link signalId := by
  have kept {changed : AddressBook} (same : changed.routes = book.routes) :
      changed.Tabulates fun link signalId => record link signalId ++ [] :=
    (tabulates.of_routes same).of_record fun _ _ => (List.append_nil _).symm
  cases operation with
  | add address =>
      apply kept
      show (book.add address).2.routes = _
      unfold AddressBook.add
      split <;> rfl
  | markConnecting address => exact kept rfl
  | markConnected link address => exact kept rfl
  | markDisconnected gone =>
      refine (tabulates.markDisconnected gone).of_record fun link signalId => ?_
      simp [Operation.takesAway, Operation.offers]
  | markUnreachable address => exact kept rfl
  | markUnroutable gone name =>
      refine (tabulates.markUnroutable gone name).of_record fun link signalId => ?_
      simp [Operation.takesAway, Operation.offers]
  | ban address now => exact kept rfl
  | ingest source addresses =>
      have same : book.localEndpoint = (blank localEndpoint).localEndpoint :=
        own.trans (localEndpoint_blank localEndpoint).symm
      have heard := Tabulates.ingestAll source (addresses.take maxAddressesPerMessage) tabulates
      rw [accepted_congr same] at heard
      exact heard

theorem tabulates_after (localEndpoint : Option Endpoint) (operations : List Operation) :
    (after localEndpoint operations).Tabulates
      (offersSince localEndpoint operations) := by
  induction operations using List.reverseRecOn with
  | nil =>
      have none (signalId : SignalId) : (blank localEndpoint).routes.get? signalId = none := by
        rw [routes_blank]
        rfl
      refine ⟨?_, ?_, ?_⟩
      · intro signalId stored
        exact absurd ((none signalId).symm.trans stored) (Option.some_ne_none _).symm
      · intro signalId
        rw [routesTo, after_nil, none]
        exact .nil
      · intro link signalId
        rw [routesTo, after_nil, none]
        rfl
  | append_singleton earlier operation hypothesis =>
      rw [after_concat]
      apply Tabulates.of_record
        (hypothesis.apply (localEndpoint_after localEndpoint earlier) operation)
      intro link signalId
      rw [offersSince_concat]

/-! ## Looking up -/

/-- Whether a relayed peer is connected itself, through a link that is open. -/
def OwnWay (book : AddressBook) (isOpen : LinkId → Bool) (signalId : SignalId) (link : LinkId) :
    Prop :=
  ∃ entry, book.entries.get? (.relayed signalId) = some entry ∧ entry.standing = .connected ∧
    entry.link = some link ∧ isOpen link = true

/-- Whether an answer to the question for the way to a relayed peer is the link of the peer
itself, or else the link of a nearest open route, and none only if there is no such link. -/
structure ShowsWay (book : AddressBook) (isOpen : LinkId → Bool) (signalId : SignalId)
    (answer : Option LinkId) : Prop where
  own : ∀ link, book.OwnWay isOpen signalId link → answer = some link
  nearest : ∀ link, answer = some link → ¬ book.OwnWay isOpen signalId link →
    ∃ route ∈ book.routesTo signalId, route.link = link ∧ isOpen link = true ∧
      ∀ other ∈ book.routesTo signalId, isOpen other.link = true →
        route.distance ≤ other.distance
  none_iff : answer = none ↔
    (∀ link, ¬ book.OwnWay isOpen signalId link) ∧
      ∀ route ∈ book.routesTo signalId, isOpen route.link = false

section Lookup

variable {isOpen : LinkId → Bool} {signalId : SignalId}

theorem directRoute?_eq_some_iff :
    book.directRoute? isOpen signalId = some link ↔ book.OwnWay isOpen signalId link := by
  unfold directRoute? OwnWay
  cases book.entries.get? (.relayed signalId) with
  | none => simp
  | some entry =>
      by_cases connected : entry.standing = .connected
      · simp [connected, Option.filter_eq_some_iff]
      · simp [connected]

/-- Of arranged routes, the first open one is a nearest one. -/
theorem Arranged.le_of_find? {routes : List Route} (arranged : Arranged routes) {route : Route}
    (found : routes.find? (fun route => isOpen route.link) = some route) {other : Route}
    (member : other ∈ routes) (opened : isOpen other.link = true) :
    route.distance ≤ other.distance := by
  obtain ⟨_, earlier, later, rfl, closed⟩ := List.find?_eq_some_iff_append.1 found
  rcases List.mem_append.1 member with before | after
  · have shut := closed other before
    rw [opened] at shut
    cases shut
  · rcases List.mem_cons.1 after with rfl | behind
    · exact UInt8.le_refl _
    · have nearer := (List.pairwise_append.1 arranged.nearestFirst).2.1
      exact (List.pairwise_cons.1 nearer).1 other behind

theorem showsWay_lookup? (arranged : Arranged (book.routesTo signalId)) :
    book.ShowsWay isOpen signalId (book.lookup? isOpen signalId) := by
  unfold lookup?
  cases direct : book.directRoute? isOpen signalId with
  | some own =>
      have isOwn := directRoute?_eq_some_iff.1 direct
      refine ⟨?_, ?_, ?_⟩
      · intro link way
        exact direct.symm.trans (directRoute?_eq_some_iff.2 way)
      · intro link answer other
        cases answer
        exact absurd isOwn other
      · exact iff_of_false (Option.some_ne_none own) fun nowhere => nowhere.1 own isOwn
  | none =>
      have notOwn (link : LinkId) : ¬ book.OwnWay isOpen signalId link := by
        intro way
        exact Option.some_ne_none link ((directRoute?_eq_some_iff.2 way).symm.trans direct)
      show book.ShowsWay isOpen signalId (book.openRoute? isOpen signalId)
      unfold openRoute?
      refine ⟨fun link way => absurd way (notOwn link), ?_, ?_⟩
      · intro link answer _
        obtain ⟨route, found, rfl⟩ := Option.map_eq_some_iff.1 answer
        have opened := List.find?_some found
        exact ⟨route, List.mem_of_find?_eq_some found, rfl, opened,
          fun other => arranged.le_of_find? found⟩
      · rw [Option.map_eq_none_iff, List.find?_eq_none]
        simp only [Bool.not_eq_true]
        exact ⟨fun closed => ⟨notOwn, closed⟩, fun nowhere => nowhere.2⟩

end Lookup

/-- Whatever was done to an address book and whichever links are open by now: no stored list of
routes is empty, each has at most one route for a link and stands in order of the distances; a
route has the least distance at which its peer was accepted through its link since it was last
taken away; and a lookup answers with the link of the peer itself, or else with the link of a
nearest open route. -/
theorem routes_arranged_and_looked_up (localEndpoint : Option Endpoint)
    (operations : List Operation) (signalId : SignalId) :
    (∀ routes, (after localEndpoint operations).routes.get? signalId = some routes →
      routes ≠ [] ∧ Arranged routes) ∧
    (∀ route, route ∈ (after localEndpoint operations).routesTo signalId ↔
      (offersSince localEndpoint operations route.link signalId).min? = some route.distance) ∧
    ∀ isOpen, (after localEndpoint operations).ShowsWay isOpen signalId
      ((after localEndpoint operations).lookup? isOpen signalId) := by
  have tabulates := tabulates_after localEndpoint operations
  have arranged := tabulates.arranged signalId
  refine ⟨?_, ?_, fun isOpen => showsWay_lookup? arranged⟩
  · intro routes stored
    rw [routesTo, stored] at arranged
    refine ⟨?_, arranged⟩
    rintro rfl
    exact tabulates.stored signalId stored
  · intro route
    rw [← tabulates.least, distanceThrough_eq_some_iff arranged.distinct]

/-- A book that has heard of one peer through three links, and then that it is not reached
through one of them. -/
def wellInformed : AddressBook :=
  after none
    [.ingest 1 [rumourOf "cafe" 0 2], .ingest 2 [rumourOf "cafe" 0 1],
      .ingest 2 [rumourOf "cafe" 0 0], .ingest 3 [rumourOf "cafe" 0 0],
      .markUnroutable 3 "cafe"]

example : wellInformed.routesTo "cafe" = [⟨2, 1⟩, ⟨1, 3⟩] := by cbv

example : wellInformed.lookup? (fun link => link ≠ 2) "cafe" = some 1 := by cbv

end PeerOverlay.AddressBook
