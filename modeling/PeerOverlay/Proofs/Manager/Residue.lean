import Mathlib.Data.List.Induction
import Mathlib.Data.List.Infix
import PeerOverlay.Proofs.Manager.Books
import PeerOverlay.Proofs.Manager.Containment
import PeerOverlay.Proofs.Manager.PeersPerIp

/-!
# What is left of a link that has ended

The agent of a link speaks once the link is handed over, and not after it has told that the
link has ended.  From then on neither the slots nor the entries of the book refer to the link.
The routes through it go with its peer; a link that never had a peer leaves them behind.
-/

namespace PeerOverlay

/-- Whether no link has come into a book yet. -/
structure AddressBook.Unlinked (book : AddressBook) : Prop where
  connectedLinks : book.connectedLinks = .empty
  standings : ∀ address, book.standing? address ≠ some .connected
  entries : ∀ address link, ¬ book.Holds address link
  routes : book.routes = .empty

theorem AddressBook.Unlinked.empty : AddressBook.empty.Unlinked where
  connectedLinks := rfl
  standings := fun _ => (Option.some_ne_none _).symm
  entries := by
    rintro address link ⟨entry, found, _⟩
    cases found
  routes := rfl

namespace Manager

/-! ## Agents that speak in order -/

/-- The links of which it is said in a run that they have ended, in order. -/
def endings (steps : List Step) : List LinkId :=
  steps.filterMap fun step => step.move.ending?

theorem endings_concat (earlier : List Step) (step : Step) :
    endings (earlier ++ [step]) = endings earlier ++ step.move.ending?.toList :=
  filterMap_concat_eq _ earlier step

/-- The link whose agent has caused a move.  The transport hands a link over, not an agent. -/
def Move.speaker? (move : Move) : Option LinkId :=
  if move.connection?.isSome then none
  else
    match move with
    | .event said => said.link?
    | .take said => said.link?
    | .part only => only.link?
    | .control _ => none

theorem Move.speaker?_of_hears? {move : Move} {id : LinkId} (hears : move.hears? = some id) :
    move.speaker? = some id := by
  unfold hears? at hears
  split at hears
  · exact hears
  · exact hears
  · cases hears

theorem Move.speaker?_of_ending? {move : Move} {id : LinkId} (ending : move.ending? = some id) :
    move.speaker? = some id := by
  unfold ending? at ending
  split at ending
  · exact ending
  · exact ending
  · cases ending

/-- Whether every agent speaks after its link is handed over, and not after its link has
ended. -/
def InTurn (handed ended : List LinkId) : List Step → Prop
  | [] => True
  | step :: rest =>
      (∀ id ∈ step.move.speaker?, id ∈ handed ∧ id ∉ ended) ∧
        InTurn (handed ++ step.move.connection?.toList) (ended ++ step.move.ending?.toList) rest

instance decidableInTurn :
    (handed ended : List LinkId) → (steps : List Step) → Decidable (InTurn handed ended steps)
  | _, _, [] => isTrue trivial
  | handed, ended, step :: rest =>
      have := decidableInTurn (handed ++ step.move.connection?.toList)
        (ended ++ step.move.ending?.toList) rest
      inferInstanceAs (Decidable (_ ∧ _))

theorem InTurn.of_initial {handed ended : List LinkId} {steps earlier : List Step} {step : Step}
    (inTurn : InTurn handed ended steps) (initial : earlier ++ [step] <+: steps) :
    ∀ id ∈ step.move.speaker?,
      id ∈ handed ++ handedOver earlier ∧ id ∉ ended ++ endings earlier := by
  induction steps generalizing handed ended earlier with
  | nil => simp at initial
  | cons first rest hypothesis =>
      cases earlier with
      | nil =>
          obtain ⟨rfl, _⟩ := List.cons_prefix_cons.1 initial
          simpa [handedOver, endings] using inTurn.1
      | cons same others =>
          obtain ⟨rfl, later⟩ := List.cons_prefix_cons.1 initial
          rw [handedOver_cons, endings, filterMap_cons_eq, ← List.append_assoc,
            ← List.append_assoc]
          exact hypothesis inTurn.2 later

/-- Whether what is said of links comes from their agents: no link is handed over twice, no
link announces two peers, and every agent speaks in turn. -/
structure FromAgents (steps : List Step) : Prop where
  handedOnce : (handedOver steps).Nodup
  announcedOnce : (announcing steps).Nodup
  inTurn : InTurn [] [] steps

instance (steps : List Step) : Decidable (FromAgents steps) :=
  decidable_of_iff
    ((handedOver steps).Nodup ∧ (announcing steps).Nodup ∧ InTurn [] [] steps)
    ⟨fun ⟨handedOnce, announcedOnce, inTurn⟩ => ⟨handedOnce, announcedOnce, inTurn⟩,
      fun ⟨handedOnce, announcedOnce, inTurn⟩ => ⟨handedOnce, announcedOnce, inTurn⟩⟩

namespace FromAgents

variable {steps earlier : List Step} {step : Step} {id : LinkId}

theorem speaks (agents : FromAgents steps) (initial : earlier ++ [step] <+: steps)
    (speaker : step.move.speaker? = some id) : id ∈ handedOver earlier ∧ id ∉ endings earlier := by
  have spoken := agents.inTurn.of_initial initial id speaker
  rwa [List.nil_append, List.nil_append] at spoken

/-- A link that has ended is not handed over again. -/
theorem not_handed_of_ended (agents : FromAgents steps) (initial : earlier ++ [step] <+: steps)
    (ended : id ∈ endings earlier) : step.move.connection? ≠ some id := by
  obtain ⟨last, member, ending⟩ := List.mem_filterMap.1 ended
  obtain ⟨before, after, rfl⟩ := List.append_of_mem member
  have handed : id ∈ handedOver before := by
    refine (agents.speaks ?_ (Move.speaker?_of_ending? ending)).1
    refine List.IsPrefix.trans ?_ (prefix_of_initial initial)
    exact ⟨after, by rw [List.append_assoc]; rfl⟩
  have once := nodup_of_initial agents.handedOnce initial
  intro now
  apply not_mem_of_nodup_concat once now
  rw [List.filterMap_append]
  exact List.mem_append_left _ handed

end FromAgents

/-! ## Entries -/

theorem linked_apply {manager : Manager} {step : Step} (linked : manager.book.Linked)
    (mirrored : Mirrored manager)
    (unknown : ∀ peer, step.move.announcement? = some peer → manager.peerOf? peer.link = none) :
    (step.apply manager).book.Linked := by
  cases announced : step.move.announcement? with
  | some peer =>
      have heard := announced_onHandshake step.around peer (Turn.start manager step.links)
      rw [← step.turn_of_announcement? announced] at heard
      cases heard with
      | passedOver same attempts =>
          rw [Step.apply, same]
          exact linked
      | accepted slot known admitted joined attempts =>
          rw [Step.apply, joined]
          apply linked.markConnected
          rw [mirrored.links, unknown peer announced, Option.map_none]
  | none =>
      apply step.book_apply (P := AddressBook.Linked) _ linked
      constructor
      · intro book address linked
        exact linked.markConnecting address
      · intro book address linked
        exact linked.markUnreachable address
      · intro book address now linked
        exact linked.ban address now
      · intro book link signalId linked
        exact linked.markUnroutable link signalId
      · intro book link addresses _ linked
        exact linked.ingest link addresses
      · intro book link address new _
        rw [announced] at new
        cases new
      · intro book link _ linked
        exact linked.markDisconnected link

/-! ## What is gone with a link -/

/-- Whether a manager and the entries of its book have nothing more to do with a link. -/
structure Forgotten (manager : Manager) (id : LinkId) : Prop where
  slot : manager.slots.get? id = none
  peers : ∀ other peer, manager.peerOf? other = some peer → peer.link ≠ id
  connected : manager.book.connectedLinks.get? id = none
  entries : ∀ address, ¬ manager.book.Holds address id

theorem Forgotten.of_mirrored {manager : Manager} {id : LinkId} (mirrored : Mirrored manager)
    (linked : manager.book.Linked) (vacant : manager.slots.get? id = none) :
    Forgotten manager id := by
  have peerless : manager.peerOf? id = none := by rw [peerOf?, vacant, Option.bind_none]
  have unconnected : manager.book.connectedLinks.get? id = none := by
    rw [mirrored.links, peerless, Option.map_none]
  refine ⟨vacant, ?_, unconnected, ?_⟩
  · rintro other peer live rfl
    rw [mirrored.own live, live] at peerless
    cases peerless
  · intro address holds
    have known := linked address id holds
    rw [unconnected] at known
    cases known

theorem Step.get?_slots_of_ending? {step : Step} {id : LinkId}
    (ending : step.move.ending? = some id) (manager : Manager) :
    (step.apply manager).slots.get? id = none := by
  have same : (step.apply manager).slots =
      (onClosed id (Turn.start manager step.links)).manager.slots :=
    (step.unmarked_of_ending? ending manager).slots
  rw [same]
  unfold onClosed
  split
  · next vacant => exact vacant
  · next slot known =>
      have vacated : (vacate id slot step.links manager).slots.get? id = none := by
        rw [vacate_eq]
        exact (Table.get?_erase _ _ _).trans (if_pos rfl)
      dsimp only
      split <;> exact vacated

/-! ## Routes -/

/-- Without addresses that are heard through a link no route through it is learned. -/
theorem Step.leadsThrough_apply {step : Step} {manager : Manager} {id : LinkId}
    (silent : step.move.hears? ≠ some id)
    (leads : (step.apply manager).book.leadsThrough id = true) :
    manager.book.leadsThrough id = true := by
  revert leads
  apply step.book_apply (P := fun book =>
    book.leadsThrough id = true → manager.book.leadsThrough id = true) _ fun leads => leads
  constructor
  · intro book address earlier
    exact earlier
  · intro book address earlier
    exact earlier
  · intro book address now earlier
    exact earlier
  · intro book link signalId earlier leads
    exact earlier (AddressBook.leadsThrough_markUnroutable leads)
  · intro book link addresses hears earlier leads
    rcases AddressBook.leadsThrough_ingest leads with rfl | before
    · exact absurd hears silent
    · exact earlier before
  · intro book link address _ earlier
    exact earlier
  · intro book link _ earlier leads
    exact earlier (AddressBook.leadsThrough_markDisconnected leads).2

/-- Dialing changes no route. -/
theorem Checked.routes_eq {before after : Turn} (checked : Checked before after) :
    after.manager.book.routes = before.manager.book.routes := by
  cases checked with
  | idle same => rw [same]
  | dialed address free dialed =>
      cases dialed with
      | started manager attempts =>
          rw [manager]
          rfl
      | failed manager attempts =>
          rw [manager]
          rfl

/-- The routes through a link go when it ends with a peer, and stay when it ends without. -/
theorem Step.leadsThrough_of_ending? {step : Step} {id : LinkId}
    (ending : step.move.ending? = some id) (manager : Manager) :
    (step.apply manager).book.leadsThrough id =
      ((manager.peerOf? id).isNone && manager.book.leadsThrough id) := by
  have routes := (step.checked_of_ending? ending manager).routes_eq
  refine (AddressBook.leadsThrough_congr routes id).trans ?_
  unfold onClosed
  split
  · next vacant =>
      have vacant : manager.slots.get? id = none := vacant
      rw [peerOf?, vacant]
      rfl
  · next slot known =>
      have known : manager.slots.get? id = some slot := known
      rw [peerOf?, known, Option.bind_some]
      have book : (vacate id slot step.links manager).book = manager.book := by rw [vacate_eq]
      dsimp only
      split
      · next peer joined =>
          -- The book drops all routes through a link that was connected.
          rw [joined]
          apply Bool.eq_false_iff.2
          intro leads
          exact (AddressBook.leadsThrough_markDisconnected leads).1 rfl
      · next peerless =>
          rw [peerless]
          refine AddressBook.leadsThrough_congr ?_ id
          unfold missPeer
          dsimp only [Turn.updateBook, Turn.update, Turn.emit, Turn.start]
          rw [book]
          cases step.links.peerAddress? id with
          | none => rfl
          | some address => exact manager.book.routes_miss address

/-- Whether a link ends without a peer while routes lead through it. -/
def Step.Strands (step : Step) (id : LinkId) (manager : Manager) : Prop :=
  step.move.ending? = some id ∧ manager.peerOf? id = none ∧
    manager.book.leadsThrough id = true

/-! ## Runs -/

section Runs

variable (config : Config) {book : AddressBook} {steps earlier : List Step}

theorem mirrored_of_initial (unlinked : book.Unlinked) (agents : FromAgents steps)
    (initial : earlier <+: steps) : Mirrored (run (Manager.new config book) earlier) :=
  mirrored_run (.new config unlinked.connectedLinks unlinked.standings) (fun _ _ => rfl)
    (nodup_of_initial agents.handedOnce initial) (fun _ _ => rfl)
    (nodup_of_initial agents.announcedOnce initial)

theorem linked_of_initial (unlinked : book.Unlinked) (agents : FromAgents steps)
    (initial : earlier <+: steps) : (run (Manager.new config book) earlier).book.Linked := by
  induction earlier using List.reverseRecOn with
  | nil =>
      intro address link holds
      exact absurd holds (unlinked.entries address link)
  | append_singleton before step hypothesis =>
      have sooner := prefix_of_initial initial
      rw [run_append]
      apply linked_apply (hypothesis sooner) (mirrored_of_initial config unlinked agents sooner)
      intro peer announced
      exact peerOf?_eq_none_of_announcement agents.announcedOnce initial announced

theorem get?_slots_of_ended (agents : FromAgents steps) (initial : earlier <+: steps)
    {id : LinkId} (ended : id ∈ endings earlier) :
    (run (Manager.new config book) earlier).slots.get? id = none := by
  induction earlier using List.reverseRecOn with
  | nil => cases ended
  | append_singleton before step hypothesis =>
      rw [run_append]
      rw [endings_concat, List.mem_append, Option.mem_toList] at ended
      rcases ended with sooner | now
      · exact Step.get?_slots_apply_eq_none (hypothesis (prefix_of_initial initial) sooner)
          (agents.not_handed_of_ended initial sooner)
      · exact Step.get?_slots_of_ending? now _

/-- A link that does not end stranded has no route after its end. -/
theorem unrouted_of_not_strands (agents : FromAgents steps) {id : LinkId}
    (unstranded : ∀ earlier step, earlier ++ [step] <+: steps →
      ¬ step.Strands id (run (Manager.new config book) earlier))
    (initial : earlier <+: steps) (ended : id ∈ endings earlier) :
    (run (Manager.new config book) earlier).book.leadsThrough id = false := by
  induction earlier using List.reverseRecOn with
  | nil => cases ended
  | append_singleton before step hypothesis =>
      rw [run_append]
      rw [endings_concat, List.mem_append, Option.mem_toList] at ended
      apply Bool.eq_false_iff.2
      intro leads
      rcases ended with sooner | now
      · -- An agent whose link has ended tells of no addresses.
        have silent : step.move.hears? ≠ some id := fun hears =>
          (agents.speaks initial (Move.speaker?_of_hears? hears)).2 sooner
        have gone := hypothesis (prefix_of_initial initial) sooner
        exact Bool.eq_false_iff.1 gone (Step.leadsThrough_apply silent leads)
      · have stays := (step.leadsThrough_of_ending? now _).symm.trans leads
        rw [Bool.and_eq_true, Option.isNone_iff_eq_none] at stays
        exact unstranded before step initial ⟨now, stays⟩

end Runs

/-- In every run in which what is said of links comes from their agents, nothing but routes
refers to a link once it has ended.  No route leads through it either, if and only if it did
not end without a peer while routes led through it.  At first the book has no link. -/
theorem forgotten_and_unrouted_iff_not_strands (config : Config) (book : AddressBook)
    (steps : List Step) (unlinked : book.Unlinked) (agents : FromAgents steps) :
    (∀ earlier, earlier <+: steps → ∀ id ∈ endings earlier,
        Forgotten (run (Manager.new config book) earlier) id) ∧
      ∀ id,
        (∀ earlier, earlier <+: steps → id ∈ endings earlier →
            (run (Manager.new config book) earlier).book.leadsThrough id = false) ↔
          ∀ earlier step, earlier ++ [step] <+: steps →
            ¬ step.Strands id (run (Manager.new config book) earlier) := by
  constructor
  · intro earlier initial id ended
    exact .of_mirrored (mirrored_of_initial config unlinked agents initial)
      (linked_of_initial config unlinked agents initial)
      (get?_slots_of_ended config agents initial ended)
  · intro id
    constructor
    · rintro unrouted earlier step initial ⟨ending, peerless, leads⟩
      have stays := step.leadsThrough_of_ending? ending (run (Manager.new config book) earlier)
      rw [peerless, leads] at stays
      have ended : id ∈ endings (earlier ++ [step]) := by
        rw [endings_concat, ending]
        exact List.mem_append_right _ (List.mem_singleton_self id)
      have gone := unrouted (earlier ++ [step]) initial ended
      rw [run_append] at gone
      exact Bool.false_ne_true (gone.symm.trans stays)
    · intro unstranded earlier initial ended
      exact unrouted_of_not_strands config agents unstranded initial ended

/-- A host has become a peer, and another one announces itself, tells of a node behind it, and
leaves. -/
def visit (host : String) : List Step :=
  let links : Links :=
    (Table.empty.insert 1 (.opened 1 .inbound .direct (some (.ip "2.2.2.2")) none)).insert 2
      (.opened 2 .inbound .direct (some (.ip host)) none)
  let peer (link : LinkId) (host : String) : Peer := {
    link := link
    address := hostAddress host
    version := 2
    startHeight := 0
    totalWork := 0
  }
  [.plain links (.event (.connection 1)),
    .plain links (.event (.handshake (peer 1 "2.2.2.2"))),
    .plain links (.event (.connection 2)),
    .plain links (.event (.handshake (peer 2 host))),
    .plain links (.event (.addresses 2 [.fresh (.relayed "bbbb") .full 0])),
    .plain links (.event (.closed 2 true))]

theorem forgotten_visit :
    (AddressBook.empty.Unlinked ∧ FromAgents (visit "3.3.3.3")) ∧
      (run (atHost "1.1.1.1") ((visit "3.3.3.3").take 5)).book.leadsThrough 2 = true ∧
      Forgotten (run (atHost "1.1.1.1") (visit "3.3.3.3")) 2 ∧
      ∀ earlier step, earlier ++ [step] <+: visit "3.3.3.3" →
        ¬ step.Strands 2 (run (atHost "1.1.1.1") earlier) := by
  have agents : FromAgents (visit "3.3.3.3") := by decide
  obtain ⟨forgotten, unrouted⟩ := forgotten_and_unrouted_iff_not_strands
    (.full (hostAddress "1.1.1.1") "") .empty (visit "3.3.3.3") .empty agents
  have gone : ∀ earlier ∈ (visit "3.3.3.3").inits, 2 ∈ endings earlier →
      (run (atHost "1.1.1.1") earlier).book.leadsThrough 2 = false := by
    decide +kernel
  refine ⟨⟨.empty, agents⟩, by decide +kernel,
    forgotten _ (List.prefix_refl _) 2 (by decide), (unrouted 2).1 ?_⟩
  intro earlier initial
  exact gone earlier ((List.mem_inits earlier _).2 initial)

/-- The visitor comes from a host that is a peer already, so it is turned away.  Its link has
ended, and a route still leads through it. -/
theorem route_outlives_link :
    (AddressBook.empty.Unlinked ∧ FromAgents (visit "2.2.2.2")) ∧
      2 ∈ endings (visit "2.2.2.2") ∧
      (run (atHost "1.1.1.1") (visit "2.2.2.2")).book.leadsThrough 2 = true :=
  ⟨⟨.empty, by decide⟩, by decide, by decide +kernel⟩

end Manager

end PeerOverlay
