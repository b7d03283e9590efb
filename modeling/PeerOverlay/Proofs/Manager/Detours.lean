import PeerOverlay.Proofs.AddressBook.Routes
import PeerOverlay.Proofs.Manager.Forwards

/-!
# Ways around the link through which a signal has come

A node knows several ways to the recipient of a signal, but it tries only the first one.  If this
one leads back to the link through which the signal has come, or if its queue is full, then the
signal is dropped, and the sender hears nothing of it.  Other ways are overlooked.
-/

namespace PeerOverlay.Manager

/-- Whether a plain signal is one to be passed on by a node: another node has sent it to a third
one, and it has hops left, but not more than any signal starts with. -/
structure InTransit (config : Config) (signal : Signal) : Prop where
  plain : signal.isPlain = true
  hops : signal.ttl ≠ 0
  moderate : signal.ttl ≤ config.signalTtlInitial
  foreign : signal.senderId ≠ config.signalId
  onward : signal.recipientId ≠ config.signalId

/-- The open ways to a peer that do not lead back to a link. -/
def detours (book : AddressBook) (links : Links) (arrival : LinkId) (signalId : SignalId) :
    List LinkId :=
  (book.ways links.isOpen signalId).filter fun way => way ≠ arrival

/-- Whether the first way to a peer leads back to a link, or nothing can be queued on it. -/
def FirstFails (book : AddressBook) (links : Links) (arrival : LinkId) (signalId : SignalId) :
    Prop :=
  ∃ first, book.lookup? links.isOpen signalId = some first ∧
    (first = arrival ∨ links.canSend first = false)

section

variable (around : Surroundings) (arrival : LinkId) (signal : Signal) (manager : Manager)
  (links : Links)

/-- The links after a signal was handled. -/
def linksAfter : Links :=
  (handle around (.signal arrival signal) (Turn.start manager links)).links

/-- Whether a signal is forwarded if there is a way around the link through which it has come. -/
def TakesDetour : Prop :=
  (∃ way ∈ detours manager.book links arrival signal.recipientId, links.canSend way = true) →
    ∃ way ∈ detours manager.book links arrival signal.recipientId, links.canSend way = true ∧
      linksAfter around arrival signal manager links =
        links.queue way (.signal { signal with ttl := signal.ttl - 1 })

/-- Whether a signal is dropped without an answer only if all ways lead back. -/
def DropsOnlyBack : Prop :=
  SameQueues links (linksAfter around arrival signal manager links) →
    ∀ way ∈ manager.book.ways links.isOpen signal.recipientId, way = arrival

end

section

variable {around : Surroundings} {arrival : LinkId} {signal : Signal} {manager : Manager}
  {links : Links}

theorem mem_detours {book : AddressBook} {signalId : SignalId} {way : LinkId} :
    way ∈ detours book links arrival signalId ↔
      way ∈ book.ways links.isOpen signalId ∧ way ≠ arrival := by
  unfold detours
  rw [List.mem_filter, decide_eq_true_eq]

theorem mem_ways_of_lookup? {book : AddressBook} {signalId : SignalId} {first : LinkId}
    (found : book.lookup? links.isOpen signalId = some first) :
    first ∈ book.ways links.isOpen signalId := by
  rw [AddressBook.lookup?_eq_head?_ways] at found
  exact List.mem_of_mem_head? found

theorem ways_eq_nil {book : AddressBook} {signalId : SignalId}
    (missing : book.lookup? links.isOpen signalId = none) :
    book.ways links.isOpen signalId = [] := by
  rwa [AddressBook.lookup?_eq_head?_ways, List.head?_eq_none_iff] at missing

theorem links_forward (target : LinkId) (turn : Turn) :
    (forward around target signal turn).links =
      (turn.links.send target (.signal { signal with ttl := signal.ttl - 1 })).2 := by
  unfold forward
  dsimp only
  split <;> rfl

/-- A signal is sent through the first way, unless that leads back. -/
theorem linksAfter_eq (transit : InTransit manager.config signal) {first : LinkId}
    (found : manager.book.lookup? links.isOpen signal.recipientId = some first) :
    linksAfter around arrival signal manager links =
      if first = arrival then links
      else (links.send first (.signal { signal with ttl := signal.ttl - 1 })).2 := by
  have onward : signal.recipientId ≠ (Turn.start manager links).manager.config.signalId :=
    transit.onward
  have looked : (Turn.start manager links).manager.book.lookup?
      (Turn.start manager links).links.isOpen signal.recipientId = some first := found
  unfold linksAfter
  rw [handle_signal transit.moderate transit.foreign, onSignal_of_isPlain transit.plain,
    if_neg onward]
  unfold passOn
  rw [if_neg transit.hops, looked]
  dsimp only
  split
  · rfl
  · exact links_forward first _

/-- Nothing is queued for a signal if the first way fails. -/
theorem sameQueues_of_firstFails (around : Surroundings)
    (transit : InTransit manager.config signal)
    (fails : FirstFails manager.book links arrival signal.recipientId) :
    SameQueues links (linksAfter around arrival signal manager links) := by
  obtain ⟨first, found, cause⟩ := fails
  rw [linksAfter_eq transit found]
  split
  · exact fun _ => rfl
  · next elsewhere => exact sameQueues_of_not_canSend (cause.resolve_left elsewhere) _

/-- A signal takes the first way unless that fails. -/
theorem linksAfter_of_not_firstFails (around : Surroundings)
    (transit : InTransit manager.config signal)
    (serves : ¬ FirstFails manager.book links arrival signal.recipientId) {first : LinkId}
    (found : manager.book.lookup? links.isOpen signal.recipientId = some first) :
    first ≠ arrival ∧ links.canSend first = true ∧
      linksAfter around arrival signal manager links =
        links.queue first (.signal { signal with ttl := signal.ttl - 1 }) := by
  have elsewhere : first ≠ arrival := fun back => serves ⟨first, found, .inl back⟩
  have room : links.canSend first = true := by
    rw [← Bool.not_eq_false]
    exact fun full => serves ⟨first, found, .inr full⟩
  refine ⟨elsewhere, room, ?_⟩
  rw [linksAfter_eq transit found, if_neg elsewhere, Links.send_of_canSend room]

theorem not_sameQueues_queue {way : LinkId} (room : links.canSend way = true)
    (message : Message) : ¬ SameQueues links (links.queue way message) := by
  intro same
  have queued := (queueOf_queue_self room message).symm.trans (same way)
  simp at queued

theorem not_takesDetour (transit : InTransit manager.config signal)
    (fails : FirstFails manager.book links arrival signal.recipientId)
    (free : ∃ way ∈ detours manager.book links arrival signal.recipientId,
      links.canSend way = true) :
    ¬ TakesDetour around arrival signal manager links := by
  intro takes
  obtain ⟨way, _, room, after⟩ := takes free
  have silent := sameQueues_of_firstFails around transit fails
  rw [after] at silent
  exact not_sameQueues_queue room _ silent

theorem not_dropsOnlyBack (transit : InTransit manager.config signal)
    (fails : FirstFails manager.book links arrival signal.recipientId) {way : LinkId}
    (leads : way ∈ detours manager.book links arrival signal.recipientId) :
    ¬ DropsOnlyBack around arrival signal manager links := by
  intro back
  obtain ⟨among, elsewhere⟩ := mem_detours.1 leads
  exact elsewhere (back (sameQueues_of_firstFails around transit fails) way among)

theorem takesDetour_of_not_firstFails (transit : InTransit manager.config signal)
    (serves : ¬ FirstFails manager.book links arrival signal.recipientId) :
    TakesDetour around arrival signal manager links := by
  rintro ⟨way, member, _⟩
  cases found : manager.book.lookup? links.isOpen signal.recipientId with
  | none =>
      rw [mem_detours, ways_eq_nil found] at member
      cases member.1
  | some first =>
      obtain ⟨elsewhere, room, after⟩ :=
        linksAfter_of_not_firstFails around transit serves found
      exact ⟨first, mem_detours.2 ⟨mem_ways_of_lookup? found, elsewhere⟩, room, after⟩

theorem dropsOnlyBack_of_not_firstFails (transit : InTransit manager.config signal)
    (serves : ¬ FirstFails manager.book links arrival signal.recipientId) :
    DropsOnlyBack around arrival signal manager links := by
  intro silent way member
  cases found : manager.book.lookup? links.isOpen signal.recipientId with
  | none =>
      rw [ways_eq_nil found] at member
      cases member
  | some first =>
      obtain ⟨_, room, after⟩ :=
        linksAfter_of_not_firstFails around transit serves found
      rw [after] at silent
      exact absurd silent (not_sameQueues_queue room _)

/-- In any state, a plain signal that is to be passed on is forwarded if there is a way around
the link through which it has come, if and only if the first way does not fail while a message
can be queued on another one.  It is dropped without an answer only if all ways lead back, if and
only if the first way does not fail while another one is open. -/
theorem routed_around_iff_first_serves (around : Surroundings) (arrival : LinkId) (links : Links)
    (transit : InTransit manager.config signal) :
    (TakesDetour around arrival signal manager links ↔
        ¬ (FirstFails manager.book links arrival signal.recipientId ∧
          ∃ way ∈ detours manager.book links arrival signal.recipientId,
            links.canSend way = true)) ∧
      (DropsOnlyBack around arrival signal manager links ↔
        ¬ (FirstFails manager.book links arrival signal.recipientId ∧
          ∃ way, way ∈ detours manager.book links arrival signal.recipientId)) := by
  constructor
  · constructor
    · rintro takes ⟨fails, free⟩
      exact not_takesDetour transit fails free takes
    · intro serves free
      have works : ¬ FirstFails manager.book links arrival signal.recipientId := fun fails =>
        serves ⟨fails, free⟩
      exact takesDetour_of_not_firstFails transit works free
  · constructor
    · rintro back ⟨fails, way, leads⟩
      exact not_dropsOnlyBack transit fails leads back
    · intro serves silent way member
      by_contra elsewhere
      have works : ¬ FirstFails manager.book links arrival signal.recipientId := fun fails =>
        serves ⟨fails, way, mem_detours.2 ⟨member, elsewhere⟩⟩
      exact elsewhere (dropsOnlyBack_of_not_firstFails transit works silent way member)

end

/-! ## A node that is reached through two links -/

/-- A node is heard of through a link, at some distance. -/
def Step.hearingOf (link : LinkId) (distance : UInt8) : Step :=
  .plain linksOfRelay
    (.event (.addresses link [{ PeerAddress.fresh (.relayed "bbbb") .full 0 with distance }]))

/-- A manager that has heard of a node through two links, and from further away through the
second one. -/
def managerBetween : Manager :=
  run (.new (.full (.fresh (.direct "3.3.3.3" defaultPort) .full 0) "r1") .empty)
    [.hearingOf 1 0, .hearingOf 2 1]

theorem ways_managerBetween :
    managerBetween.book.ways linksOfRelay.isOpen "bbbb" = [1, 2] := by
  have routes : managerBetween.book.routesTo "bbbb" =
      AddressBook.nearestFirst
        (AddressBook.putRoute 2 2 (AddressBook.nearestFirst [⟨1, 1⟩])) := rfl
  have one : AddressBook.nearestFirst [⟨1, 1⟩] = [⟨1, 1⟩] := List.mergeSort_singleton _
  have two : AddressBook.nearestFirst [⟨1, 1⟩, ⟨2, 2⟩] = [⟨1, 1⟩, ⟨2, 2⟩] :=
    List.mergeSort_of_pairwise (by decide)
  have direct : managerBetween.book.directRoute? linksOfRelay.isOpen "bbbb" = none := rfl
  have put : AddressBook.putRoute 2 2 [⟨1, 1⟩] = [⟨1, 1⟩, ⟨2, 2⟩] := rfl
  rw [AddressBook.ways, direct, routes, one, put, two]
  rfl

theorem inTransit_signalWithHops : InTransit managerBetween.config (signalWithHops 3) := by
  have config : managerBetween.config =
      .full (.fresh (.direct "3.3.3.3" defaultPort) .full 0) "r1" := config_run _ _
  rw [config]
  exact ⟨rfl, by decide, by decide, by decide, by decide⟩

theorem lookup?_managerBetween :
    managerBetween.book.lookup? linksOfRelay.isOpen "bbbb" = some 1 := by
  rw [AddressBook.lookup?_eq_head?_ways, ways_managerBetween]
  rfl

/-- A signal that comes through the second link is forwarded through the first one. -/
theorem routed_around_managerBetween :
    InTransit managerBetween.config (signalWithHops 3) ∧
      1 ∈ detours managerBetween.book linksOfRelay 2 "bbbb" ∧ linksOfRelay.canSend 1 = true ∧
      TakesDetour ⟨0, .none, [], []⟩ 2 (signalWithHops 3) managerBetween linksOfRelay ∧
      DropsOnlyBack ⟨0, .none, [], []⟩ 2 (signalWithHops 3) managerBetween linksOfRelay := by
  have serves : ¬ FirstFails managerBetween.book linksOfRelay 2 "bbbb" := by
    rintro ⟨first, found, fails⟩
    rw [lookup?_managerBetween] at found
    cases found
    revert fails
    decide
  have leads : 1 ∈ detours managerBetween.book linksOfRelay 2 "bbbb" := by
    rw [mem_detours, ways_managerBetween]
    decide
  obtain ⟨takes, drops⟩ := routed_around_iff_first_serves ⟨0, .none, [], []⟩ 2 linksOfRelay
    inTransit_signalWithHops
  exact ⟨inTransit_signalWithHops, leads, rfl, takes.2 fun fails => serves fails.1,
    drops.2 fun fails => serves fails.1⟩

/-- A signal that comes through the first link is dropped without an answer, although the second
one leads to its recipient and has room. -/
theorem detour_overlooked :
    InTransit managerBetween.config (signalWithHops 3) ∧
      2 ∈ detours managerBetween.book linksOfRelay 1 "bbbb" ∧ linksOfRelay.canSend 2 = true ∧
      ¬ TakesDetour ⟨0, .none, [], []⟩ 1 (signalWithHops 3) managerBetween linksOfRelay ∧
      ¬ DropsOnlyBack ⟨0, .none, [], []⟩ 1 (signalWithHops 3) managerBetween linksOfRelay := by
  have fails : FirstFails managerBetween.book linksOfRelay 1 "bbbb" :=
    ⟨1, lookup?_managerBetween, .inl rfl⟩
  have leads : 2 ∈ detours managerBetween.book linksOfRelay 1 "bbbb" := by
    rw [mem_detours, ways_managerBetween]
    decide
  exact ⟨inTransit_signalWithHops, leads, rfl,
    not_takesDetour inTransit_signalWithHops fails ⟨2, leads, rfl⟩,
    not_dropsOnlyBack inTransit_signalWithHops fails leads⟩

end PeerOverlay.Manager
