import PeerOverlay.Proofs.AddressBook.Routes
import PeerOverlay.Proofs.Manager.Books
import PeerOverlay.Proofs.Manager.Forwards

/-!
# Answers that tell of a useless route

A flagged signal takes a route away only if the node has reason to believe it: it answers a recent
forward, or it has come to the node itself and belongs to a negotiation that was started there.
What it takes away is the route through the link by which it has come.  An answer to a forward
that comes in time is believed.
-/

namespace PeerOverlay.Manager

open AddressBook (Route)
open ForwardStore (History Recent)

/-! ## What is believed -/

/-- The signal that is handled in a move, and the link through which it has come. -/
def Move.signal? : Move → Option (LinkId × Signal)
  | .event (.signal link signal) => some (link, signal)
  | .part (.route link signal) => some (link, signal)
  | _ => none

/-- Whether a node that has made some forwards has reason to believe a flagged signal. -/
structure Credible (config : Config) (connectors : Connectors) (history : History) (now : Nat)
    (signal : Signal) : Prop where
  flagged : isFlagged signal = true
  expected :
    Recent (max config.signalStoreCapacity 1) config.signalMaxAge history now
        (answeredForward signal) ∨
      signal.recipientId = config.signalId ∧
        ∃ connector, connectors.relayed = some connector ∧ connector.recognizes signal = true

section

variable {around : Surroundings} {link : LinkId} {signal : Signal} {turn : Turn}
  {id : SignalId} {route : Route}

theorem mem_routesTo_dropRoute :
    route ∈ (dropRoute link signal turn).manager.book.routesTo id ↔
      route ∈ turn.manager.book.routesTo id ∧ ¬ (id = signal.senderId ∧ route.link = link) := by
  show route ∈ (turn.manager.book.markUnroutable link signal.senderId).routesTo id ↔ _
  rw [AddressBook.routesTo_markUnroutable]
  split
  · next same => simp [same]
  · next different => simp [Ne.symm different]

theorem mem_routesTo_heedAnswer (around : Surroundings) (link : LinkId) (signal : Signal)
    (turn : Turn) (id : SignalId) (route : Route) :
    route ∈ (heedAnswer around link signal turn).manager.book.routesTo id ↔
      route ∈ turn.manager.book.routesTo id ∧
        ¬ ((isFlagged signal = true ∧
            (turn.manager.forwards.wasRecentlyForwarded (answeredForward signal)
              around.now).1 = true) ∧
          id = signal.senderId ∧ route.link = link) := by
  unfold heedAnswer
  split
  · next flagged =>
      dsimp only
      split
      · next recent =>
          rw [mem_routesTo_dropRoute]
          simp [flagged, recent, Turn.update]
      · next forgotten => simp [forgotten, Turn.update]
  · next unflagged => simp [unflagged]

theorem mem_routesTo_receive :
    route ∈ (receive around link signal turn).manager.book.routesTo id ↔
      route ∈ turn.manager.book.routesTo id ∧
        ¬ ((isFlagged signal = true ∧
            ∃ connector, around.connectors.relayed = some connector ∧
              connector.recognizes signal = true) ∧
          id = signal.senderId ∧ route.link = link) := by
  unfold receive
  split
  · next missing => simp [missing]
  · next connector known =>
      dsimp only
      rw [Turn.emit]
      split
      · next believed =>
          obtain ⟨flagged, recognized⟩ := Bool.and_eq_true_iff.1 believed
          rw [mem_routesTo_dropRoute]
          simp [flagged, known, recognized]
      · next doubted =>
          rw [Bool.and_eq_true] at doubted
          simp only [known, Option.some.injEq, exists_eq_left', doubted, false_and,
            not_false_eq_true, and_true]

theorem config_heedAnswer :
    (heedAnswer around link signal turn).manager.config = turn.manager.config :=
  (SameSeats.routed (routed_heedAnswer around link signal turn)).config

/-- A credible answer takes away the route through its link to its sender, and no signal takes
away anything else. -/
theorem mem_routesTo_onSignal {config : Config} {history : History}
    (fixed : turn.manager.config = config)
    (holds : turn.manager.forwards.Holds (max config.signalStoreCapacity 1) config.signalMaxAge
      history around.now) :
    route ∈ (onSignal around link signal turn).manager.book.routesTo id ↔
      route ∈ turn.manager.book.routesTo id ∧
        ¬ (Credible config around.connectors history around.now signal ∧
          id = signal.senderId ∧ route.link = link) := by
  have heeded := mem_routesTo_heedAnswer around link signal turn id route
  rw [holds.fst_wasRecentlyForwarded_iff] at heeded
  unfold onSignal
  dsimp only
  rw [config_heedAnswer, fixed]
  split
  · next own =>
      rw [mem_routesTo_receive, heeded]
      constructor
      · rintro ⟨⟨member, unasked⟩, unknown⟩
        refine ⟨member, ?_⟩
        rintro ⟨⟨flagged, answers | ⟨_, known⟩⟩, here⟩
        · exact unasked ⟨⟨flagged, answers⟩, here⟩
        · exact unknown ⟨⟨flagged, known⟩, here⟩
      · rintro ⟨member, doubted⟩
        refine ⟨⟨member, ?_⟩, ?_⟩
        · rintro ⟨⟨flagged, answers⟩, here⟩
          exact doubted ⟨⟨flagged, .inl answers⟩, here⟩
        · rintro ⟨⟨flagged, known⟩, here⟩
          exact doubted ⟨⟨flagged, .inr ⟨own, known⟩⟩, here⟩
  · next other =>
      rw [book_passOn, heeded]
      constructor
      · rintro ⟨member, unasked⟩
        refine ⟨member, ?_⟩
        rintro ⟨⟨flagged, answers | ⟨own, _⟩⟩, here⟩
        · exact unasked ⟨⟨flagged, answers⟩, here⟩
        · exact other own
      · rintro ⟨member, doubted⟩
        refine ⟨member, ?_⟩
        rintro ⟨⟨flagged, answers⟩, here⟩
        exact doubted ⟨⟨flagged, .inl answers⟩, here⟩

end

/-! ## Steps and runs -/

section

variable {step : Step} {manager : Manager} {link : LinkId} {signal : Signal}

theorem Move.eq_of_signal? {move : Move} (handles : move.signal? = some (link, signal)) :
    move = .event (.signal link signal) ∨ move = .part (.route link signal) := by
  unfold Move.signal? at handles
  split at handles
  · cases handles
    exact .inl rfl
  · cases handles
    exact .inr rfl
  · cases handles

/-- A signal that is handled is routed, or ignored, or a reason for a ban. -/
theorem Step.turn_of_signal? (handles : step.move.signal? = some (link, signal))
    (manager : Manager) :
    step.turn manager = onSignal step.around link signal (Turn.start manager step.links) ∨
      step.turn manager = Turn.start manager step.links ∨
        ∃ reason, step.turn manager =
          banLink step.around link reason (Turn.start manager step.links) := by
  obtain ⟨around, links, move⟩ := step
  rcases Move.eq_of_signal? handles with rfl | rfl
  · show (signalParts manager.config link signal).foldl _ _ = _ ∨
      (signalParts manager.config link signal).foldl _ _ = _ ∨
        ∃ reason, (signalParts manager.config link signal).foldl _ _ = _
    unfold signalParts
    split
    · exact .inr (.inr ⟨_, rfl⟩)
    · split
      · exact .inr (.inl rfl)
      · exact .inl rfl
  · exact .inl rfl

/-- A signal of another node that is not excessive is routed. -/
theorem Step.turn_of_moderate (manager : Manager)
    (handles : step.move.signal? = some (link, signal))
    (moderate : signal.ttl ≤ manager.config.signalTtlInitial)
    (foreign : signal.senderId ≠ manager.config.signalId) :
    step.turn manager = onSignal step.around link signal (Turn.start manager step.links) := by
  obtain ⟨around, links, move⟩ := step
  rcases Move.eq_of_signal? handles with rfl | rfl
  · exact handle_signal moderate foreign
  · rfl

theorem routes_banLink (around : Surroundings) (reason : String) (turn : Turn) :
    (banLink around link reason turn).manager.book.routes = turn.manager.book.routes := by
  rw [(banLink_eq around link reason turn).1]
  dsimp only
  cases turn.manager.accountableAddress? turn.links link <;> rfl

/-- A route that is gone after a signal was taken away by the signal for a reason. -/
theorem Step.credible_of_removed {config : Config} {history : History} {id : SignalId}
    {route : Route} (handles : step.move.signal? = some (link, signal))
    (fixed : manager.config = config)
    (holds : manager.forwards.Holds (max config.signalStoreCapacity 1) config.signalMaxAge history
      step.around.now)
    (before : route ∈ manager.book.routesTo id)
    (gone : route ∉ (step.apply manager).book.routesTo id) :
    Credible config step.around.connectors history step.around.now signal ∧
      id = signal.senderId ∧ route.link = link := by
  unfold Step.apply at gone
  rcases Step.turn_of_signal? handles manager with routed | ignored | ⟨reason, banned⟩
  · rw [routed] at gone
    by_contra doubted
    exact gone ((mem_routesTo_onSignal fixed holds).2 ⟨before, doubted⟩)
  · rw [ignored] at gone
    exact absurd before gone
  · rw [banned, AddressBook.routesTo_congr (routes_banLink _ _ _)] at gone
    exact absurd before gone

/-- Whether a plain signal is passed on through a link in a step, with a hop less. -/
def Step.PassesOn (step : Step) (manager : Manager) (link : LinkId) (signal : Signal) : Prop :=
  signal.isPlain = true ∧
    step.passedOn? manager = some (link, { signal with ttl := signal.ttl - 1 })

/-- What is passed on is not for the node itself. -/
theorem Step.PassesOn.onward (passes : step.PassesOn manager link signal) :
    signal.recipientId ≠ manager.config.signalId := by
  have remembers := step.remembers manager
  rw [passes.2] at remembers
  generalize (step.apply manager).forwards = after at remembers
  cases remembers with
  | added link sent plain onward => exact onward

theorem Step.PassesOn.forward? (passes : step.PassesOn manager link signal) :
    step.forward? manager = some (forwardOf signal, step.around.now) := by
  unfold Step.forward?
  rw [passes.2]
  rfl

theorem isFlagged_reply (ttl : UInt8) {flags : SignalFlags}
    (flagged : flags = .unroutable ∨ flags = .ttlExceeded) :
    isFlagged (signal.reply ttl flags) = true := by
  show (flags.contains .unroutable || flags.contains .ttlExceeded) = true
  rcases flagged with rfl | rfl <;> decide

end

/-- Whether signals take routes away along a run of a manager only for a reason, and answers to
forwards are heeded in time. -/
structure Heeds (config : Config) (book : AddressBook) (steps : List Step) : Prop where
  /-- A signal takes a route away only if the route leads through the link of the signal to its
  sender, and the signal is credible after the forwards that were made. -/
  attributed : ∀ earlier step link signal, earlier ++ [step] <+: steps →
    step.move.signal? = some (link, signal) →
      ∀ id, ∀ route ∈ (run (.new config book) earlier).book.routesTo id,
        route ∉ (run (.new config book) (earlier ++ [step])).book.routesTo id →
          route.link = link ∧ id = signal.senderId ∧
            Credible config step.around.connectors (forwardings (.new config book) earlier)
              step.around.now signal
  /-- After a flagged answer that comes through the link through which a signal was passed on,
  soon enough and before too many other forwards, no route leads through that link to the
  recipient of the signal. -/
  answered : ∀ earlier forth between back link signal ttl flags,
    earlier ++ forth :: between ++ [back] <+: steps →
      forth.PassesOn (run (.new config book) earlier) link signal →
        back.move.signal? = some (link, signal.reply ttl flags) →
          flags = .unroutable ∨ flags = .ttlExceeded →
            ttl ≤ config.signalTtlInitial →
              back.around.now - forth.around.now < config.signalMaxAge →
                (((forwardings (run (.new config book) (earlier ++ [forth])) between).signals.filter
                    (· ≠ forwardOf signal)).dedup).length < max config.signalStoreCapacity 1 →
                  ∀ route ∈ (run (.new config book)
                      (earlier ++ forth :: between ++ [back])).book.routesTo signal.recipientId,
                    route.link ≠ link

theorem holds_of_initial (config : Config) (book : AddressBook) {steps earlier : List Step}
    {step : Step} (ordered : InOrder steps) (initial : earlier ++ [step] <+: steps) :
    (run (.new config book) earlier).forwards.Holds (max config.signalStoreCapacity 1)
      config.signalMaxAge (forwardings (.new config book) earlier) step.around.now :=
  holds_run config book (ordered.sublist (prefix_of_initial initial).sublist)
    (now_le_of_inOrder ordered initial)

/-- For every manager that can be reached, a signal that has come through a link takes away only
routes through that link to its sender, and only if it is flagged and answers a recent forward or
is recognized by the connector of the node.  Conversely, once a plain signal was passed on through
a link, a flagged answer to it that comes through that link in time leaves no route through the
link to the recipient. -/
theorem heeds_only_what_is_credible (config : Config) (book : AddressBook) {steps : List Step}
    (ordered : InOrder steps) : Heeds config book steps where
  attributed := by
    intro earlier step link signal initial handles id route before gone
    have holds := holds_of_initial config book ordered initial
    rw [run_append, run_cons, run_nil] at gone
    obtain ⟨credible, sender, through⟩ :=
      Step.credible_of_removed handles (config_run _ earlier) holds before gone
    exact ⟨through, sender, credible⟩
  answered := by
    intro earlier forth between back link signal ttl flags initial passes handles flagged moderate
      young few route member same
    have holds := holds_of_initial config book ordered initial
    have here : (run (.new config book) (earlier ++ forth :: between)).config = config :=
      config_run _ _
    have there : (run (.new config book) earlier).config = config := config_run _ _
    have foreign := passes.onward
    rw [there] at foreign
    have routed := Step.turn_of_moderate (run (.new config book) (earlier ++ forth :: between))
      handles (by rw [here]; exact moderate) (by rw [here]; exact foreign)
    have made : (forwardOf signal, forth.around.now) ::
        forwardings (run (.new config book) (earlier ++ [forth])) between <:+
          forwardings (.new config book) (earlier ++ forth :: between) := by
      rw [forwardings_append, forwardings, passes.forward?, run_append, run_cons, run_nil]
      exact List.suffix_append _ _
    have recent := ForwardStore.recent_of_forwarded holds.ordered made young few
    have credible : Credible config back.around.connectors
        (forwardings (.new config book) (earlier ++ forth :: between)) back.around.now
        (signal.reply ttl flags) := ⟨isFlagged_reply ttl flagged, .inl recent⟩
    rw [run_append, run_cons, run_nil, Step.apply, routed] at member
    exact ((mem_routesTo_onSignal here holds).1 member).2 ⟨credible, rfl, same⟩

/-! ## An answer from the nearer of two links -/

def configOfRelay : Config :=
  .full (.fresh (.direct "3.3.3.3" defaultPort) .full 0) "r1"

/-- The recipient was heard of through two links. -/
def bookOfTwoWays : AddressBook :=
  { AddressBook.empty with routes := Table.empty.insert "bbbb" [⟨2, 1⟩, ⟨3, 2⟩] }

def threeLinks : Links :=
  linksOfRelay.insert 3 (.opened 3 .outbound .direct none none)

/-- A signal has come through a link at some time. -/
def Step.hearing (now : Nat) (link : LinkId) (signal : Signal) : Step where
  around := ⟨now, .none, [], []⟩
  links := threeLinks
  move := .event (.signal link signal)

theorem heeds_answer_from_nearer_link :
    let forth := Step.hearing 0 1 (signalWithHops 3)
    let back := Step.hearing 5 2 ((signalWithHops 3).reply 2 .unroutable)
    InOrder [forth, back] ∧
      (run (.new configOfRelay bookOfTwoWays) [forth]).book.routesTo "bbbb" =
        [⟨2, 1⟩, ⟨3, 2⟩] ∧
      (run (.new configOfRelay bookOfTwoWays) [forth, back]).book.routesTo "bbbb" = [⟨3, 2⟩] ∧
      ∀ route ∈ (run (.new configOfRelay bookOfTwoWays) [forth, back]).book.routesTo "bbbb",
        route.link ≠ 2 := by
  intro forth back
  have ordered : InOrder [forth, back] := by
    refine List.pairwise_pair.2 ?_
    decide
  have passes : forth.PassesOn (.new configOfRelay bookOfTwoWays) 2 (signalWithHops 3) :=
    ⟨rfl, rfl⟩
  have heeds := heeds_only_what_is_credible configOfRelay bookOfTwoWays ordered
  refine ⟨ordered, rfl, rfl, ?_⟩
  exact heeds.answered [] forth [] back 2 (signalWithHops 3) 2 .unroutable (List.prefix_refl _)
    passes rfl (.inl rfl) (by decide) (by decide) (by decide)

end PeerOverlay.Manager
