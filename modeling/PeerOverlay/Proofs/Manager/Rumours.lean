import PeerOverlay.Proofs.AddressBook.Known
import PeerOverlay.Proofs.Manager.Books
import PeerOverlay.Proofs.Manager.Relays

/-!
# Addresses that are passed on

An event tells of addresses, and a few agents are commanded to pass on those that are new.  The
book never forgets an address, and so no address is passed on because of two events.
-/

namespace PeerOverlay.Manager

/-! ## Commands -/

/-- An agent that is commanded to pass addresses on, with these addresses. -/
def Effect.command? : Effect → Option (LinkId × List PeerAddress)
  | .relay link addresses => some (link, addresses)
  | _ => none

def Turn.commands (turn : Turn) : List (LinkId × List PeerAddress) :=
  turn.effects.filterMap Effect.command?

/-- The links of all agents with a peer, but for one. -/
def others (manager : Manager) (source : LinkId) : List LinkId :=
  (manager.slots.rows.filter fun row => row.1 != source && row.2.peer.isSome).map Prod.fst

theorem mem_others {manager : Manager} {source agent : LinkId}
    (member : agent ∈ manager.others source) :
    agent ≠ source ∧ ∃ slot peer,
      manager.slots.get? agent = some slot ∧ slot.peer = some peer := by
  obtain ⟨⟨link, slot⟩, kept, rfl⟩ := List.mem_map.1 member
  obtain ⟨among, isOther⟩ := List.mem_filter.1 kept
  obtain ⟨different, joined⟩ := Bool.and_eq_true_iff.1 isOther
  obtain ⟨peer, announced⟩ := Option.isSome_iff_exists.1 joined
  exact ⟨bne_iff_ne.1 different, slot, peer,
    (manager.slots.mem_rows_iff link slot).1 among, announced⟩

theorem nodup_others (manager : Manager) (source : LinkId) : (manager.others source).Nodup :=
  manager.slots.distinct.sublist (List.filter_sublist.map Prod.fst)

/-- Whether the agents may be commanded to pass on what has come through a link. -/
structure MayPassOn (manager : Manager) (source : LinkId) (agents : List LinkId) : Prop where
  few : agents.length ≤ manager.config.peerCountRelay
  distinct : agents.Nodup
  others : source ∉ agents
  joined : ∀ agent ∈ agents, ∃ slot peer,
    manager.slots.get? agent = some slot ∧ slot.peer = some peer

theorem MayPassOn.none (manager : Manager) (source : LinkId) : manager.MayPassOn source [] where
  few := Nat.zero_le _
  distinct := List.nodup_nil
  others := List.not_mem_nil
  joined := by
    intro agent member
    exact absurd member List.not_mem_nil

/-- The agents that are drawn first may pass addresses on. -/
theorem MayPassOn.drawn (manager : Manager) (source : LinkId) (lots : List Nat) :
    manager.MayPassOn source
      ((draw lots (manager.others source)).take manager.config.peerCountRelay) := by
  have perm : (draw lots (manager.others source)).Perm (manager.others source) :=
    draw_perm lots _
  have among {agent : LinkId}
      (member : agent ∈ (draw lots (manager.others source)).take manager.config.peerCountRelay) :=
    mem_others (perm.mem_iff.1 (List.mem_of_mem_take member))
  constructor
  · exact List.length_take_le _ _
  · exact (perm.nodup_iff.2 (nodup_others manager source)).sublist (List.take_sublist _ _)
  · exact fun member => (among member).1 rfl
  · exact fun agent member => (among member).2

section Turns

variable (around : Surroundings) (source : LinkId)

/-- As many agents pass a few addresses on as may, or as there are. -/
theorem commands_relayToAgents {addresses : List PeerAddress} (turn : Turn)
    (few : addresses.length ≤ turn.manager.config.relayBatchMax) :
    ∃ agents, turn.manager.MayPassOn source agents ∧
      agents.length =
        min turn.manager.config.peerCountRelay (turn.manager.others source).length ∧
      (relayToAgents around source addresses turn).commands =
        turn.commands ++ agents.map fun agent => (agent, addresses) := by
  have commanded (chosen : List LinkId) (turn : Turn) :
      (chosen.foldl (fun turn link => turn.emit (.relay link addresses)) turn).commands =
        turn.commands ++ chosen.map fun agent => (agent, addresses) := by
    induction chosen generalizing turn with
    | nil => exact (List.append_nil _).symm
    | cons link rest hypothesis =>
        rw [List.foldl_cons, hypothesis, List.map_cons, List.append_cons]
        exact congrArg (· ++ _) (filterMap_concat_eq Effect.command? turn.effects _)
  unfold relayToAgents
  rw [if_neg (Nat.not_lt_of_le few)]
  refine ⟨_, .drawn turn.manager source around.relayLots, ?_, commanded _ turn⟩
  rw [List.length_take, (draw_perm around.relayLots _).length_eq]

theorem commands_checkPeerCount (turn : Turn) :
    (Manager.checkPeerCount around turn).commands = turn.commands := by
  apply (adds_checkPeerCount around turn).filterMap_eq
  rintro effect ⟨_, address, own⟩
  cases own <;> rfl

variable (told : List PeerAddress) (turn : Turn)

/-- What is to be passed on was told of in a small message, and the book did not know it. -/
theorem learnAddresses_spec :
    ((learnAddresses source told turn).1 ≠ [] →
        told.length ≤ turn.manager.config.relayBatchMax) ∧
      (learnAddresses source told turn).1.length ≤ told.length ∧
      (∀ address ∈ (learnAddresses source told turn).1,
        ¬ turn.manager.book.Knows address ∧
          (learnAddresses source told turn).2.manager.book.Knows address) ∧
      ((learnAddresses source told turn).1.map PeerAddress.endpoint).Nodup := by
  unfold learnAddresses
  dsimp only
  split
  · next few =>
      refine ⟨fun _ => few, ?_, ?_, AddressBook.nodup_ingestAll⟩
      · exact Nat.le_trans AddressBook.length_ingestAll_le (List.length_take_le' _ _)
      · intro address member
        refine ⟨AddressBook.new_of_mem_ingestAll member, ?_⟩
        exact AddressBook.knows_ingestAll.2 (.inr (List.mem_map_of_mem member))
  · refine ⟨fun some => absurd rfl some, Nat.zero_le _, ?_, List.nodup_nil⟩
    intro address member
    exact absurd member List.not_mem_nil

theorem handle_addresses_eq :
    handle around (.addresses source told) turn =
      Manager.checkPeerCount around
        (if (learnAddresses source told turn).1 = [] then (learnAddresses source told turn).2
          else relayToAgents around source (learnAddresses source told turn).1
            (learnAddresses source told turn).2) := by
  show (if (learnAddresses source told turn).1.isEmpty then [Part.checkPeerCount]
        else [.relay source (learnAddresses source told turn).1, .checkPeerCount]).foldl
      (fun turn part => part.perform around turn) (learnAddresses source told turn).2 = _
  simp only [List.isEmpty_iff]
  split <;> rfl

theorem commands_handle_addresses :
    ∃ agents, turn.manager.MayPassOn source agents ∧
      agents.length = (if (learnAddresses source told turn).1 = [] then 0
        else min turn.manager.config.peerCountRelay (turn.manager.others source).length) ∧
      (handle around (.addresses source told) turn).commands =
        turn.commands ++ agents.map fun agent => (agent, (learnAddresses source told turn).1) := by
  rw [handle_addresses_eq, commands_checkPeerCount]
  split
  · exact ⟨[], .none _ source, rfl, (List.append_nil _).symm⟩
  · next some =>
      obtain ⟨few, short, _⟩ := learnAddresses_spec source told turn
      obtain ⟨agents, mayPassOn, count, commands⟩ :=
        commands_relayToAgents around source (learnAddresses source told turn).2
          (Nat.le_trans short (few some))
      exact ⟨agents, ⟨mayPassOn.few, mayPassOn.distinct, mayPassOn.others, mayPassOn.joined⟩,
        count, commands⟩

end Turns

/-! ## Rumours -/

/-- What came of a rumour: the manager that passed it on, and the commands it gave. -/
structure Outcome where
  manager : Manager
  commands : List (LinkId × List PeerAddress)

/-- The addresses of which an event has told. -/
structure Rumour where
  source : LinkId
  told : List PeerAddress
  /-- The book before the event. -/
  book : AddressBook
  /-- The addresses that are to be passed on. -/
  news : List PeerAddress
  /-- What came of it, once that is done. -/
  outcome : Option Outcome

namespace Rumour

/-- The rumour that a manager hears when an event tells of addresses. -/
def ofEvent (manager : Manager) (links : Links) (source : LinkId) (told : List PeerAddress)
    (outcome : Option Outcome) : Rumour where
  source := source
  told := told
  book := manager.book
  news := (learnAddresses source told (.start manager links)).1
  outcome := outcome

/-- Whether it is left to a later part of the reaction to pass the rumour on. -/
def Waits (rumour : Rumour) : Prop :=
  rumour.outcome = none ∧ rumour.news ≠ []

def endpoints (rumour : Rumour) : List Endpoint :=
  rumour.news.map PeerAddress.endpoint

/-- Whether the news of a rumour, if there are any, were passed on to as many agents as may
pass them on, or as there are, and to each of them once. -/
structure PassedOn (config : Config) (source : LinkId) (news : List PeerAddress)
    (outcome : Outcome) : Prop where
  configured : outcome.manager.config = config
  commands : ∃ agents, outcome.manager.MayPassOn source agents ∧
    agents.length = (if news = [] then 0
      else min config.peerCountRelay (outcome.manager.others source).length) ∧
    outcome.commands = agents.map fun agent => (agent, news)

/-- What holds of every rumour on a node with some configuration. -/
structure Bounded (config : Config) (rumour : Rumour) : Prop where
  few : rumour.news ≠ [] → rumour.told.length ≤ config.relayBatchMax
  short : rumour.news.length ≤ rumour.told.length
  new : ∀ address ∈ rumour.news, ¬ rumour.book.Knows address
  passedOn : ∀ outcome, rumour.outcome = some outcome →
    PassedOn config rumour.source rumour.news outcome

end Rumour

/-- Whether a move neither tells of addresses nor passes on what an earlier one has told. -/
def Move.isDiscreet : Move → Bool
  | .event (.addresses _ _) | .take (.addresses _ _) | .part (.relay _ _) => false
  | _ => true

/-- The rumours of a run, and what came of them.  A part of a reaction passes on what an event
has left to it, and is done once. -/
inductive Spreads (manager : Manager) : List Step → List Rumour → Prop where
  | nothing : Spreads manager [] []
  /-- An event is handled with all parts of the reaction. -/
  | handled {steps rumours} (around links source told) (spreads : Spreads manager steps rumours) :
      Spreads manager (steps ++ [⟨around, links, .event (.addresses source told)⟩])
        (rumours ++ [.ofEvent (run manager steps) links source told
          (some
            { manager := run manager steps
              commands :=
                (handle around (.addresses source told)
                  (.start (run manager steps) links)).commands })])
  /-- An event is taken, and what is new is left to be passed on. -/
  | taken {steps rumours} (around links source told) (spreads : Spreads manager steps rumours) :
      Spreads manager (steps ++ [⟨around, links, .take (.addresses source told)⟩])
        (rumours ++ [.ofEvent (run manager steps) links source told none])
  | passedOn {steps earlier rumour later} (around links) (waits : rumour.Waits)
      (spreads : Spreads manager steps (earlier ++ rumour :: later)) :
      Spreads manager (steps ++ [⟨around, links, .part (.relay rumour.source rumour.news)⟩])
        (earlier ++
          { rumour with
            outcome := some
              { manager := run manager steps
                commands :=
                  (relayToAgents around rumour.source rumour.news
                    (.start (run manager steps) links)).commands } } :: later)
  | other {steps rumours} (step : Step) (discreet : step.move.isDiscreet)
      (spreads : Spreads manager steps rumours) : Spreads manager (steps ++ [step]) rumours

section Runs

variable {manager : Manager} {steps : List Step} {rumours : List Rumour}

/-- A run goes on with any step, unless it is a part that passes addresses on. -/
theorem Spreads.goOn (spreads : Spreads manager steps rumours) {step : Step}
    (whole : ∀ source addresses, step.move ≠ .part (.relay source addresses)) :
    ∃ heard, Spreads manager (steps ++ [step]) heard := by
  obtain ⟨around, links, move⟩ := step
  have other (discreet : move.isDiscreet) :
      ∃ heard, Spreads manager (steps ++ [⟨around, links, move⟩]) heard :=
    ⟨rumours, .other _ discreet spreads⟩
  cases move with
  | event event =>
      cases event with
      | addresses source told => exact ⟨_, .handled around links source told spreads⟩
      | _ => exact other rfl
  | take event =>
      cases event with
      | addresses source told => exact ⟨_, .taken around links source told spreads⟩
      | _ => exact other rfl
  | part part =>
      cases part with
      | relay source addresses => exact absurd rfl (whole source addresses)
      | _ => exact other rfl
  | control control => exact other rfl

/-- The rumours of a run can be told if every event that tells of addresses is handled in one go. -/
theorem exists_spreads
    (whole : ∀ step ∈ steps, ∀ source addresses, step.move ≠ .part (.relay source addresses)) :
    ∃ rumours, Spreads manager steps rumours := by
  suffices goesOn : ∀ earlier rumours, Spreads manager earlier rumours →
      ∃ heard, Spreads manager (earlier ++ steps) heard from goesOn [] [] .nothing
  induction steps with
  | nil =>
      intro earlier rumours spreads
      exact ⟨rumours, (List.append_nil earlier).symm ▸ spreads⟩
  | cons step rest hypothesis =>
      intro earlier rumours spreads
      obtain ⟨heard, further⟩ := spreads.goOn (whole step (List.mem_cons_self ..))
      rw [List.append_cons]
      exact hypothesis (fun later member => whole later (List.mem_cons_of_mem step member))
        _ heard further

end Runs

/-! ## What a run knows of its rumours -/

theorem Step.keepsBook_knows (step : Step) (address : PeerAddress) :
    step.KeepsBook fun book => book.Knows address where
  connecting dialed knows := knows.markConnecting dialed
  unreachable missed knows := knows.markUnreachable missed
  banned offender now knows := knows.ban offender now
  unroutable link signalId knows := knows.markUnroutable link signalId
  heard link addresses _ knows := knows.ingest link addresses
  connected link peer _ knows := knows.markConnected link peer
  disconnected link _ knows := knows.markDisconnected link

/-- No step forgets an address. -/
theorem Step.knows_apply (step : Step) {manager : Manager} (address : PeerAddress)
    (knows : manager.book.Knows address) : (step.apply manager).book.Knows address :=
  Step.book_apply (step.keepsBook_knows address) knows

/-- After an event has told of addresses, those that are to be passed on are known. -/
theorem knows_handle_addresses {around : Surroundings} {source : LinkId}
    {told : List PeerAddress} {turn : Turn} {address : PeerAddress}
    (learnt : (learnAddresses source told turn).2.manager.book.Knows address) :
    (handle around (.addresses source told) turn).manager.book.Knows address := by
  have keeps := Step.keepsBook_knows ⟨around, turn.links, .take .checkPeerCount⟩ address
  rw [handle_addresses_eq]
  apply keeps.checked (checked_checkPeerCount around _)
  split
  · exact learnt
  · rwa [(relayToAgents_eq around source _ _).1]

/-- What holds of the rumours of a run and of the book after it. -/
structure Accounted (config : Config) (book : AddressBook) (rumours : List Rumour) : Prop where
  bounded : ∀ rumour ∈ rumours, rumour.Bounded config
  known : ∀ rumour ∈ rumours, ∀ address ∈ rumour.news, book.Knows address
  once : (rumours.flatMap Rumour.endpoints).Nodup

namespace Accounted

variable {config : Config} {book later : AddressBook} {rumours : List Rumour} {rumour : Rumour}

theorem nothing : Accounted config book [] where
  bounded := fun _ member => absurd member List.not_mem_nil
  known := fun _ member => absurd member List.not_mem_nil
  once := List.nodup_nil

theorem remembered (accounted : Accounted config book rumours)
    (remembers : ∀ address, book.Knows address → later.Knows address) :
    Accounted config later rumours where
  bounded := accounted.bounded
  known := by
    intro rumour member address isNew
    exact remembers address (accounted.known rumour member address isNew)
  once := accounted.once

/-- A rumour that the book has not known before is heard. -/
theorem hear (accounted : Accounted config book rumours) (bounded : rumour.Bounded config)
    (before : rumour.book = book) (once : rumour.endpoints.Nodup)
    (remembers : ∀ address, book.Knows address → later.Knows address)
    (learnt : ∀ address ∈ rumour.news, later.Knows address) :
    Accounted config later (rumours ++ [rumour]) where
  bounded := by
    intro tested member
    rcases List.mem_append.1 member with old | new
    · exact accounted.bounded tested old
    · rwa [List.mem_singleton.1 new]
  known := by
    intro tested member address isNew
    rcases List.mem_append.1 member with old | new
    · exact remembers address (accounted.known tested old address isNew)
    · rw [List.mem_singleton.1 new] at isNew
      exact learnt address isNew
  once := by
    rw [List.flatMap_append, List.flatMap_singleton]
    refine List.nodup_append.2 ⟨accounted.once, once, ?_⟩
    rintro endpoint old _ new rfl
    obtain ⟨tested, member, isOld⟩ := List.mem_flatMap.1 old
    obtain ⟨first, firstNews, rfl⟩ := List.mem_map.1 isOld
    obtain ⟨second, secondNews, same⟩ := List.mem_map.1 new
    have known := (AddressBook.knows_congr same).2 (accounted.known tested member first firstNews)
    exact bounded.new second secondNews (before ▸ known)

/-- A rumour that has waited is passed on. -/
theorem passOn {earlier others : List Rumour} {outcome : Outcome}
    (accounted : Accounted config book (earlier ++ rumour :: others))
    (passedOn : Rumour.PassedOn config rumour.source rumour.news outcome) :
    Accounted config book (earlier ++ { rumour with outcome := some outcome } :: others) where
  bounded := by
    intro tested member
    rcases List.mem_append.1 member with first | own | last
    · exact accounted.bounded tested (List.mem_append_left _ first)
    · have before := accounted.bounded rumour (List.mem_append_right _ (List.mem_cons_self ..))
      refine ⟨before.few, before.short, before.new, ?_⟩
      rintro done ⟨⟩
      exact passedOn
    · exact accounted.bounded tested (List.mem_append_right _ (List.mem_cons_of_mem _ ‹_›))
  known := by
    intro tested member
    rcases List.mem_append.1 member with first | own | last
    · exact accounted.known tested (List.mem_append_left _ first)
    · exact accounted.known rumour (List.mem_append_right _ (List.mem_cons_self ..))
    · exact accounted.known tested (List.mem_append_right _ (List.mem_cons_of_mem _ ‹_›))
  once := by
    have once := accounted.once
    rwa [List.flatMap_append, List.flatMap_cons] at once ⊢

end Accounted

/-- An event tells of addresses. -/
theorem Accounted.ofEvent {manager : Manager} {rumours : List Rumour} {links : Links}
    {source : LinkId} {told : List PeerAddress} {outcome : Option Outcome} {after : AddressBook}
    (accounted : Accounted manager.config manager.book rumours)
    (passedOn : ∀ done, outcome = some done →
      Rumour.PassedOn manager.config source (learnAddresses source told (.start manager links)).1
        done)
    (remembers : ∀ address, manager.book.Knows address → after.Knows address)
    (learnt : ∀ address,
      (learnAddresses source told (.start manager links)).2.manager.book.Knows address →
        after.Knows address) :
    Accounted manager.config after
      (rumours ++ [.ofEvent manager links source told outcome]) := by
  obtain ⟨few, short, new, once⟩ := learnAddresses_spec source told (.start manager links)
  have bounded : (Rumour.ofEvent manager links source told outcome).Bounded manager.config :=
    { few := few
      short := short
      new := fun address member => (new address member).1
      passedOn := passedOn }
  exact accounted.hear bounded rfl once remembers
    fun address member => learnt address (new address member).2

theorem Spreads.accounted {manager : Manager} {steps : List Step} {rumours : List Rumour}
    (spreads : Spreads manager steps rumours) :
    Accounted manager.config (run manager steps).book rumours := by
  have fixed (steps : List Step) : (run manager steps).config = manager.config :=
    config_run manager steps
  induction spreads with
  | nothing => exact .nothing
  | @handled steps rumours around links source told _ hypothesis =>
      obtain ⟨agents, mayPassOn, count, commands⟩ :=
        commands_handle_addresses around source told (.start (run manager steps) links)
      rw [run_append]
      rw [← fixed steps] at hypothesis ⊢
      apply hypothesis.ofEvent
      · rintro done ⟨⟩
        exact ⟨rfl, agents, mayPassOn, count, commands⟩
      · exact Step.knows_apply ⟨around, links, .event (.addresses source told)⟩
      · exact fun address => knows_handle_addresses
  | @taken steps rumours around links source told _ hypothesis =>
      rw [run_append]
      rw [← fixed steps] at hypothesis ⊢
      apply hypothesis.ofEvent
      · intro done finished
        exact absurd finished (Option.some_ne_none done).symm
      · exact Step.knows_apply ⟨around, links, .take (.addresses source told)⟩
      · exact fun address => id
  | @passedOn steps earlier rumour later around links waits _ hypothesis =>
      have bounded := hypothesis.bounded rumour (List.mem_append_right _ (List.mem_cons_self ..))
      have few : rumour.news.length ≤ (run manager steps).config.relayBatchMax := by
        rw [fixed steps]
        exact Nat.le_trans bounded.short (bounded.few waits.2)
      obtain ⟨agents, mayPassOn, count, commands⟩ :=
        commands_relayToAgents around rumour.source (.start (run manager steps) links) few
      rw [run_append]
      refine Accounted.passOn (hypothesis.remembered (Step.knows_apply _)) ?_
      refine ⟨fixed steps, agents, mayPassOn, ?_, commands⟩
      rw [if_neg waits.2, ← fixed steps]
      exact count
  | @other steps rumours step _ _ hypothesis =>
      rw [run_append]
      exact hypothesis.remembered step.knows_apply

/-! ## The bounds -/

/-- What a manager passes on because of an event was new in a small message; it goes to a few
agents with a peer, and not back where it came from.  Over a whole run no address is passed on
because of two events. -/
theorem rumours_bounded_and_told_once {manager : Manager} {steps : List Step}
    {rumours : List Rumour} (spreads : Spreads manager steps rumours) :
    (∀ rumour ∈ rumours, rumour.Bounded manager.config) ∧
      (rumours.flatMap Rumour.endpoints).Nodup :=
  ⟨spreads.accounted.bounded, spreads.accounted.once⟩

/-- Two links of two hosts. -/
def twoLinks : Links :=
  (Table.empty.insert 1 (.opened 1 .inbound .direct (some (.ip "2.2.2.2")) none)).insert 2
    (.opened 2 .inbound .direct (some (.ip "3.3.3.3")) none)

/-- A manager to which both hosts are peers. -/
def inCompany : Manager :=
  let peer (link : LinkId) (host : String) : Peer := {
    link := link
    address := hostAddress host
    version := 2
    startHeight := 0
    totalWork := 0
  }
  run (atHost "1.1.1.1")
    [.plain twoLinks (.event (.connection 1)),
      .plain twoLinks (.event (.handshake (peer 1 "2.2.2.2"))),
      .plain twoLinks (.event (.connection 2)),
      .plain twoLinks (.event (.handshake (peer 2 "3.3.3.3")))]

/-- The second host tells of two nodes, which is passed on at once; then the first one tells of
one of them again and of a third node, which is passed on later. -/
def chatter : List Step :=
  [.plain twoLinks
      (.event (.addresses 2 [.fresh (.relayed "bbbb") .full 0, hostAddress "7.7.7.7"])),
    .plain twoLinks (.take (.addresses 1 [hostAddress "7.7.7.7", hostAddress "8.8.8.8"])),
    .plain twoLinks (.control .connect),
    .plain twoLinks (.part (.relay 1 [hostAddress "8.8.8.8"]))]

theorem rumours_bounded_chatter :
    ∃ rumours, Spreads inCompany chatter rumours ∧
      (rumours.map fun rumour => rumour.outcome.map fun outcome =>
        outcome.commands.map fun (agent, news) => (agent, news.map PeerAddress.endpoint)) =
        [some [(1, [.relayed "bbbb", .direct "7.7.7.7" 8443])],
          some [(2, [.direct "8.8.8.8" 8443])]] ∧
      (∀ rumour ∈ rumours, rumour.Bounded inCompany.config) ∧
      (rumours.flatMap Rumour.endpoints).Nodup := by
  have first : Spreads inCompany (chatter.take 1) _ := .handled _ _ _ _ .nothing
  have second : Spreads inCompany (chatter.take 2) _ := .taken _ _ _ _ first
  have third : Spreads inCompany (chatter.take 3) _ := .other _ rfl second
  have waits : Rumour.Waits (.ofEvent (run inCompany (chatter.take 1)) twoLinks 1
      [hostAddress "7.7.7.7", hostAddress "8.8.8.8"] none) := ⟨rfl, by decide +kernel⟩
  have spreads : Spreads inCompany chatter _ := .passedOn _ _ waits third
  obtain ⟨bounded, once⟩ := rumours_bounded_and_told_once spreads
  exact ⟨_, spreads, by decide +kernel, bounded, once⟩

end PeerOverlay.Manager
