import PeerOverlay.Proofs.Manager.Run

/-!
# Attempts to connect

A manager counts the attempts to connect whose outcome it does not know.  A
ledger of a run holds these attempts themselves, and it holds how many outcomes
were told when the book did not have their address as connecting any more.  The
count is the number of attempts in flight together with those outcomes: an
attempt is given back only if the book still knows about it.
-/

namespace PeerOverlay.Manager

/-! ## Outcomes -/

/-- The address that was dialed for a link which this node has opened. -/
def dialedAddress? (links : Links) (id : LinkId) : Option PeerAddress :=
  ((links.get? id).filter fun link => link.direction == .outbound).bind Link.peerAddress

/-- The address of which a step tells what has come of connecting to it. -/
def Step.outcome? (step : Step) : Option PeerAddress :=
  (step.move.connection?.bind (dialedAddress? step.links)).or step.move.failure?

theorem Step.outcome?_of_connection? {step : Step} {id : LinkId}
    (handed : step.move.connection? = some id) :
    step.outcome? = dialedAddress? step.links id := by
  have noFailure : step.move.failure? = none := by
    obtain ⟨around, links, move⟩ := step
    unfold Move.connection? at handed
    split at handed <;> simp_all [Move.failure?]
  simp [Step.outcome?, handed, noFailure]

theorem Step.outcome?_of_no_connection {step : Step} (noLink : step.move.connection? = none) :
    step.outcome? = step.move.failure? := by
  simp [Step.outcome?, noLink]

/-- Whether a step is one that transports cause while some attempts are in
flight. -/
structure Step.Fits (step : Step) (inFlight : List Endpoint) : Prop where
  /-- A link that the other end has opened is handed over without an address. -/
  inbound : ∀ id link, step.move.connection? = some id → step.links.get? id = some link →
    link.direction = .inbound → link.peerAddress = none
  /-- Outcomes are outcomes of attempts. -/
  outcome : ∀ address, step.outcome? = some address → address.endpoint ∈ inFlight

/-! ## Turns without an outcome -/

/-- Whether as many attempts were counted as were started, beyond a number. -/
def Turn.Counts (before : Nat) (turn : Turn) : Prop :=
  turn.manager.connectingCount = before + turn.attempts.length

namespace Turn.Counts

variable {number : Nat} {before after : Turn}

theorem of_eq (counts : before.Counts number)
    (same : after.manager.connectingCount = before.manager.connectingCount)
    (attempts : after.attempts = before.attempts) : after.Counts number := by
  unfold Turn.Counts
  rw [same, attempts]
  exact counts

theorem dialed {address : PeerAddress} (counts : before.Counts number)
    (dialed : Dialed address before after) : after.Counts number := by
  cases dialed with
  | started manager attempts =>
      unfold Turn.Counts at counts ⊢
      rw [manager, attempts, List.length_append, List.length_singleton]
      show before.manager.connectingCount + 1 = _
      omega
  | failed manager attempts => exact counts.of_eq (by rw [manager]) attempts

theorem checked (counts : before.Counts number) (checked : Checked before after) :
    after.Counts number := by
  cases checked with
  | idle same => rwa [same]
  | dialed address free dialed => exact counts.dialed dialed

theorem followed {control : Control} (counts : before.Counts number)
    (followed : Followed before after control) : after.Counts number := by
  cases followed with
  | switched autoConnect savedAutoConnect offline stopped manager attempts =>
      exact counts.of_eq (by rw [manager]) attempts
  | checked autoConnect savedAutoConnect offline checked =>
      have switched : (before.update fun manager =>
          { manager with
            autoConnect := autoConnect
            savedAutoConnect := savedAutoConnect
            offline := offline }).Counts number := counts
      exact switched.checked checked
  | dialed address allowed dialed => exact counts.dialed dialed

theorem announced {now : Nat} {peer : Peer} (counts : before.Counts number)
    (announced : Announced now peer before after) : after.Counts number := by
  cases announced with
  | passedOver manager attempts => exact counts.of_eq (by rw [manager]) attempts
  | accepted slot known admitted manager attempts =>
      exact counts.of_eq (by rw [manager, seat_eq]) attempts

theorem ended {id : LinkId} (counts : before.Counts number) (ended : Ended id before after) :
    after.Counts number := by
  cases ended with
  | unknown same => rwa [same]
  | lost slot peer known joined manager attempts =>
      exact counts.of_eq (by rw [manager, vacate_eq]) attempts
  | missed slot known peerless manager attempts =>
      exact counts.of_eq (by rw [manager, vacate_eq]) attempts

theorem routed (counts : before.Counts number) (routed : Routed before after) :
    after.Counts number := by
  obtain ⟨⟨routes, forwards, manager⟩, attempts⟩ := routed
  exact counts.of_eq (by rw [manager]) attempts

end Turn.Counts

/-- A step that hands over no link and tells of no failure. -/
theorem Step.counts_of_quiet {step : Step} {manager : Manager}
    (noLink : step.move.connection? = none) (noFailure : step.move.failure? = none) :
    (step.turn manager).Counts manager.connectingCount := by
  have start : (Turn.start manager step.links).Counts manager.connectingCount := rfl
  apply step.keeps _ _ _ start
  · intro link addresses turn counts
    obtain ⟨book, attempts⟩ := learnAddresses_eq link addresses turn
    exact counts.of_eq (by rw [book]) attempts
  · intro part turn performs counts
    cases part with
    | connection id => simp [Move.connection?_of_performs performs] at noLink
    | connectFailed address => simp [Move.failure?_of_performs performs] at noFailure
    | handshake peer => exact counts.announced (announced_onHandshake _ peer turn)
    | relay source addresses =>
        obtain ⟨same, attempts⟩ := relayToAgents_eq step.around source addresses turn
        exact counts.of_eq (by rw [Part.perform, same]) attempts
    | route link signal => exact counts.routed (routed_onSignal _ link signal turn)
    | ban link reason =>
        obtain ⟨banned, attempts⟩ := banLink_eq step.around link reason turn
        exact counts.of_eq (by rw [Part.perform, banned]) attempts
    | closed link => exact counts.ended (ended_onClosed link turn)
    | checkPeerCount => exact counts.checked (checked_checkPeerCount _ turn)
  · intro control _
    exact start.followed (followed_follow step.around control _)

/-! ## Turns with an outcome -/

/-- A link that is handed over gives its attempt back if the book has the
address as connecting. -/
theorem Opened.counts {id : LinkId} {before after : Turn} (opened : Opened id before after)
    (inbound : ∀ link, before.links.get? id = some link → link.direction = .inbound →
      link.peerAddress = none) :
    after.manager.connectingCount =
        before.manager.connectingCount -
          (if (dialedAddress? before.links id).any before.manager.book.isConnecting then 1
            else 0) ∧
      after.attempts = before.attempts := by
  have dialedIs {link : Link} (known : before.links.get? id = some link) :
      dialedAddress? before.links id = link.peerAddress := by
    unfold dialedAddress?
    rw [known, Option.filter_some]
    cases direction : link.direction with
    | outbound => rfl
    | inbound => exact (inbound link known direction).symm
  cases opened with
  | unknown missing same =>
      rw [same, dialedAddress?, missing]
      exact ⟨rfl, rfl⟩
  | refused link known manager attempts =>
      rw [manager, finishAttempt_eq, dialedIs known]
      exact ⟨rfl, attempts⟩
  | takenIn link known admitted manager attempts =>
      rw [manager, seat_eq, finishAttempt_eq, dialedIs known]
      exact ⟨rfl, attempts⟩

/-- Every step counts the attempts that it starts, and it gives back the attempt
that has come out if the book has the address as connecting. -/
theorem connectingCount_apply {step : Step} {inFlight : List Endpoint}
    (fits : step.Fits inFlight) (manager : Manager) :
    (step.apply manager).connectingCount =
      manager.connectingCount -
          (if step.outcome?.any manager.book.isConnecting then 1 else 0) +
        (step.turn manager).attempts.length := by
  unfold Step.apply
  cases handed : step.move.connection? with
  | some id =>
      have opened := opened_onConnection id (Turn.start manager step.links)
      obtain ⟨count, attempts⟩ := opened.counts (fits.inbound id · handed)
      rw [step.turn_of_connection? handed, count, attempts, step.outcome?_of_connection? handed]
      rfl
  | none =>
      cases failed : step.move.failure? with
      | none =>
          rw [step.outcome?_of_no_connection handed, failed]
          exact step.counts_of_quiet handed failed
      | some address =>
          obtain ⟨count, attempts⟩ := onConnectFailed_eq address (Turn.start manager step.links)
          have counts : (onConnectFailed address (Turn.start manager step.links)).Counts
              (manager.connectingCount - if manager.book.isConnecting address then 1 else 0) := by
            rw [Turn.Counts, count, attempts]
            rfl
          rw [step.outcome?_of_no_connection handed, failed]
          exact counts.checked (step.checked_of_failure? failed manager)

/-! ## Ledgers -/

/-- What is on record of the attempts of a manager. -/
structure Ledger where
  manager : Manager
  /-- The endpoints of the attempts that have not come out, in order. -/
  inFlight : List Endpoint
  /-- The number of outcomes that came when the book did not have their address
  as connecting. -/
  missed : Nat

namespace Ledger

/-- The ledger of a manager before its first attempt. -/
def blank (manager : Manager) : Ledger where
  manager := manager
  inFlight := []
  missed := 0

/-- Enter a step.  What has come out is in flight no more, and what the step
starts is in flight from then on. -/
def enter (ledger : Ledger) (step : Step) : Ledger where
  manager := step.apply ledger.manager
  inFlight :=
    step.outcome?.elim ledger.inFlight (fun address => ledger.inFlight.erase address.endpoint) ++
      (step.turn ledger.manager).attempts
  missed :=
    ledger.missed +
      if step.outcome?.any fun address => !ledger.manager.book.isConnecting address then 1 else 0

def after (ledger : Ledger) (steps : List Step) : Ledger :=
  steps.foldl enter ledger

/-- Whether every attempt comes out at most once, and nothing else comes out. -/
def Reported : Ledger → List Step → Prop
  | _, [] => True
  | ledger, step :: rest => step.Fits ledger.inFlight ∧ (ledger.enter step).Reported rest

/-- Whether the manager counts what is in flight and what was missed. -/
def Agrees (ledger : Ledger) : Prop :=
  ledger.manager.connectingCount = ledger.inFlight.length + ledger.missed

variable {ledger : Ledger} {step : Step} {steps : List Step}

theorem manager_after (ledger : Ledger) (steps : List Step) :
    (ledger.after steps).manager = run ledger.manager steps := by
  induction steps generalizing ledger with
  | nil => rfl
  | cons step rest hypothesis => exact hypothesis (ledger.enter step)

theorem after_concat (ledger : Ledger) (earlier : List Step) (step : Step) :
    ledger.after (earlier ++ [step]) = (ledger.after earlier).enter step := by
  unfold after
  rw [List.foldl_append]
  rfl

theorem Agrees.enter (agrees : ledger.Agrees) (fits : step.Fits ledger.inFlight) :
    (ledger.enter step).Agrees := by
  have count := connectingCount_apply fits ledger.manager
  unfold Agrees at agrees ⊢
  unfold Ledger.enter
  dsimp only
  rw [count, List.length_append]
  cases outcome : step.outcome? with
  | none =>
      simp only [Option.any_none, Option.elim_none, Bool.false_eq_true, if_false]
      omega
  | some address =>
      have member := fits.outcome address outcome
      have positive : 0 < ledger.inFlight.length := List.length_pos_of_mem member
      simp only [Option.any_some, Option.elim_some, List.length_erase_of_mem member]
      -- One attempt is in flight no more: either the count goes down, or it is missed.
      by_cases connecting : ledger.manager.book.isConnecting address
      · simp only [connecting, Bool.not_true, Bool.false_eq_true, if_true, if_false]
        omega
      · simp only [connecting, Bool.not_false, Bool.false_eq_true, if_true, if_false]
        omega

theorem Agrees.after (agrees : ledger.Agrees) (reported : ledger.Reported steps) :
    (ledger.after steps).Agrees := by
  induction steps generalizing ledger with
  | nil => exact agrees
  | cons step rest hypothesis => exact hypothesis (agrees.enter reported.1) reported.2

theorem missed_le_after (ledger : Ledger) (steps : List Step) :
    ledger.missed ≤ (ledger.after steps).missed := by
  induction steps generalizing ledger with
  | nil => exact Nat.le_refl _
  | cons step rest hypothesis =>
      exact Nat.le_trans (Nat.le_add_right ledger.missed _) (hypothesis (ledger.enter step))

end Ledger

/-! ## The count and the attempts in flight -/

/-- Whether every outcome comes while the book has its address as connecting. -/
def Noticed : Manager → List Step → Prop
  | _, [] => True
  | manager, step :: rest =>
      (∀ address, step.outcome? = some address → manager.book.isConnecting address) ∧
        Noticed (step.apply manager) rest

theorem Ledger.missed_after_eq_iff (ledger : Ledger) (steps : List Step) :
    (ledger.after steps).missed = ledger.missed ↔ Noticed ledger.manager steps := by
  induction steps generalizing ledger with
  | nil => simp [Ledger.after, Noticed]
  | cons step rest hypothesis =>
      have later := (ledger.enter step).missed_le_after rest
      have entered : (ledger.enter step).missed = ledger.missed ↔
          ∀ address, step.outcome? = some address → ledger.manager.book.isConnecting address := by
        unfold Ledger.enter
        cases step.outcome? <;> simp
      have atLeast : ledger.missed ≤ (ledger.enter step).missed := Nat.le_add_right _ _
      show ((ledger.enter step).after rest).missed = ledger.missed ↔ _ ∧ _
      rw [← entered]
      constructor
      · intro same
        have first : (ledger.enter step).missed = ledger.missed := by omega
        exact ⟨first, (hypothesis (ledger.enter step)).1 (same.trans first.symm)⟩
      · rintro ⟨first, noticed⟩
        exact ((hypothesis (ledger.enter step)).2 noticed).trans first

/-- The manager counts the attempts in flight and the outcomes that it has
missed.  So it counts the attempts in flight alone if and only if every outcome
came while the book had its address as connecting. -/
theorem connectingCount_eq_inFlight_add_missed (config : Config) (book : AddressBook)
    (steps : List Step)
    (reported : (Ledger.blank (Manager.new config book)).Reported steps) :
    (run (Manager.new config book) steps).connectingCount =
        ((Ledger.blank (Manager.new config book)).after steps).inFlight.length +
          ((Ledger.blank (Manager.new config book)).after steps).missed ∧
      ((run (Manager.new config book) steps).connectingCount =
          ((Ledger.blank (Manager.new config book)).after steps).inFlight.length ↔
        Noticed (Manager.new config book) steps) := by
  have blank : (Ledger.blank (Manager.new config book)).Agrees := rfl
  have sum := blank.after reported
  unfold Ledger.Agrees at sum
  rw [Ledger.manager_after] at sum
  have missed := Ledger.missed_after_eq_iff (.blank (Manager.new config book)) steps
  refine ⟨sum, Iff.trans ?_ missed⟩
  constructor
  · intro same
    exact Nat.add_eq_left.1 (sum.symm.trans same)
  · intro none
    exact sum.trans (Nat.add_eq_left.2 none)

/-! ## An address that is dialed twice -/

/-- A host is dialed twice, and both attempts fail. -/
def redialed : List Step :=
  [.plain .empty (.control (.dial (hostAddress "2.2.2.2"))),
    .plain .empty (.control (.dial (hostAddress "2.2.2.2"))),
    .plain .empty (.event (.connectFailed (hostAddress "2.2.2.2"))),
    .plain .empty (.event (.connectFailed (hostAddress "2.2.2.2")))]

theorem reported_redialed : (Ledger.blank (atHost "1.1.1.1")).Reported redialed := by
  have dials (inFlight : List Endpoint) :
      (Step.plain .empty (.control (.dial (hostAddress "2.2.2.2")))).Fits inFlight := by
    constructor
    · intro id link handed
      simp [Step.plain, Move.connection?] at handed
    · intro address outcome
      simp [Step.plain, Step.outcome?, Move.connection?, Move.failure?] at outcome
  have fails {inFlight : List Endpoint}
      (member : (hostAddress "2.2.2.2").endpoint ∈ inFlight) :
      (Step.plain .empty (.event (.connectFailed (hostAddress "2.2.2.2")))).Fits inFlight := by
    constructor
    · intro id link handed
      simp [Step.plain, Move.connection?] at handed
    · intro address outcome
      rw [← Option.some.inj outcome]
      exact member
  exact ⟨dials _, dials _, fails (by decide), fails (by decide), trivial⟩

theorem connectingCount_redialed :
    (Ledger.blank (atHost "1.1.1.1")).Reported redialed ∧
      (run (atHost "1.1.1.1") redialed).connectingCount =
          ((Ledger.blank (atHost "1.1.1.1")).after redialed).inFlight.length +
            ((Ledger.blank (atHost "1.1.1.1")).after redialed).missed ∧
        ((run (atHost "1.1.1.1") redialed).connectingCount =
            ((Ledger.blank (atHost "1.1.1.1")).after redialed).inFlight.length ↔
          Noticed (atHost "1.1.1.1") redialed) :=
  ⟨reported_redialed, connectingCount_eq_inFlight_add_missed _ _ redialed reported_redialed⟩

/-- Both attempts have come out, and the manager still counts one of them. -/
theorem attempt_counted_after_redialing :
    (Ledger.blank (atHost "1.1.1.1")).Reported redialed ∧
      ((Ledger.blank (atHost "1.1.1.1")).after redialed).inFlight = [] ∧
        (run (atHost "1.1.1.1") redialed).connectingCount = 1 :=
  ⟨reported_redialed, by decide, by decide⟩

end PeerOverlay.Manager
