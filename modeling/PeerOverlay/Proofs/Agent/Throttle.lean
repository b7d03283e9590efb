import PeerOverlay.Proofs.Agent.Gossip

/-!
# The throttle of an agent

What an agent and its peer have told each other is not told to the peer again for a while, since
the agent keeps in mind when the peer got to know it.
-/

namespace PeerOverlay.Agent

variable {config : Config} {link : Link} {steps : List Step} {record : Record} {step : Step}

/-! ## What may be told -/

theorem canRelay_iff {around : Surroundings} {agent : Agent} {address : PeerAddress} :
    canRelay around agent address = true ↔
      isForwardable around.config address = true ∧
        address.endpoint ≠ around.config.peerAddress.endpoint ∧
        ∀ since, agent.known.get? address.endpoint = some since →
          around.config.relayThrottle ≤ around.now - since := by
  unfold canRelay isUnthrottled PeerAddress.samePeer
  cases known : agent.known.get? address.endpoint with
  | none => simp
  | some since => simp [and_assoc]

theorem isForwardable_iff {address : PeerAddress} :
    isForwardable config address = true ↔
      address.protocol ≠ .unreachable ∧
        (address.protocol = .relayed → address.distance.toNat < config.maxRelayDistance.toNat) := by
  unfold isForwardable
  cases address.protocol <;> simp [UInt8.lt_iff_toNat_lt]

theorem Record.canRelay_of_gossip? {told : List PeerAddress}
    (composed : record.gossip? step = some told) {address : PeerAddress}
    (member : address ∈ told) :
    isForwardable step.around.config address = true ∧
      address.endpoint ≠ step.around.config.peerAddress.endpoint ∧
      ∀ since, record.since? address.endpoint = some since →
        step.around.config.relayThrottle ≤ step.around.now - since := by
  obtain ⟨task, _, gossip⟩ := Option.bind_eq_some_iff.1 composed
  exact canRelay_iff.1 (Agent.canRelay_of_gossip? gossip member)

/-! ## What the agent keeps in mind -/

theorem Record.closed_enter (closed : (record.linkAt step).closed = true) :
    (record.enter step).link.closed = true := by
  unfold Record.enter
  split
  · exact closed
  · exact closed_perform step.around _ (record.agentAt step) (record.linkAt step) closed

theorem Record.Learns.since?_eq_or {addresses : List PeerAddress}
    (learns : record.Learns step addresses) (tested : Endpoint) :
    (record.enter step).since? tested = record.since? tested ∨
      (record.enter step).since? tested = some step.around.now := by
  rw [learns tested]
  by_cases member : tested ∈ addresses.map PeerAddress.endpoint
  · exact .inr (if_pos member)
  · exact .inl (if_neg member)

theorem Record.Learns.since?_eq_now {addresses : List PeerAddress}
    (learns : record.Learns step addresses) {address : PeerAddress}
    (listed : address ∈ addresses) :
    (record.enter step).since? address.endpoint = some step.around.now :=
  (learns address.endpoint).trans (if_pos (List.mem_map_of_mem listed))

/-- A step leaves what the peer knows, or refreshes it. -/
theorem Record.since?_enter (record : Record) (step : Step) (tested : Endpoint) :
    (record.enter step).since? tested = record.since? tested ∨
      (record.enter step).since? tested = some step.around.now := by
  cases noticed record step with
  | nothing known notices untold => exact .inl (known tested)
  | refused addresses closed known notices untold => exact .inl (known tested)
  | exchanged addresses told learns notices gossip room => exact learns.since?_eq_or tested
  | lost addresses composed full learns notices => exact learns.since?_eq_or tested

/-- What an agent and its peer tell each other in a step, the peer knows from then on, unless
the link is closed. -/
theorem Record.since?_of_mem_noticesIn (lasting : (record.enter step).link.closed = false)
    {notice : Notice} (member : notice ∈ record.noticesIn step) {address : PeerAddress}
    (listed : address ∈ notice.addresses) :
    (record.enter step).since? address.endpoint = some step.around.now := by
  cases noticed record step with
  | refused addresses closed known notices untold =>
      rw [lasting] at closed
      cases closed
  | exchanged addresses told learns notices gossip room =>
      rw [notices, List.mem_singleton] at member
      rw [member] at listed
      exact learns.since?_eq_now listed
  | nothing known notices untold =>
      rw [notices] at member
      cases member
  | lost addresses composed full learns notices =>
      rw [notices] at member
      cases member

/-- Whether the peer counts as knowing what it was told or has told itself, while the link is
open. -/
def Remembers (record : Record) (notices : List Notice) : Prop :=
  record.link.closed = false → ∀ notice ∈ notices, ∀ address ∈ notice.addresses,
    ∃ since, record.since? address.endpoint = some since ∧ notice.time ≤ since

theorem exists_of_mem_noticesAlong {notice : Notice} (record : Record)
    (member : notice ∈ record.noticesAlong steps) :
    ∃ step ∈ steps, notice.time = step.around.now := by
  induction steps generalizing record with
  | nil => cases member
  | cons first others hypothesis =>
      rcases List.mem_append.1 member with now | later
      · exact ⟨first, List.mem_cons_self, Record.time_of_mem_noticesIn now⟩
      · obtain ⟨step, taken, same⟩ := hypothesis (record.enter first) later
        exact ⟨step, List.mem_cons_of_mem first taken, same⟩

theorem Remembers.enter {notices : List Notice} (remembers : Remembers record notices)
    (past : ∀ notice ∈ notices, notice.time ≤ step.around.now)
    (closed : record.link.closed = true → step.link.closed = true) :
    Remembers (record.enter step) (notices ++ record.noticesIn step) := by
  intro lasting notice member address listed
  rcases List.mem_append.1 member with old | new
  · have before : record.link.closed = false := by
      cases ended : record.link.closed with
      | false => rfl
      | true =>
          have stays : (record.enter step).link.closed = true := Record.closed_enter (closed ended)
          rw [lasting] at stays
          cases stays
    obtain ⟨since, known, early⟩ := remembers before notice old address listed
    rcases record.since?_enter step address.endpoint with same | refreshed
    · exact ⟨since, same.trans known, early⟩
    · exact ⟨step.around.now, refreshed, past notice old⟩
  · exact ⟨step.around.now, Record.since?_of_mem_noticesIn lasting new listed,
      Nat.le_of_eq (Record.time_of_mem_noticesIn new)⟩

/-- Nothing that was told or heard lies in the future of a later step. -/
theorem time_le_of_mem_noticesAlong
    (later : ∀ earlier ∈ steps, earlier.around.now ≤ step.around.now)
    {notice : Notice} (member : notice ∈ record.noticesAlong steps) :
    notice.time ≤ step.around.now := by
  obtain ⟨earlier, taken, same⟩ := exists_of_mem_noticesAlong record member
  rw [same]
  exact later earlier taken

theorem remembers_of_course (course : Course config link steps) :
    Remembers ((Record.fresh link).after steps) ((Record.fresh link).noticesAlong steps) := by
  induction course with
  | nil =>
      intro _ notice member
      cases member
  | concat course sameConfig later alarms closed hypothesis =>
      rw [Record.after_concat, Record.noticesAlong_concat]
      exact hypothesis.enter (fun notice => time_le_of_mem_noticesAlong later) closed

/-! ## Along a run -/

/-- Whether a notice does not tell what is in an earlier one too soon after that. -/
def Notice.Spaced (delay : Nat) (earlier later : Notice) : Prop :=
  later.told = true → later.time < earlier.time + delay →
    ∀ address ∈ earlier.addresses, ∀ other ∈ later.addresses,
      address.endpoint ≠ other.endpoint

/-- Whether a node with a configuration may tell an address to others. -/
structure MayTell (config : Config) (address : PeerAddress) : Prop where
  reachable : address.protocol ≠ .unreachable
  near : address.protocol = .relayed → address.distance.toNat < config.maxRelayDistance.toNat
  foreign : address.endpoint ≠ config.peerAddress.endpoint

theorem Record.gossip?_of_told {notice : Notice} (member : notice ∈ record.noticesIn step)
    (told : notice.told = true) : record.gossip? step = some notice.addresses := by
  cases noticed record step with
  | refused addresses closed known notices untold =>
      rw [notices, List.mem_singleton] at member
      rw [member] at told
      cases told
  | exchanged addresses _ learns notices gossip room =>
      rw [notices, List.mem_singleton] at member
      subst member
      exact gossip.trans (if_pos told)
  | nothing known notices untold =>
      rw [notices] at member
      cases member
  | lost addresses composed full learns notices =>
      rw [notices] at member
      cases member

/-- There is one notice in a step at most. -/
theorem Record.pairwise_noticesIn (record : Record) (step : Step)
    (related : Notice → Notice → Prop) : (record.noticesIn step).Pairwise related := by
  cases noticed record step with
  | nothing known notices untold => simp [notices]
  | refused addresses closed known notices untold => simp [notices]
  | exchanged addresses told learns notices gossip room => simp [notices]
  | lost addresses composed full learns notices => simp [notices]

theorem Record.lasting_of_gossip? (closed : record.link.closed = true → step.link.closed = true)
    {told : List PeerAddress} (composed : record.gossip? step = some told) :
    record.link.closed = false := by
  obtain ⟨task, next, gossip⟩ := Option.bind_eq_some_iff.1 composed
  have lasting : step.link.closed = false := Agent.lasting_of_gossip? next gossip
  cases ended : record.link.closed with
  | false => rfl
  | true =>
      rw [closed ended] at lasting
      cases lasting

/-- What is told in a step was told or heard long ago, if it was before. -/
theorem spaced_of_remembers {notices : List Notice} (remembers : Remembers record notices)
    (past : ∀ notice ∈ notices, notice.time ≤ step.around.now)
    (closed : record.link.closed = true → step.link.closed = true) {earlier later : Notice}
    (old : earlier ∈ notices) (new : later ∈ record.noticesIn step) :
    Notice.Spaced step.around.config.relayThrottle earlier later := by
  intro told soon address listed other relayed same
  have composed := Record.gossip?_of_told new told
  have lasting := Record.lasting_of_gossip? closed composed
  obtain ⟨since, known, early⟩ := remembers lasting earlier old address listed
  have waited := (Record.canRelay_of_gossip? composed relayed).2.2 since (same ▸ known)
  have present := past earlier old
  rw [Record.time_of_mem_noticesIn new] at soon
  omega

/-- However the steps of an agent follow each other: what it has told its peer to pass it on or
in answer to a request, or has heard from it in order, it does not tell again before the
throttle allows it.  And all that it tells may be told. -/
theorem gossip_throttled (course : Course config link steps) :
    ((Record.fresh link).noticesAlong steps).Pairwise (Notice.Spaced config.relayThrottle) ∧
      ∀ notice ∈ (Record.fresh link).noticesAlong steps, notice.told = true →
        ∀ address ∈ notice.addresses, MayTell config address := by
  induction course with
  | nil => exact ⟨.nil, fun _ member => by cases member⟩
  | concat course sameConfig later alarms closed hypothesis =>
      rw [Record.noticesAlong_concat]
      constructor
      · rw [List.pairwise_append]
        refine ⟨hypothesis.1, Record.pairwise_noticesIn _ _ _, ?_⟩
        intro earlier old notice new
        rw [← sameConfig]
        exact spaced_of_remembers (remembers_of_course course)
          (fun notice => time_le_of_mem_noticesAlong later) closed old new
      · intro notice member told address listed
        rcases List.mem_append.1 member with old | new
        · exact hypothesis.2 notice old told address listed
        · have composed := Record.gossip?_of_told new told
          obtain ⟨forwardable, foreign, _⟩ := Record.canRelay_of_gossip? composed listed
          rw [sameConfig] at forwardable foreign
          obtain ⟨reachable, near⟩ := isForwardable_iff.1 forwardable
          exact ⟨reachable, near, foreign⟩

/-- A host is dialed and this node is announced. -/
def greeting : Step :=
  stepAtHost [] [] [] [] []

/-- The host says something, and then it announces itself. -/
def metAfter (said : Message) : List Step :=
  let said := [greeting, stepAtHost [greeting] [] [] [] [said]]
  said ++ [stepAtHost said [] [] [] (hostAnnounced true []).link.inbound]

/-- The address of a stranger is passed on to the host. -/
def strangerRelayed (earlier : List Step) : List Step :=
  earlier ++ [stepAtHost earlier [] [[.fresh (.direct "5.5.5.5" defaultPort) .full 0]] [] []]

theorem visitsHost_metAfter (said : Message)
    (lasts : ((Record.fresh dialedLink).after ((metAfter said).take 2)).link.closed = false) :
    VisitsHost (metAfter said) := by
  have greeted : VisitsHost [greeting] := .concat .nil (by decide) rfl
  have heard : VisitsHost ((metAfter said).take 2) :=
    greeted.concat (by decide) (by decide +kernel)
  refine heard.concat ?_ lasts
  simp [metAfter, greeting, stepAtHost, hostAnnounced]

/-- The stranger is relayed twice, and told once. -/
theorem gossip_throttled_twice :
    let steps := strangerRelayed (strangerRelayed (metAfter (.pong 0)))
    VisitsHost steps ∧
      ((Record.fresh dialedLink).noticesAlong steps).map Notice.told = [false, true] ∧
      ((Record.fresh dialedLink).noticesAlong steps).Pairwise
        (Notice.Spaced (hostAnnounced true []).around.config.relayThrottle) := by
  intro steps
  have met := visitsHost_metAfter (.pong 0) (by decide +kernel)
  have once : VisitsHost (strangerRelayed (metAfter (.pong 0))) :=
    met.concat (by decide +kernel) (by decide +kernel)
  have twice : VisitsHost steps :=
    once.concat (by decide +kernel) (by decide +kernel)
  exact ⟨twice, by decide +kernel, (gossip_throttled twice).1⟩

/-- The host tells of the stranger before it announces itself, which does not count.  So it is
told of the stranger at the same time. -/
theorem early_news_told_back :
    let stranger : PeerAddress := .fresh (.direct "5.5.5.5" defaultPort) .full 0
    let steps := strangerRelayed (metAfter (.addresses [stranger]))
    VisitsHost steps ∧
      ((Record.fresh dialedLink).after (steps.take 1)).task? (steps[1]) =
        some (.message (.addresses [stranger]) []) ∧
      (∀ step ∈ steps, step.around.now = 0) ∧
      0 < (hostAnnounced true []).around.config.relayThrottle ∧
      ⟨0, [stranger], true⟩ ∈ (Record.fresh dialedLink).noticesAlong steps := by
  intro stranger steps
  have met := visitsHost_metAfter (.addresses [stranger]) (by decide +kernel)
  exact ⟨met.concat (by decide +kernel) (by decide +kernel), rfl, by decide +kernel,
    by decide, by decide +kernel⟩

end PeerOverlay.Agent
