import PeerOverlay.Proofs.Agent.Throttle

/-!
# What is lost to the throttle

An agent counts the addresses of a message as known to its peer before it knows whether there is
room for the message.  If there is none, the throttle keeps back for a while what the peer has
never been told.
-/

namespace PeerOverlay.Agent

variable {config : Config} {link : Link} {steps : List Step} {record : Record} {step : Step}

/-- Whether all that the peer counts as knowing at the end of some steps was heard from it or
told to it at that time. -/
def AllExchanged (link : Link) (steps : List Step) : Prop :=
  ∀ endpoint since, ((Record.fresh link).after steps).since? endpoint = some since →
    ∃ notice ∈ (Record.fresh link).noticesAlong steps, notice.time = since ∧
      ∃ address ∈ notice.addresses, address.endpoint = endpoint

/-- Whether the throttle keeps back no address that was not exchanged, along a run: what the peer
counts as knowing was told or heard, and what there was no room for may be told at once. -/
structure NothingLost (link : Link) (steps : List Step) : Prop where
  exchanged : ∀ earlier, earlier <+: steps → AllExchanged link earlier
  relayable : ∀ earlier step, earlier ++ [step] <+: steps →
    ∀ told, ((Record.fresh link).after earlier).gossip? step = some told →
      (((Record.fresh link).after earlier).linkAt step).canSend = false →
        ∀ address ∈ told,
          canRelay step.around ((Record.fresh link).after (earlier ++ [step])).agent address = true

/-- Whether an agent has composed a message for which there is no room, with an address that it
has not exchanged with its peer just now. -/
def Record.Loses (record : Record) (step : Step) : Prop :=
  ∃ told, record.gossip? step = some told ∧ (record.linkAt step).canSend = false ∧
    ∃ address ∈ told, record.since? address.endpoint ≠ some step.around.now

/-- After a step that loses something, the peer counts as knowing what it was not told. -/
theorem not_allExchanged_of_loses {earlier : List Step}
    (course : Course config link (earlier ++ [step]))
    (loses : ((Record.fresh link).after earlier).Loses step) (before : AllExchanged link earlier) :
    ¬ AllExchanged link (earlier ++ [step]) := by
  intro exchanged
  obtain ⟨told, composed, full, address, listed, news⟩ := loses
  obtain ⟨later, closed⟩ := course.last
  have lasting := Record.lasting_of_gossip? closed composed
  cases noticed ((Record.fresh link).after earlier) step with
  | lost addresses same _ learns notices =>
      cases composed.symm.trans same
      have counted : ((Record.fresh link).after (earlier ++ [step])).since? address.endpoint =
          some step.around.now := by
        rw [Record.after_concat]
        exact learns.since?_eq_now listed
      obtain ⟨notice, member, now, other, among, sameEndpoint⟩ :=
        exchanged address.endpoint step.around.now counted
      rw [Record.noticesAlong_concat, notices, List.append_nil] at member
      -- Such a notice is from before, when the peer counted as knowing the address since then.
      obtain ⟨since, earlierCount, early⟩ :=
        remembers_of_course (course.initial (List.prefix_append _ _)) lasting notice member other
          among
      rw [sameEndpoint] at earlierCount
      obtain ⟨past, pastMember, pastTime, _⟩ := before address.endpoint since earlierCount
      have notFuture := time_le_of_mem_noticesAlong later pastMember
      have just : since = step.around.now := by omega
      exact news (just ▸ earlierCount)
  | exchanged addresses told learns notices gossip room =>
      cases told with
      | true => cases full.symm.trans (room rfl)
      | false => cases gossip.symm.trans composed
  | nothing known notices untold => cases untold.symm.trans composed
  | refused addresses closed known notices untold => cases untold.symm.trans composed

/-- A step that loses nothing leaves nothing that was not exchanged. -/
theorem allExchanged_concat (exchanged : AllExchanged link steps)
    (keeps : ¬ ((Record.fresh link).after steps).Loses step) :
    AllExchanged link (steps ++ [step]) := by
  intro endpoint since counted
  rw [Record.after_concat] at counted
  rw [Record.noticesAlong_concat]
  have old (same : ((Record.fresh link).after steps).since? endpoint = some since) :
      ∃ notice ∈ (Record.fresh link).noticesAlong steps ++
          ((Record.fresh link).after steps).noticesIn step,
        notice.time = since ∧ ∃ address ∈ notice.addresses, address.endpoint = endpoint := by
    obtain ⟨notice, member, same⟩ := exchanged endpoint since same
    exact ⟨notice, List.mem_append_left _ member, same⟩
  cases noticed ((Record.fresh link).after steps) step with
  | nothing known notices untold => exact old ((known endpoint).symm.trans counted)
  | refused addresses closed known notices untold =>
      exact old ((known endpoint).symm.trans counted)
  | exchanged addresses told learns notices gossip room =>
      rw [learns endpoint] at counted
      by_cases listed : endpoint ∈ addresses.map PeerAddress.endpoint
      · rw [if_pos listed] at counted
        refine ⟨⟨step.around.now, addresses, told⟩, by simp [notices], Option.some.inj counted, ?_⟩
        simpa using listed
      · rw [if_neg listed] at counted
        exact old counted
  | lost addresses composed full learns notices =>
      rw [learns endpoint] at counted
      by_cases listed : endpoint ∈ addresses.map PeerAddress.endpoint
      · rw [if_pos listed] at counted
        obtain ⟨address, member, rfl⟩ := List.mem_map.1 listed
        rw [← counted] at old
        exact old (Classical.byContradiction fun news =>
          keeps ⟨addresses, composed, full, address, member, news⟩)
      · rw [if_neg listed] at counted
        exact old counted

theorem relayable_of_not_loses (keeps : ¬ record.Loses step) {told : List PeerAddress}
    (composed : record.gossip? step = some told) (full : (record.linkAt step).canSend = false)
    {address : PeerAddress} (listed : address ∈ told) :
    canRelay step.around (record.enter step).agent address = true := by
  obtain ⟨forwardable, foreign, waited⟩ := Record.canRelay_of_gossip? composed listed
  have just : record.since? address.endpoint = some step.around.now :=
    Classical.byContradiction fun news => keeps ⟨told, composed, full, address, listed, news⟩
  refine canRelay_iff.2 ⟨forwardable, foreign, ?_⟩
  intro since _
  have waits := waited step.around.now just
  omega

theorem allExchanged_of_not_loses (course : Course config link steps)
    (keeps : ¬ SomeStep link Record.Loses steps) : AllExchanged link steps := by
  induction course with
  | nil =>
      intro endpoint since counted
      cases counted
  | concat course sameConfig later alarms closed hypothesis =>
      rw [someStep_concat, not_or] at keeps
      exact allExchanged_concat (hypothesis keeps.1) keeps.2

/-- The throttle keeps back nothing that was not exchanged exactly if there is room for every
message of addresses that the agent composes, or all in it was exchanged just then. -/
theorem nothingLost_iff_not_loses (course : Course config link steps) :
    NothingLost link steps ↔ ¬ SomeStep link Record.Loses steps := by
  constructor
  · rintro lost ⟨earlier, step, initial, loses⟩
    exact not_allExchanged_of_loses (course.initial initial) loses
      (lost.exchanged earlier ((List.prefix_append _ _).trans initial))
      (lost.exchanged _ initial)
  · intro keeps
    constructor
    · intro earlier initial
      exact allExchanged_of_not_loses (course.initial initial) fun some => keeps (some.mono initial)
    · intro earlier step initial told composed full address listed
      rw [Record.after_concat]
      refine relayable_of_not_loses ?_ composed full listed
      exact fun loses => keeps ⟨earlier, step, initial, loses⟩

/-- The address of a stranger is to be passed on to the host when there is no room for it. -/
def strangerCrowdedOut (earlier : List Step) : List Step :=
  earlier ++ [stepAtHost earlier [] [[.fresh (.direct "5.5.5.5" defaultPort) .full 0]]
    (List.replicate queueCapacity (.ping 0)) []]

theorem not_loses_atHost (record : Record) (earlier : List Step) (rung : List Alarm)
    (relays : List (List PeerAddress)) (inbound : List Message) :
    ¬ record.Loses (stepAtHost earlier rung relays [] inbound) := by
  rintro ⟨told, _, full, _⟩
  cases full

/-- There is room whenever the stranger is relayed. -/
theorem nothingLost_roomy :
    VisitsHost (strangerRelayed (metAfter (.pong 0))) ∧
      NothingLost dialedLink (strangerRelayed (metAfter (.pong 0))) := by
  have met := visitsHost_metAfter (.pong 0) (by decide +kernel)
  have relayed : VisitsHost (strangerRelayed (metAfter (.pong 0))) :=
    met.concat (by decide +kernel) (by decide +kernel)
  refine ⟨relayed, (nothingLost_iff_not_loses relayed).2 ?_⟩
  show ¬ SomeStep dialedLink Record.Loses
    (((([] ++ [_]) ++ [_]) ++ [_]) ++ [_])
  simp only [someStep_concat, not_or]
  exact ⟨⟨⟨⟨not_someStep_nil, not_loses_atHost _ _ _ _ _⟩, not_loses_atHost _ _ _ _ _⟩,
    not_loses_atHost _ _ _ _ _⟩, not_loses_atHost _ _ _ _ _⟩

/-- The stranger counts as known to the host, which was told nothing, also when there was room
again. -/
theorem stranger_lost :
    let stranger : PeerAddress := .fresh (.direct "5.5.5.5" defaultPort) .full 0
    let steps := strangerRelayed (strangerCrowdedOut (metAfter (.pong 0)))
    VisitsHost steps ∧
      ((Record.fresh dialedLink).after (steps.take 4)).since? stranger.endpoint = some 0 ∧
      ∀ notice ∈ (Record.fresh dialedLink).noticesAlong steps,
        stranger.endpoint ∉ notice.addresses.map PeerAddress.endpoint := by
  intro stranger steps
  have met := visitsHost_metAfter (.pong 0) (by decide +kernel)
  have crowded : VisitsHost (strangerCrowdedOut (metAfter (.pong 0))) :=
    met.concat (by decide +kernel) (by decide +kernel)
  exact ⟨crowded.concat (by decide +kernel) (by decide +kernel), by decide +kernel,
    by decide +kernel⟩

end PeerOverlay.Agent
