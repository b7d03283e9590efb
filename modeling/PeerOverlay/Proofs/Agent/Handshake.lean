import PeerOverlay.Proofs.Agent.Run

/-!
# The handshake

The versions of both ends come and go in any order, and the exchange may be
completed from either side.  The manager is told of a peer at most once, and only
of one whose version was accepted after this node had announced itself.
-/

namespace PeerOverlay.Agent

/-- Whether a version may be accepted on a link to an address. -/
structure Acceptance.Fits (acceptance : Acceptance) (dialed : Option PeerAddress) : Prop where
  compatible : isCompatible acceptance.version.version = true
  genesisHash : acceptance.version.genesisHash = acceptance.genesisHash
  address : ∀ address, dialed = some address →
    address.samePeer acceptance.version.peerAddress = true

/-- Whether a peer is the one that a version on a link announces. -/
structure AnnouncedBy (said : Version) (id : LinkId) (peer : Peer) : Prop where
  link : peer.link = id
  version : peer.version = said.version
  startHeight : peer.startHeight = said.startHeight
  totalWork : peer.totalWork = said.totalWork
  endpoint : peer.address.endpoint = said.peerAddress.endpoint

theorem announcedBy_announced (around : Surroundings) (id : LinkId) (version : Version) :
    AnnouncedBy version id (announced around id version) :=
  ⟨rfl, rfl, rfl, rfl, rfl⟩

theorem fits_of_not_refused {genesisHash : String} {dialed : Option PeerAddress}
    {version : Version} (fits : refusal? genesisHash dialed version = none) :
    Acceptance.Fits ⟨version, genesisHash⟩ dialed := by
  unfold refusal? at fits
  split at fits
  · cases fits
  · next compatible =>
      split at fits
      · cases fits
      · next genesis =>
          have compatible : isCompatible version.version = true := by
            simpa using compatible
          have genesis : version.genesisHash = genesisHash := Decidable.of_not_not genesis
          refine ⟨compatible, genesis, ?_⟩
          intro address known
          rw [known] at fits
          by_cases same : address.samePeer version.peerAddress = true
          · exact same
          · simp [same] at fits

/-! ## What the exchange of versions comes to -/

/-- Whether an exchange of versions on a link has come to what was announced in some
steps and accepted. -/
structure Exchange.Agrees (link : Link) (steps : List Step) (accepted : List Acceptance)
    (exchange : Exchange) : Prop where
  id : exchange.id = link.id
  announced : exchange.sent = true →
    ∃ step ∈ steps, Message.version step.around.ownVersion ∈ exchange.queue
  unheard : exchange.received = false →
    accepted = [] ∧ exchange.peer = none ∧ exchange.address = link.peerAddress
  heard : exchange.received = true →
    ∃ acceptance peer, accepted = [acceptance] ∧ acceptance.Fits link.peerAddress ∧
      exchange.peer = some peer ∧ AnnouncedBy acceptance.version link.id peer
  /-- The manager is told of the peer as soon as both versions are exchanged. -/
  told : exchange.events.filterMap Event.handshake? =
    if exchange.sent then exchange.peer.toList else []

theorem accepted?_of_same {around : Surroundings} {heard : Option Version}
    {before after : Exchange} (same : after.received = before.received) :
    accepted? around heard before after = none := by
  unfold accepted?
  rw [same]
  cases before.received <;> rfl

namespace Exchange.Agrees

variable {link : Link} {steps : List Step} {accepted : List Acceptance}
variable {before after : Exchange} {step : Step} {heard : Option Version}

theorem kept (agrees : before.Agrees link steps accepted) (step : Step)
    (messages : List Message) (events : List Event)
    (quiet : events.filterMap Event.handshake? = []) :
    (before.add messages events).Agrees link (steps ++ [step]) accepted where
  id := agrees.id
  announced := by
    intro sent
    obtain ⟨earlier, mem, queued⟩ := agrees.announced sent
    exact ⟨earlier, List.mem_append_left _ mem, List.mem_append_left _ queued⟩
  unheard := agrees.unheard
  heard := agrees.heard
  told := by
    show (before.events ++ events).filterMap Event.handshake? = _
    rw [List.filterMap_append, quiet, List.append_nil]
    exact agrees.told

theorem nowAnnounced (agrees : before.Agrees link steps accepted)
    (unsent : before.sent = false) (messages : List Message) :
    ({ before with sent := true }.add (.version step.around.ownVersion :: messages)
      (if before.received then before.peer.toList.map .handshake else [])).Agrees link
        (steps ++ [step]) accepted where
  id := agrees.id
  announced := by
    intro _
    refine ⟨step, ?_, ?_⟩
    · simp
    · simp [Exchange.add]
  unheard := agrees.unheard
  heard := agrees.heard
  told := by
    -- Nothing was told while this node was not announced, so what is told now is the first.
    have silent : before.events.filterMap Event.handshake? = [] := by
      rw [agrees.told, unsent]
      rfl
    show (before.events ++ _).filterMap Event.handshake? = before.peer.toList
    rw [List.filterMap_append, silent, List.nil_append]
    cases received : before.received with
    | false =>
        obtain ⟨_, nobody, _⟩ := agrees.unheard received
        rw [nobody]
        rfl
    | true =>
        cases before.peer <;> rfl

theorem nowAccepted (agrees : before.Agrees link steps accepted) {version : Version}
    (unreceived : before.received = false)
    (fits : refusal? step.around.chain.genesisHash before.address version = none)
    (messages : List Message) :
    ({ before with
        received := true
        peer := some (Agent.announced step.around before.id version)
        address := some (before.address.getD (completed step.around.book version.peerAddress)) }.add
      messages
      (if before.sent then [.handshake (Agent.announced step.around before.id version)]
        else [])).Agrees link (steps ++ [step])
      (accepted ++ [Acceptance.mk version step.around.chain.genesisHash]) := by
  obtain ⟨nothing, nobody, address⟩ := agrees.unheard unreceived
  rw [nothing, agrees.id]
  rw [address] at fits
  refine ⟨rfl, ?_, ?_, ?_, ?_⟩
  · intro sent
    obtain ⟨earlier, mem, queued⟩ := agrees.announced sent
    exact ⟨earlier, List.mem_append_left _ mem, List.mem_append_left _ queued⟩
  · intro missing
    cases missing
  · intro _
    refine ⟨⟨version, step.around.chain.genesisHash⟩,
      Agent.announced step.around link.id version, rfl, fits_of_not_refused fits, rfl, ?_⟩
    exact announcedBy_announced step.around link.id version
  -- Nothing was told while no version was accepted either.
  · have silent : before.events.filterMap Event.handshake? = [] := by
      rw [agrees.told, nobody]
      cases before.sent <;> rfl
    show (before.events ++ _).filterMap Event.handshake? = if before.sent then _ else _
    rw [List.filterMap_append, silent, List.nil_append]
    cases before.sent <;> rfl

theorem exchanged (agrees : before.Agrees link steps accepted)
    (exchanged : Exchanged step.around heard before after) :
    after.Agrees link (steps ++ [step])
      (accepted ++ (accepted? step.around heard before after).toList) := by
  cases exchanged with
  | kept messages events quiet same =>
      have nothing : accepted? step.around heard before after = none :=
        accepted?_of_same (by rw [same]; rfl)
      rw [nothing, same]
      simpa using agrees.kept step messages events quiet
  | announced unsent messages same =>
      have nothing : accepted? step.around heard before after = none :=
        accepted?_of_same (by rw [same]; rfl)
      rw [nothing, same]
      simpa using agrees.nowAnnounced unsent messages
  | accepted version came unreceived fits messages same =>
      have something : accepted? step.around heard before after =
          some ⟨version, step.around.chain.genesisHash⟩ := by
        unfold accepted?
        rw [same, came, unreceived]
        rfl
      rw [something, same]
      exact agrees.nowAccepted unreceived fits messages

end Exchange.Agrees

/-! ## Along a run -/

/-- What a turn does to the exchange, it does to the exchange with what was queued and
told before. -/
theorem Exchanged.entered {around : Surroundings} {heard : Option Version}
    {before after : Exchange} (exchanged : Exchanged around heard before after)
    (silent : before.events = []) (queued : List Message) (events : List Event) :
    Exchanged around heard { before with queue := queued, events := events }
      { after with
        queue := queued ++ after.queue.drop before.queue.length
        events := events ++ after.events } := by
  cases exchanged with
  | kept messages news quiet same =>
      refine .kept messages news quiet ?_
      simp [same, silent, Exchange.add]
  | announced unsent messages same =>
      refine .announced unsent messages ?_
      simp [same, silent, Exchange.add]
  | accepted version came unreceived fits messages same =>
      refine .accepted version came unreceived fits messages ?_
      simp [same, silent, Exchange.add]

namespace Record

theorem exchanged_note (record : Record) (step : Step) (task : Task) :
    Exchanged step.around task.version? record.exchange (record.note step task).exchange :=
  (exchanged_perform step.around task (record.start step)).entered rfl record.queued
    record.events

theorem exchange_note_of_quiet (record : Record) (step : Step) (task : Task)
    (quiet : (perform step.around task (record.start step)).exchange =
      (record.start step).exchange) :
    (record.note step task).exchange = record.exchange := by
  show { (perform step.around task (record.start step)).exchange with
    queue := record.queued ++ (perform step.around task (record.start step)).exchange.queue.drop
      (record.start step).exchange.queue.length
    events := record.events ++
      (perform step.around task (record.start step)).exchange.events } = record.exchange
  rw [quiet, List.drop_length, List.append_nil]
  show { record.exchange with events := record.events ++ [] } = record.exchange
  rw [List.append_nil]
  rfl

def Agrees (link : Link) (steps : List Step) (record : Record) : Prop :=
  record.exchange.Agrees link steps record.accepted

theorem agrees_fresh (link : Link) : (fresh link).Agrees link [] := by
  refine ⟨rfl, ?_, ?_, ?_, rfl⟩
  · intro sent
    cases sent
  · intro _
    exact ⟨rfl, rfl, rfl⟩
  · intro received
    cases received

variable {link : Link} {steps : List Step} {record : Record}

theorem enter_of_task {step : Step} {task : Task} (next : record.task? step = some task) :
    record.enter step = record.note step task := by
  unfold Record.enter
  rw [next]

theorem Agrees.enter (agrees : record.Agrees link steps) (step : Step) :
    (record.enter step).Agrees link (steps ++ [step]) := by
  unfold Record.enter
  split
  · have kept := agrees.kept step [] [] rfl
    rwa [Exchange.add_nil] at kept
  · next task next => exact agrees.exchanged (record.exchanged_note step task)

theorem Agrees.after (agrees : record.Agrees link steps) (later : List Step) :
    (record.after later).Agrees link (steps ++ later) := by
  induction later generalizing record steps with
  | nil => rwa [List.append_nil]
  | cons step others hypothesis =>
      have entered := hypothesis (agrees.enter step)
      rwa [List.append_assoc] at entered

theorem Agrees.received_eq_false (agrees : record.Agrees link steps)
    (nothing : record.accepted = []) : record.exchange.received = false := by
  cases received : record.exchange.received with
  | false => rfl
  | true =>
      obtain ⟨acceptance, _, one, _⟩ := agrees.heard received
      rw [one] at nothing
      cases nothing

theorem Agrees.received_eq_true (agrees : record.Agrees link steps)
    (something : record.accepted ≠ []) : record.exchange.received = true := by
  cases received : record.exchange.received with
  | false => exact absurd (agrees.unheard received).1 something
  | true => rfl

end Record

/-! ## Messages out of order -/

theorem received_acceptVersion (around : Surroundings) (version : Version) (turn : Turn) :
    (acceptVersion around version turn).exchange.received = true := by
  unfold acceptVersion
  dsimp only
  split
  · obtain ⟨messages, same⟩ := exchange_finishHandshake around _
    rw [same]
    rfl
  · rfl

theorem exchange_onVersion_of_refused {around : Surroundings} {version : Version}
    {turn : Turn} (unheard : turn.agent.versionReceived = false)
    (refused : (onVersion around version turn).exchange.received = false) :
    (onVersion around version turn).exchange = turn.exchange := by
  unfold onVersion at refused ⊢
  rw [unheard, if_neg Bool.false_ne_true] at refused ⊢
  dsimp only at refused ⊢
  split
  · rfl
  · next fits =>
      rw [fits] at refused
      dsimp only at refused
      rw [received_acceptVersion] at refused
      cases refused

/-- Before the version of the peer is accepted, nothing else that comes is answered. -/
theorem exchange_onMessage_of_unheard {around : Surroundings} {message : Message}
    {turn : Turn} (unheard : turn.agent.versionReceived = false)
    (refused : (onMessage around message turn).exchange.received = false) :
    (onMessage around message turn).exchange = turn.exchange := by
  unfold onMessage at refused ⊢
  split
  · rfl
  · next lasting =>
      rw [if_neg lasting, unheard, if_neg Bool.false_ne_true] at refused
      rw [unheard, if_neg Bool.false_ne_true]
      cases message with
      | version version => exact exchange_onVersion_of_refused unheard refused
      | _ => rfl

/-- A version after the accepted one is only counted. -/
theorem onMessage_version_of_received (around : Surroundings) (version : Version)
    (turn : Turn) (lasting : turn.link.closed = false)
    (received : turn.agent.versionReceived = true) :
    onMessage around (.version version) turn = turn.discard := by
  unfold onMessage
  rw [lasting, if_neg Bool.false_ne_true, if_pos received]
  exact if_pos received

namespace Record

variable {link : Link} {steps : List Step} {record : Record} {step : Step}
variable {message : Message} {others : List Message}

theorem enter_of_unheard (agrees : record.Agrees link steps)
    (next : record.task? step = some (.message message others))
    (before : record.accepted = []) (after : (record.enter step).accepted = []) :
    (record.enter step).events = record.events ∧
      (record.enter step).queued = record.queued := by
  have unheard : record.agent.versionReceived = false := agrees.received_eq_false before
  have refused : (record.enter step).exchange.received = false :=
    (agrees.enter step).received_eq_false after
  rw [enter_of_task next] at refused ⊢
  have same := record.exchange_note_of_quiet step (.message message others)
    (exchange_onMessage_of_unheard unheard refused)
  exact ⟨congrArg Exchange.events same, congrArg Exchange.queue same⟩

theorem step_of_received (received : record.exchange.received = true) {version : Version}
    (next : record.task? step = some (.message (.version version) others)) :
    Agent.step step.around (record.agentAt step) (record.linkAt step) =
      some ⟨{ record.agentAt step with discarded := (record.agentAt step).discarded + 1 },
        { record.linkAt step with inbound := others }, []⟩ := by
  have known : (record.agentAt step).versionReceived = true := received
  obtain ⟨lasting, _⟩ := nextTask?_eq_message next
  rw [step_eq_perform next]
  exact congrArg some (onMessage_version_of_received step.around version
    ⟨record.agentAt step, { record.linkAt step with inbound := others }, []⟩ lasting known)

end Record

/-- Whatever comes, rings or is wanted in whatever order, the manager is told of a peer
at most once, after this node was announced and one version that fits was accepted.
Until then no other message is answered, and later versions are only counted. -/
theorem handshake_once_and_valid (link : Link) (steps : List Step) :
    let record := (Record.fresh link).after steps
    (record.events.filterMap Event.handshake?).length ≤ 1 ∧
    (∀ peer, .handshake peer ∈ record.events →
      (∃ step ∈ steps, .version step.around.ownVersion ∈ record.queued) ∧
      ∃ acceptance, record.accepted = [acceptance] ∧
        acceptance.Fits link.peerAddress ∧ AnnouncedBy acceptance.version link.id peer) ∧
    ∀ step message others, record.task? step = some (.message message others) →
      (record.accepted = [] → (record.enter step).accepted = [] →
        (record.enter step).events = record.events ∧
        (record.enter step).queued = record.queued) ∧
      (record.accepted ≠ [] → ∀ version, message = .version version →
        Agent.step step.around (record.agentAt step) (record.linkAt step) =
          some ⟨{ record.agentAt step with discarded := (record.agentAt step).discarded + 1 },
            { record.linkAt step with inbound := others }, []⟩) := by
  intro record
  have agrees : record.Agrees link steps := (Record.agrees_fresh link).after steps
  refine ⟨?_, ?_, ?_⟩
  · have told : record.events.filterMap Event.handshake? = _ := agrees.told
    rw [told]
    split
    · cases record.exchange.peer <;> simp
    · simp
  · intro peer mem
    have listed : peer ∈ record.events.filterMap Event.handshake? :=
      List.mem_filterMap.mpr ⟨.handshake peer, mem, rfl⟩
    have told : record.events.filterMap Event.handshake? = _ := agrees.told
    rw [told] at listed
    split at listed
    · next sent =>
        refine ⟨agrees.announced sent, ?_⟩
        cases received : record.exchange.received with
        | false =>
            obtain ⟨_, nobody, _⟩ := agrees.unheard received
            rw [nobody] at listed
            cases listed
        | true =>
            obtain ⟨acceptance, known, one, fits, somebody, announced⟩ := agrees.heard received
            rw [somebody] at listed
            obtain rfl : peer = known := by simpa using listed
            exact ⟨acceptance, one, fits, announced⟩
    · cases listed
  · intro step message others next
    constructor
    · intro before after
      exact Record.enter_of_unheard agrees next before after
    · rintro something version rfl
      exact Record.step_of_received (agrees.received_eq_true something) next

/-- The link of an attempt to connect to a host. -/
def dialedLink : Link :=
  .opened 1 .outbound .direct none (some (.fresh (.direct "2.2.2.2" defaultPort) .full 0))

/-- The host announces itself. -/
def hostAnnounced (takes : Bool) (rung : List Alarm) : Step where
  around := {
    config := .full (.fresh (.direct "1.1.1.1" defaultPort) .full 0) ""
    chain := ⟨"genesis", 0, 0⟩
    book := .empty
    now := 0
    wallClock := 0
    nonce := 0
    lots := []
  }
  timers := Timers.empty.setTimeout .versionRetry 0 500 .versionRetry
  rung := rung
  relays := []
  link :=
    { dialedLink with
      takes := takes
      inbound := [.version {
        version := protocolVersion
        peerAddress := .fresh (.direct "2.2.2.2" defaultPort) .full 0
        genesisHash := "genesis"
        startHeight := 7
        totalWork := 9 }] }

/-- The version of the host is heard while the transport takes nothing, and this node is
announced when it tries again. -/
def heardFirst : List Step :=
  [hostAnnounced false [], hostAnnounced false [], hostAnnounced true [.versionRetry]]

theorem handshake_once_heardFirst :
    let record := (Record.fresh dialedLink).after heardFirst
    let again := hostAnnounced true []
    ∃ peer acceptance, record.events = [.handshake peer] ∧ record.accepted = [acceptance] ∧
      acceptance.Fits dialedLink.peerAddress ∧
      AnnouncedBy acceptance.version dialedLink.id peer ∧ peer.startHeight = 7 ∧
      Agent.step again.around (record.agentAt again) (record.linkAt again) =
        some ⟨{ record.agentAt again with discarded := (record.agentAt again).discarded + 1 },
          { record.linkAt again with inbound := [] }, []⟩ := by
  intro record again
  have told : record.events = [.handshake {
      link := 1
      address := .fresh (.direct "2.2.2.2" defaultPort) .full 0
      version := protocolVersion
      startHeight := 7
      totalWork := 9 }] := by decide
  obtain ⟨_, valid, later⟩ := handshake_once_and_valid dialedLink heardFirst
  obtain ⟨_, acceptance, one, fits, announced⟩ := valid _ (told ▸ List.mem_singleton_self _)
  have something : record.accepted ≠ [] := by
    rw [one]
    exact List.cons_ne_nil acceptance []
  have counted := (later again _ [] rfl).2 something _ rfl
  exact ⟨_, acceptance, told, one, fits, announced, rfl, counted⟩

end PeerOverlay.Agent
