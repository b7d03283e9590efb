import PeerOverlay.Proofs.Network.HalfTasks

/-!
# What two nodes learn of each other

A link is handed to a manager once, so it has one agent.  The agent announces its
node once and tells the manager of one peer, which is the other node as it has
announced itself.  As long as neither end is closed, nothing of that is lost.
-/

namespace PeerOverlay

open Manager (Arrival Effect Part)

/-! ## The exchange of versions -/

theorem Event.eq_handshake {event : Event} {peer : Peer} (same : event.handshake? = some peer) :
    event = .handshake peer := by
  cases event with
  | handshake other =>
      cases same
      rfl
  | _ => cases same

theorem Message.eq_version {message : Message} {said : Version}
    (same : message.version? = some said) : message = .version said := by
  cases message with
  | version other =>
      cases same
      rfl
  | _ => cases same

namespace Agent

/-- A version that comes in a step was the first that waited on the link. -/
theorem version_waits {agent : Agent} {link : Link} {task : Task} {said : Version}
    (next : nextTask? agent link = some task) (came : task.version? = some said) :
    .version said ∈ link.inbound := by
  cases task with
  | message message others =>
      rw [← Message.eq_version came, (nextTask?_eq_message next).2]
      exact List.mem_cons_self
  | _ => cases came

/-- No agent tells of a signal if none waits. -/
theorem signal_waits {agent : Agent} {link : Link} {said : Signal} {others : List Message}
    (next : nextTask? agent link = some (.message (.signal said) others)) :
    .signal said ∈ link.inbound := by
  rw [(nextTask?_eq_message next).2]
  exact List.mem_cons_self

/-- The number of peers of which a manager is told by then. -/
def Exchange.completed (exchange : Exchange) : Nat :=
  if exchange.sent && exchange.received then 1 else 0

namespace Exchanged

variable {around : Surroundings} {heard : Option Version} {before after : Exchange}

theorem length_told_le (exchanged : Exchanged around heard before after)
    (silent : before.events = []) :
    (after.events.filterMap Event.handshake?).length + before.completed ≤ after.completed := by
  cases exchanged with
  | kept messages events quiet same =>
      rw [same]
      simp [Exchange.add, Exchange.completed, silent, quiet]
  | announced unsent messages same =>
      rw [same]
      cases before.received <;> cases before.peer <;>
        simp [Exchange.add, Exchange.completed, silent, unsent, Event.handshake?]
  | accepted version came unreceived fits messages same =>
      rw [same]
      cases before.sent <;>
        simp [Exchange.add, Exchange.completed, silent, unreceived, Event.handshake?]

/-- A manager is told of a peer as soon as both versions are exchanged. -/
theorem length_told_eq (exchanged : Exchanged around heard before after)
    (silent : before.events = []) (known : before.received = true → before.peer.isSome) :
    (after.events.filterMap Event.handshake?).length + before.completed = after.completed := by
  cases exchanged with
  | kept messages events quiet same =>
      rw [same]
      simp [Exchange.add, Exchange.completed, silent, quiet]
  | announced unsent messages same =>
      rw [same]
      cases received : before.received with
      | false => simp [Exchange.add, Exchange.completed, silent, unsent, received]
      | true =>
          obtain ⟨peer, somebody⟩ := Option.isSome_iff_exists.1 (known received)
          simp [Exchange.add, Exchange.completed, silent, unsent, received, somebody,
            Event.handshake?]
  | accepted version came unreceived fits messages same =>
      rw [same]
      cases before.sent <;>
        simp [Exchange.add, Exchange.completed, silent, unreceived, Event.handshake?]

theorem peer_of_told (exchanged : Exchanged around heard before after)
    (silent : before.events = []) {peer : Peer} (told : .handshake peer ∈ after.events) :
    after.peer = some peer := by
  have listed : peer ∈ after.events.filterMap Event.handshake? :=
    List.mem_filterMap.2 ⟨.handshake peer, told, rfl⟩
  cases exchanged with
  | kept messages events quiet same =>
      rw [same] at listed
      simp [Exchange.add, silent, quiet] at listed
  | announced unsent messages same =>
      rw [same] at listed ⊢
      show before.peer = some peer
      cases received : before.received <;> cases somebody : before.peer <;>
        simp_all [Exchange.add, Event.handshake?]
  | accepted version came unreceived fits messages same =>
      rw [same] at listed ⊢
      cases sent : before.sent <;> simp_all [Exchange.add, Event.handshake?]

theorem peer_eq (exchanged : Exchanged around heard before after) :
    after.peer = before.peer ∨
      ∃ version, heard = some version ∧
        after.peer = some (Agent.announced around before.id version) := by
  cases exchanged with
  | kept messages events quiet same =>
      left
      rw [same]
      rfl
  | announced unsent messages same =>
      left
      rw [same]
      rfl
  | accepted version came unreceived fits messages same =>
      refine .inr ⟨version, came, ?_⟩
      rw [same]
      rfl

theorem known (exchanged : Exchanged around heard before after)
    (known : before.received = true → before.peer.isSome) :
    after.received = true → after.peer.isSome := by
  cases exchanged with
  | kept messages events quiet same =>
      rw [same]
      exact known
  | announced unsent messages same =>
      rw [same]
      exact known
  | accepted version came unreceived fits messages same =>
      rw [same]
      exact fun _ => rfl

theorem received (exchanged : Exchanged around heard before after)
    (received : before.received = true) : after.received = true := by
  cases exchanged with
  | kept messages events quiet same => exact (congrArg Exchange.received same).trans received
  | announced unsent messages same => exact (congrArg Exchange.received same).trans received
  | accepted version came unreceived fits messages same => exact congrArg Exchange.received same

end Exchanged

end Agent

namespace Network

/-! ## What is found in a half -/

/-- Whether a peer on a link of one side is the node at the other side, as it was when
it announced one of some chains. -/
structure Side.Meets (own other : Side) (chains : List Chain) (peer : Peer) : Prop where
  link : peer.link = own.link
  endpoint : peer.address.endpoint = other.address.endpoint
  tip : ∃ chain ∈ chains, peer.startHeight = chain.height ∧ peer.totalWork = chain.totalWork

/-- Whether a message may come from a side that has announced some chains. -/
def Side.Sends (side : Side) (chains : List Chain) : Message → Prop
  | .version said => said.peerAddress.endpoint = side.address.endpoint ∧
      ∃ chain ∈ chains, said.startHeight = chain.height ∧ said.totalWork = chain.totalWork
  | .signal _ => False
  | _ => True

namespace Half

variable (half : Half)

/-- The links that wait for the manager. -/
def handed : List LinkId :=
  half.parts.filterMap Part.connection? ++ half.events.filterMap Event.connection?

/-- The peers that have joined or of which the manager will find that they have announced
themselves. -/
def peers : List Peer :=
  half.joined ++
    (half.parts.filterMap Part.handshake? ++ half.events.filterMap Event.handshake?)

/-- The links of which the manager will find that they have ended. -/
def ended : List LinkId :=
  half.parts.filterMap Part.closed? ++ half.events.filterMap Event.closed?

def sent : Bool := half.progress.any Agent.Progress.sent

def received : Bool := half.progress.any Agent.Progress.received

/-- The number of peers that the manager was told of. -/
def completed : Nat :=
  if half.sent && half.received then 1 else 0

/-- The messages that are on their way to the other half. -/
def leaving : List Message :=
  (half.pump.bind id).toList ++ half.link.outbound

theorem peers_act (turn : Agent.Turn) :
    (half.act turn).peers = half.peers ++ turn.events.filterMap Event.handshake? := by
  show half.joined ++ (_ ++ (half.events ++ turn.events).filterMap Event.handshake?) = _
  unfold peers
  rw [List.filterMap_append, ← List.append_assoc, ← List.append_assoc, ← List.append_assoc]
  rfl

theorem handed_act (turn : Agent.Turn) :
    (half.act turn).handed = half.handed ++ turn.events.filterMap Event.connection? := by
  show _ ++ (half.events ++ turn.events).filterMap Event.connection? = _
  rw [List.filterMap_append, ← List.append_assoc]
  rfl

theorem ended_act (turn : Agent.Turn) :
    (half.act turn).ended = half.ended ++ turn.events.filterMap Event.closed? := by
  show _ ++ (half.events ++ turn.events).filterMap Event.closed? = _
  rw [List.filterMap_append, ← List.append_assoc]
  rfl

theorem leaving_act {turn : Agent.Turn} {queued : List Message}
    (outbound : turn.link.outbound = half.link.outbound ++ queued) :
    (half.act turn).leaving = half.leaving ++ queued := by
  show _ ++ turn.link.outbound = _
  rw [outbound, ← List.append_assoc]
  rfl

theorem filterMap_check {α : Type} (checks : Nat) {view : Event → Option α}
    (quiet : view Event.checkPeerCount = none) :
    (half.check checks).events.filterMap view = half.events.filterMap view := by
  show (half.events ++ List.replicate checks Event.checkPeerCount).filterMap view = _
  rw [List.filterMap_append, List.filterMap_replicate_of_none quiet, List.append_nil]

theorem handed_check (checks : Nat) : (half.check checks).handed = half.handed := by
  unfold handed
  rw [filterMap_check half checks rfl]
  rfl

theorem peers_check (checks : Nat) : (half.check checks).peers = half.peers := by
  unfold peers
  rw [filterMap_check half checks rfl]
  rfl

theorem ended_check (checks : Nat) : (half.check checks).ended = half.ended := by
  unfold ended
  rw [filterMap_check half checks rfl]
  rfl

theorem completed_eq {half : Half} {agent : Agent} (reached : half.progress = some agent.progress)
    (link : Link) (events : List Event) :
    half.completed = (Agent.Turn.mk agent link events).exchange.completed := by
  unfold completed sent received
  rw [reached]
  rfl

/-- What is there at one end of a connection at any time: the link has an agent or waits for
one, and every peer is the node at the other end. -/
structure Sound (own other : Side) (ownChains otherChains : List Chain) : Prop where
  id : half.link.id = own.link
  events : ∀ event ∈ half.events, event.Concerns own.link
  parts : ∀ part ∈ half.parts, part.Concerns own.link
  handed : half.handed.length ≤ if half.progress.isSome then 0 else 1
  few : half.peers.length ≤ half.completed
  met : ∀ peer ∈ half.peers, own.Meets other otherChains peer
  known : ∀ progress peer, half.progress = some progress → progress.peer = some peer →
    own.Meets other otherChains peer
  announced : ownChains.length = if half.sent then 1 else 0
  inbound : ∀ message ∈ half.link.inbound, other.Sends otherChains message
  leaving : ∀ message ∈ half.leaving, own.Sends ownChains message

end Half

/-! ## Any time -/

theorem Side.Meets.grown {own other : Side} {chains : List Chain} {peer : Peer}
    (meets : own.Meets other chains peer) (more : List Chain) :
    own.Meets other (chains ++ more) peer := by
  obtain ⟨chain, member, same⟩ := meets.tip
  exact ⟨meets.link, meets.endpoint, chain, List.mem_append_left more member, same⟩

theorem Side.Sends.grown {side : Side} {chains : List Chain} {message : Message}
    (sends : side.Sends chains message) (more : List Chain) :
    side.Sends (chains ++ more) message := by
  cases message with
  | version said =>
      obtain ⟨endpoint, chain, member, same⟩ := sends
      exact ⟨endpoint, chain, List.mem_append_left more member, same⟩
  | signal said => exact sends
  | _ => trivial

namespace Half.Sound

variable {own other : Side} {ownChains otherChains : List Chain} {half after : Half}

theorem grown (sound : half.Sound own other ownChains otherChains) (more : List Chain) :
    half.Sound own other ownChains (otherChains ++ more) where
  id := sound.id
  events := sound.events
  parts := sound.parts
  handed := sound.handed
  few := sound.few
  met := fun peer member => (sound.met peer member).grown more
  known := fun progress peer reached known => (sound.known progress peer reached known).grown more
  announced := sound.announced
  inbound := fun message member => (sound.inbound message member).grown more
  leaving := sound.leaving

/-- A half from which something was taken away, and to which nothing was added but what
belongs there. -/
theorem of_fewer (sound : half.Sound own other ownChains otherChains)
    (id : after.link.id = half.link.id)
    (events : ∀ event ∈ after.events, event.Concerns own.link)
    (parts : ∀ part ∈ after.parts, part.Concerns own.link)
    (handed : after.handed.Sublist half.handed) (peers : after.peers.Sublist half.peers)
    (progress : after.progress = half.progress)
    (inbound : ∀ message ∈ after.link.inbound, other.Sends otherChains message)
    (leaving : ∀ message ∈ after.leaving, message ∈ half.leaving) :
    after.Sound own other ownChains otherChains := by
  have sent : after.sent = half.sent := by
    unfold Half.sent
    rw [progress]
  have completed : after.completed = half.completed := by
    unfold Half.completed Half.sent Half.received
    rw [progress]
  refine ⟨id.trans sound.id, events, parts, ?_, ?_, ?_, ?_, ?_, inbound, ?_⟩
  · rw [progress]
    exact Nat.le_trans handed.length_le sound.handed
  · rw [completed]
    exact Nat.le_trans peers.length_le sound.few
  · exact fun peer member => sound.met peer (peers.subset member)
  · rw [progress]
    exact sound.known
  · rw [sent]
    exact sound.announced
  · exact fun message member => sound.leaving message (leaving message member)

theorem check (sound : half.Sound own other ownChains otherChains) (checks : Nat) :
    (half.check checks).Sound own other ownChains otherChains := by
  refine sound.of_fewer rfl ?_ sound.parts ?_ ?_ rfl sound.inbound fun _ member => member
  · intro event member
    rcases List.mem_append.1 member with before | added
    · exact sound.events event before
    · rw [List.eq_of_mem_replicate added]
      trivial
  · exact (half.handed_check checks).symm ▸ .refl half.handed
  · exact (half.peers_check checks).symm ▸ .refl half.peers

/-! ## Managers -/

/-- A link that waits for the manager has no agent, and does not wait twice. -/
theorem unattended {id : LinkId} {others : List Part}
    (sound : half.Sound own other ownChains otherChains)
    (first : half.parts = .connection id :: others) :
    half.progress = none ∧ Half.handed { half with parts := others } = [] := by
  have one : half.handed = id :: Half.handed { half with parts := others } := by
    unfold Half.handed
    rw [first]
    rfl
  have bound := sound.handed
  rw [one, List.length_cons] at bound
  cases progress : half.progress with
  | some progress =>
      rw [progress] at bound
      exact absurd bound (Nat.not_succ_le_zero _)
  | none =>
      rw [progress] at bound
      exact ⟨rfl, List.eq_nil_of_length_eq_zero (Nat.le_zero.1 (Nat.le_of_succ_le_succ bound))⟩

theorem led {part : Part} {others : List Part}
    (sound : half.Sound own other ownChains otherChains) (first : half.parts = part :: others)
    (led : Led { half with parts := others } part after) :
    after.Sound own other ownChains otherChains := by
  have fewer : (others).Sublist half.parts := first ▸ List.sublist_cons_self part others
  have left : { half with parts := others }.Sound own other ownChains otherChains :=
    sound.of_fewer rfl sound.events (fun other member => sound.parts other (fewer.subset member))
      ((fewer.filterMap _).append_right _)
      (((fewer.filterMap _).append_right _).append_left _) rfl sound.inbound
      fun _ member => member
  cases led with
  | refused id reason =>
      exact left.of_fewer rfl left.events left.parts (.refl _) (.refl _) rfl
        (fun message member => absurd member List.not_mem_nil) fun _ member => member
  | turnedAway peer reason =>
      exact left.of_fewer rfl left.events left.parts (.refl _) (.refl _) rfl left.inbound
        fun _ member => member
  | banned id reason =>
      exact left.of_fewer rfl left.events left.parts (.refl _) (.refl _) rfl left.inbound
        fun _ member => member
  | missed peer unseated => exact left
  | ended id seated =>
      exact left.of_fewer rfl left.events left.parts (.refl _) (.refl _) rfl left.inbound
        fun _ member => member
  | idle link peer lasts => exact left
  | takenIn id =>
      obtain ⟨unattended, nothing⟩ := sound.unattended first
      have unsent : half.sent = false := by
        unfold Half.sent
        rw [unattended]
        rfl
      have few := left.few
      have announced := left.announced
      refine ⟨left.id, left.events, left.parts, ?_, ?_, left.met, ?_, ?_, left.inbound,
        left.leaving⟩
      · exact Nat.le_of_eq (congrArg List.length nothing)
      · have none : half.completed = 0 := by
          unfold Half.completed
          rw [unsent]
          rfl
        exact Nat.le_trans few (Nat.le_of_eq none)
      · intro reached peer same known
        cases same
        cases known
      · exact announced.trans (congrArg (fun sent => if sent then 1 else 0) unsent)
  | joined peer slot =>
      have same : (half.joined ++ [slot.locate peer] ++
          (others.filterMap Part.handshake? ++ half.events.filterMap Event.handshake?)).length =
            half.peers.length := by
        unfold Half.peers
        rw [first]
        simp [Part.handshake?]
      have member : peer ∈ half.peers := by
        unfold Half.peers
        rw [first]
        simp [Part.handshake?]
      have own := sound.met peer member
      refine ⟨left.id, left.events, left.parts, left.handed, ?_, ?_, left.known, left.announced,
        left.inbound, left.leaving⟩
      · exact Nat.le_trans (Nat.le_of_eq same) sound.few
      · intro other present
        rcases List.mem_append.1 present with joined | waiting
        · rcases List.mem_append.1 joined with before | now
          · exact left.met other (List.mem_append_left _ before)
          · rw [List.mem_singleton.1 now]
            exact ⟨own.link, own.endpoint, own.tip⟩
        · exact left.met other (List.mem_append_right _ waiting)

theorem managed (sound : half.Sound own other ownChains otherChains)
    (manages : half.Manages after) : after.Sound own other ownChains otherChains := by
  cases manages with
  | checked free =>
      refine sound.of_fewer rfl sound.events ?_ ?_ ?_ rfl sound.inbound fun _ member => member
      · intro part member
        rw [List.mem_singleton.1 member]
        trivial
      · unfold Half.handed
        rw [free]
        exact .refl _
      · unfold Half.peers
        rw [free]
        exact .refl _
  | took event others parts free first leaves checks =>
      apply check
      have concerns : event.Concerns own.link := sound.events event (first ▸ List.mem_cons_self)
      refine sound.of_fewer rfl ?_ (leaves.concerns own.link concerns) ?_ ?_ rfl sound.inbound
        fun _ member => member
      · intro other member
        exact sound.events other (first ▸ List.mem_cons_of_mem event member)
      · unfold Half.handed
        rw [free, first, leaves.link]
        cases handed : event.connection? <;> simp [handed]
      · unfold Half.peers
        rw [free, first, leaves.peer]
        cases announced : event.handshake? <;> simp [announced]
  | did part others first after done checks => exact (sound.led first done).check checks

/-! ## Agents -/

section Agents

variable {around : Agent.Surroundings} {agent : Agent} {task : Agent.Task}

/-- Whatever an agent keeps of its peer has come from the other node. -/
theorem known_perform (sound : half.Sound own other ownChains otherChains)
    (reached : half.progress = some agent.progress)
    (next : agent.nextTask? half.link = some task) {peer : Peer}
    (somebody : (Agent.perform around task ⟨agent, half.link, []⟩).agent.peer = some peer) :
    own.Meets other otherChains peer := by
  have exchanged := Agent.exchanged_perform around task ⟨agent, half.link, []⟩
  rcases exchanged.peer_eq with same | ⟨version, came, same⟩
  · exact sound.known _ peer reached (same.symm.trans somebody)
  · obtain ⟨endpoint, tip⟩ := sound.inbound _ (Agent.version_waits next came)
    cases same.symm.trans somebody
    exact ⟨sound.id, endpoint, tip⟩

/-- What an agent tells is about its link, and no signal. -/
theorem concerns_perform (sound : half.Sound own other ownChains otherChains)
    (reached : half.progress = some agent.progress)
    (next : agent.nextTask? half.link = some task) {event : Event}
    (told : event ∈ (Agent.perform around task ⟨agent, half.link, []⟩).events) :
    event.Concerns own.link := by
  have exchanged := Agent.exchanged_perform around task ⟨agent, half.link, []⟩
  cases (Agent.accounted_perform next).events event told with
  | handshake peer =>
      exact (sound.known_perform reached next (exchanged.peer_of_told rfl told)).link
  | addresses addresses others came few => trivial
  | ban addresses others reason came many => exact sound.id
  | signal said others came =>
      subst came
      exact sound.inbound _ (Agent.signal_waits next)
  | closed byRemote => exact sound.id

/-- What an agent queues may come from its side. -/
theorem sends_perform (ownChains : List Chain)
    (next : agent.nextTask? half.link = some task)
    (address : around.config.peerAddress = own.address) :
    ∃ queued, (Agent.perform around task ⟨agent, half.link, []⟩).link.outbound =
        half.link.outbound ++ queued ∧
      ∀ message ∈ queued, own.Sends (ownChains ++
        ((Agent.perform around task ⟨agent, half.link, []⟩).versionsAfter half.link).map
          fun _ => around.chain) message := by
  have accounted : Agent.Accounted around task agent half.link _ := Agent.accounted_perform next
  obtain ⟨queued, outbound, said⟩ := accounted.outbound
  refine ⟨queued, outbound, ?_⟩
  intro message member
  cases said message member with
  | version =>
      have listed : around.ownVersion ∈ queued.filterMap Message.version? :=
        List.mem_filterMap.2 ⟨_, member, rfl⟩
      rw [← Agent.versionsAfter_of_outbound outbound] at listed
      refine ⟨congrArg PeerAddress.endpoint address, around.chain, ?_, rfl, rfl⟩
      exact List.mem_append_right _ (List.mem_map.2 ⟨_, listed, rfl⟩)
  | _ => trivial

theorem filterMap_connection_of_told (next : agent.nextTask? half.link = some task) :
    (Agent.perform around task ⟨agent, half.link, []⟩).events.filterMap Event.connection? = [] := by
  apply List.filterMap_eq_nil_iff.2
  intro event told
  cases (Agent.accounted_perform next).events event told <;> rfl

end Agents

theorem acted {chains : List Chain} (sound : half.Sound own other ownChains otherChains)
    (acts : half.Acts own chains after) :
    after.Sound own other (ownChains ++ chains) otherChains := by
  cases acts with
  | step around agent task reached next address =>
      have exchanged := Agent.exchanged_perform around task ⟨agent, half.link, []⟩
      obtain ⟨queued, outbound, sends⟩ := sends_perform ownChains next address
      refine ⟨exchanged.id_eq.trans sound.id, ?_, sound.parts, ?_, ?_, ?_, ?_, ?_, ?_, ?_⟩
      · intro event member
        rcases List.mem_append.1 member with before | now
        · exact sound.events event before
        · exact sound.concerns_perform reached next now
      · have handed := sound.handed
        rw [reached] at handed
        rw [handed_act, filterMap_connection_of_told next, List.append_nil]
        exact handed
      · have told := exchanged.length_told_le rfl
        have few := sound.few
        rw [completed_eq reached half.link []] at few
        rw [peers_act, List.length_append, Nat.add_comm]
        exact Nat.le_trans (Nat.add_le_add_left few _) told
      · intro peer member
        rw [peers_act] at member
        rcases List.mem_append.1 member with before | now
        · exact sound.met peer before
        · obtain ⟨event, told, same⟩ := List.mem_filterMap.1 now
          rw [Event.eq_handshake same] at told
          exact sound.known_perform reached next (exchanged.peer_of_told rfl told)
      · intro progress peer same somebody
        cases same
        exact sound.known_perform reached next somebody
      · have announced := sound.announced
        have sent : half.sent = agent.versionSent := by
          unfold Half.sent
          rw [reached]
          rfl
        have kept := Agent.sent_perform around task agent half.link
        have versions := Agent.versionsAfter_perform around task agent half.link
        rw [sent] at announced
        show (_ ++ List.map _ _).length = if (Agent.perform around task
          ⟨agent, half.link, []⟩).agent.versionSent then 1 else 0
        rw [List.length_append, List.length_map, announced, versions]
        cases before : agent.versionSent with
        | true =>
            rw [kept before]
            rfl
        | false =>
            cases (Agent.perform around task ⟨agent, half.link, []⟩).agent.versionSent <;> rfl
      · intro message member
        exact sound.inbound message ((Agent.accounted_perform next).inbound message member)
      · intro message member
        rw [leaving_act half outbound] at member
        rcases List.mem_append.1 member with before | now
        · exact (sound.leaving message before).grown _
        · exact sends message now

/-! ## Pumps -/

theorem pumped {opposite source target : Half}
    (sound : half.Sound own other ownChains otherChains)
    (across : opposite.Sound other own otherChains ownChains)
    (pumps : half.Pumps opposite source target) :
    source.Sound own other ownChains otherChains ∧
      target.Sound other own otherChains ownChains := by
  cases pumps with
  | took message others free waiting bytes =>
      constructor
      · refine sound.of_fewer rfl sound.events sound.parts (.refl _) (.refl _) rfl sound.inbound ?_
        intro other member
        unfold Half.leaving
        rw [free, waiting]
        exact member
      · exact across.of_fewer rfl across.events across.parts (.refl _) (.refl _) rfl across.inbound
          fun _ member => member
  | delivered message holds =>
      have left : half.leaving = message :: half.link.outbound := by
        unfold Half.leaving
        rw [holds]
        rfl
      constructor
      · refine sound.of_fewer rfl sound.events sound.parts (.refl _) (.refl _) rfl sound.inbound ?_
        intro other member
        rw [left]
        exact List.mem_cons_of_mem message member
      · refine across.of_fewer rfl across.events across.parts (.refl _) (.refl _) rfl ?_
          fun _ member => member
        intro other member
        rcases List.mem_append.1 member with before | now
        · exact across.inbound other before
        · rw [List.mem_singleton.1 now]
          exact sound.leaving message (left ▸ List.mem_cons_self)
  | finished over_ =>
      constructor
      · exact sound.of_fewer rfl sound.events sound.parts (.refl _) (.refl _) rfl sound.inbound
          fun _ member => absurd member List.not_mem_nil
      · exact across.of_fewer rfl across.events across.parts (.refl _) (.refl _) rfl across.inbound
          fun _ member => member

/-! ## Steps -/

theorem stepped {opposite source target : Half} {chains : List Chain}
    (sound : half.Sound own other ownChains otherChains)
    (across : opposite.Sound other own otherChains ownChains)
    (steps : half.Steps own opposite chains source target) :
    source.Sound own other (ownChains ++ chains) otherChains ∧
      target.Sound other own otherChains (ownChains ++ chains) := by
  cases steps with
  | stays => exact ⟨(List.append_nil ownChains).symm ▸ sound, across.grown []⟩
  | checked checks =>
      exact ⟨(List.append_nil ownChains).symm ▸ sound.check checks, across.grown []⟩
  | managed after manages =>
      exact ⟨(List.append_nil ownChains).symm ▸ sound.managed manages, across.grown []⟩
  | acted chains after acts => exact ⟨sound.acted acts, across.grown chains⟩
  | pumped source target pumps =>
      obtain ⟨left, reached⟩ := sound.pumped across pumps
      exact ⟨(List.append_nil ownChains).symm ▸ left, reached.grown []⟩

end Half.Sound

end Network

end PeerOverlay
