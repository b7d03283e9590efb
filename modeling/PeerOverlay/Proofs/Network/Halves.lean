import PeerOverlay.Proofs.Agent.Lasting
import PeerOverlay.Proofs.Agent.Says
import PeerOverlay.Proofs.Manager.Arrivals
import PeerOverlay.Proofs.Network.Order

/-!
# Two nodes and the connection between them

A network of two nodes that are joined by one connection falls into two halves.
Every task is a step of one half; the other half is left as it is, up to what a
pump has carried there.
-/

namespace PeerOverlay

open Manager (Arrival Effect Part)

/-- The link that an event hands to a manager. -/
def Event.connection? : Event → Option LinkId
  | .connection link => some link
  | _ => none

/-- Whether an event is about no other link and brings no signal. -/
def Event.Concerns (id : LinkId) : Event → Prop
  | .connection link => link = id
  | .handshake peer => peer.link = id
  | .signal _ _ => False
  | .ban link _ => link = id
  | .closed link _ => link = id
  | _ => True

/-- How far an agent has come with the exchange of versions. -/
structure Agent.Progress where
  started : Bool
  phase : Agent.Phase
  sent : Bool
  received : Bool
  peer : Option Peer

def Agent.Progress.new : Agent.Progress where
  started := false
  phase := .awaitingHandshake
  sent := false
  received := false
  peer := none

/-- Whether an agent has come to its end. -/
def Agent.Progress.IsOver (progress : Agent.Progress) : Prop :=
  progress.started = true ∧ progress.phase = .closed

def Agent.progress (agent : Agent) : Agent.Progress where
  started := agent.started
  phase := agent.phase
  sent := agent.versionSent
  received := agent.versionReceived
  peer := agent.peer

def Manager.Arrival.peer? : Arrival → Option Peer
  | .joined peer => some peer
  | _ => none

def Manager.Arrival.link : Arrival → LinkId
  | .attended link => link
  | .joined peer => peer.link

namespace Network

/-! ## Halves -/

/-- One end of a connection between two nodes. -/
structure Side where
  node : NodeName
  link : LinkId
  /-- The address that the node announces. -/
  address : PeerAddress

/-- Both ends of a connection. -/
structure Ends where
  own : Side
  other : Side
  nodes_ne : own.node ≠ other.node
  links_ne : own.link ≠ other.link

def Ends.swap (ends : Ends) : Ends :=
  ⟨ends.other, ends.own, ends.nodes_ne.symm, ends.links_ne.symm⟩

/-- What there is at one end of a connection. -/
structure Half where
  events : List Event
  parts : List Part
  /-- Whether the manager has taken the link in. -/
  seated : Bool
  progress : Option Agent.Progress
  link : Link
  /-- What the pump from this end holds, if it still runs. -/
  pump : Option (Option Message)
  joined : List Peer

/-- The peers of which a node has published that they have joined on a link. -/
def joined (network : Network) (node : NodeName) (link : LinkId) : List Peer :=
  ((network.journal.filter fun report => report.node = node).filterMap fun report =>
    report.effect.arrival?.bind Arrival.peer?).filter fun peer => peer.link = link

/-- Whether a running node has some events and some parts of a reaction before it, and
its link a slot. -/
structure Side.Serves (side : Side) (events : List Event) (parts : List Part) (seated : Bool)
    (member : Member) : Prop where
  events : member.events = events
  parts : member.parts = parts
  seated : (member.manager.slots.get? side.link).isSome = seated
  address : member.manager.config.peerAddress = side.address
  stopped : member.manager.stopped = false
  loop : member.loop = .running

theorem Side.Serves.loop_ne_stopped {side : Side} {events : List Event} {parts : List Part}
    {seated : Bool} {member : Member} (served : side.Serves events parts seated member) :
    member.loop ≠ .stopped := by
  rw [served.loop]
  decide

theorem Side.Serves.notify {side : Side} {events : List Event} {parts : List Part}
    {seated : Bool} {member : Member} (served : side.Serves events parts seated member)
    (event : Event) : side.Serves (events ++ [event]) parts seated (member.notify event) := by
  unfold Member.notify
  rw [if_neg served.loop_ne_stopped]
  exact ⟨congrArg (· ++ [event]) served.events, served.parts, served.seated, served.address,
    served.stopped, served.loop⟩

/-- Whether a half is what a network has at a side. -/
structure Shows (network : Network) (side : Side) (target : LinkId) (half : Half) : Prop where
  member : ∃ member, network.members.get? side.node = some member ∧
    side.Serves half.events half.parts half.seated member
  agent : (network.agents.get? side.link).map (fun known => (known.agent.progress, known.owner)) =
    half.progress.map fun progress => (progress, side.node)
  link : network.links.get? side.link = some half.link
  id : half.link.id = side.link
  pump : network.pumps.get? side.link = half.pump.map fun held => ⟨target, held⟩
  joined : network.joined side.node side.link = half.joined

/-- Whether a network consists of two halves, apart from agents that have come to their
end. -/
structure Paired (ends : Ends) (network : Network) (own other : Half) : Prop where
  own : network.Shows ends.own ends.other.link own
  other : network.Shows ends.other ends.own.link other
  members : ∀ node member, network.members.get? node = some member →
    node = ends.own.node ∨ node = ends.other.node
  agents : ∀ id attendance, network.agents.get? id = some attendance →
    id = ends.own.link ∨ id = ends.other.link ∨ attendance.agent.progress.IsOver
  pumps : ∀ id pump, network.pumps.get? id = some pump →
    id = ends.own.link ∨ id = ends.other.link

namespace Paired

variable {ends : Ends} {network after : Network} {own other : Half}

theorem swap (paired : Paired ends network own other) : Paired ends.swap network other own :=
  ⟨paired.other, paired.own, fun node member known => (paired.members node member known).symm,
    fun id attendance known => or_left_comm.1 (paired.agents id attendance known),
    fun id pump known => (paired.pumps id pump known).symm⟩

/-- Neither the time nor the timers belong to a half. -/
theorem of_same (paired : Paired ends network own other)
    (members : after.members = network.members) (links : after.links = network.links)
    (agents : after.agents = network.agents) (pumps : after.pumps = network.pumps)
    (journal : after.journal = network.journal) : Paired ends after own other := by
  have shows_ {side : Side} {target : LinkId} {half : Half}
      (shown : network.Shows side target half) : after.Shows side target half := by
    refine ⟨?_, ?_, ?_, shown.id, ?_, ?_⟩
    · rw [members]
      exact shown.member
    · rw [agents]
      exact shown.agent
    · rw [links]
      exact shown.link
    · rw [pumps]
      exact shown.pump
    · rw [Network.joined, journal]
      exact shown.joined
  refine ⟨shows_ paired.own, shows_ paired.other, ?_, ?_, ?_⟩
  · rw [members]
    exact paired.members
  · rw [agents]
    exact paired.agents
  · rw [pumps]
    exact paired.pumps

/-- One node has changed, and nothing else. -/
theorem changeMember (paired : Paired ends network own other) (change : Member → Member)
    (events : List Event) (parts : List Part) (seated : Bool)
    (serves : ∀ member, ends.own.Serves own.events own.parts own.seated member →
      ends.own.Serves events parts seated (change member)) :
    Paired ends (network.changeMember ends.own.node change)
      { own with events := events, parts := parts, seated := seated } other := by
  refine ⟨⟨?_, paired.own.agent, paired.own.link, paired.own.id, paired.own.pump,
      paired.own.joined⟩,
    ⟨?_, paired.other.agent, paired.other.link, paired.other.id, paired.other.pump,
      paired.other.joined⟩, ?_, paired.agents, paired.pumps⟩
  · obtain ⟨member, known, served⟩ := paired.own.member
    refine ⟨change member, ?_, serves member served⟩
    show (network.members.modify _ _).get? _ = _
    rw [Table.get?_modify, known]
    exact congrArg some (if_pos rfl)
  · obtain ⟨member, known, served⟩ := paired.other.member
    refine ⟨member, ?_, served⟩
    show (network.members.modify _ _).get? _ = _
    rw [Table.get?_modify, known]
    exact congrArg some (if_neg ends.nodes_ne.symm)
  · intro node member known
    have found : (network.members.modify ends.own.node change).get? node = some member := known
    rw [Table.get?_modify] at found
    obtain ⟨old, stored, _⟩ := Option.map_eq_some_iff.1 found
    exact paired.members node old stored

theorem notify (paired : Paired ends network own other) (event : Event) :
    Paired ends (network.notify ends.own.node event)
      { own with events := own.events ++ [event] } other :=
  paired.changeMember _ _ own.parts own.seated fun _ served => served.notify event

theorem foldl_notify (paired : Paired ends network own other) (events : List Event) :
    Paired ends (events.foldl (fun network event => network.notify ends.own.node event) network)
      { own with events := own.events ++ events } other := by
  induction events generalizing network own with
  | nil =>
      rw [List.append_nil]
      exact paired
  | cons event others hypothesis =>
      have rest := hypothesis (paired.notify event)
      rw [List.append_assoc] at rest
      exact rest

/-- One link and its agent have changed, and nothing else. -/
theorem changeLink (paired : Paired ends network own other) {link : Link}
    {progress : Option Agent.Progress} (links : Links) (agents : Table LinkId Attendance)
    (id : link.id = ends.own.link)
    (links_eq : ∀ id, links.get? id =
      if ends.own.link = id then some link else network.links.get? id)
    (agent : (agents.get? ends.own.link).map (fun known => (known.agent.progress, known.owner)) =
      progress.map fun progress => (progress, ends.own.node))
    (agents_eq : ∀ id, ends.own.link ≠ id → agents.get? id = network.agents.get? id) :
    Paired ends { network with links := links, agents := agents }
      { own with link := link, progress := progress } other := by
  refine ⟨⟨paired.own.member, agent, ?_, id, paired.own.pump, paired.own.joined⟩,
    ⟨paired.other.member, ?_, ?_, paired.other.id, paired.other.pump, paired.other.joined⟩,
    paired.members, ?_, paired.pumps⟩
  · rw [links_eq, if_pos rfl]
  · rw [agents_eq _ ends.links_ne]
    exact paired.other.agent
  · rw [links_eq, if_neg ends.links_ne]
    exact paired.other.link
  · intro tested attendance known
    by_cases here : ends.own.link = tested
    · exact .inl here.symm
    · have found : agents.get? tested = some attendance := known
      rw [agents_eq tested here] at found
      exact paired.agents tested attendance found

/-- Agents may change as long as none of them comes any further. -/
theorem changeAgents (paired : Paired ends network own other) (agents : Table LinkId Attendance)
    (same : ∀ id, (agents.get? id).map (fun known => (known.agent.progress, known.owner)) =
      (network.agents.get? id).map fun known => (known.agent.progress, known.owner)) :
    Paired ends { network with agents := agents } own other := by
  refine ⟨⟨paired.own.member, (same _).trans paired.own.agent, paired.own.link, paired.own.id,
      paired.own.pump, paired.own.joined⟩,
    ⟨paired.other.member, (same _).trans paired.other.agent, paired.other.link, paired.other.id,
      paired.other.pump, paired.other.joined⟩, paired.members, ?_, paired.pumps⟩
  intro id attendance known
  have found : agents.get? id = some attendance := known
  have stored := same id
  rw [found] at stored
  obtain ⟨old, before, equal⟩ := Option.map_eq_some_iff.1 stored.symm
  rw [← (Prod.mk.inj equal).1]
  exact paired.agents id old before

/-- What an agent is asked for does not bring it further. -/
theorem changeAgent (paired : Paired ends network own other) (id : LinkId)
    {change : Agent → Agent} (same : ∀ agent, (change agent).progress = agent.progress) :
    Paired ends (network.changeAgent id change) own other := by
  refine paired.changeAgents _ fun tested => ?_
  rw [Table.get?_modify, Option.map_map]
  congr 1
  funext known
  dsimp only [Function.comp]
  split
  · rw [same]
  · rfl

theorem relay (paired : Paired ends network own other) (id : LinkId)
    (addresses : List PeerAddress) : Paired ends (network.relay id addresses) own other := by
  apply paired.changeAgent id
  intro agent
  split <;> rfl

theorem release (paired : Paired ends network own other) (id : LinkId) :
    Paired ends (network.release id) own other := by
  apply paired.changeAgent id
  intro agent
  rfl

end Paired

/-! ## What a manager wants to be done -/

namespace Half

def arrive (half : Half) : Arrival → Half
  | .attended _ => { half with progress := some .new }
  | .joined peer => { half with joined := half.joined ++ [peer] }

/-- A half with a number of checks of the number of peers that wait. -/
def check (half : Half) (checks : Nat) : Half :=
  { half with events := half.events ++ List.replicate checks .checkPeerCount }

theorem check_check (half : Half) (first second : Nat) :
    (half.check first).check second = half.check (first + second) := by
  unfold check
  rw [List.append_assoc, List.replicate_append_replicate]

theorem foldl_arrive_check (half : Half) (arrivals : List Arrival) (checks : Nat) :
    arrivals.foldl arrive (half.check checks) = (arrivals.foldl arrive half).check checks := by
  induction arrivals generalizing half with
  | nil => rfl
  | cons arrival others hypothesis =>
      have first : (half.check checks).arrive arrival = (half.arrive arrival).check checks := by
        cases arrival <;> rfl
      rw [List.foldl_cons, first, hypothesis]
      rfl

end Half

namespace Paired

variable {ends : Ends} {network : Network} {own other : Half}

theorem note (paired : Paired ends network own other) {effect : Effect}
    (arrives : ∀ arrival, effect.arrival? = some arrival → arrival.link = ends.own.link) :
    Paired ends { network with journal := network.journal ++ [⟨ends.own.node, effect⟩] }
      { own with joined := own.joined ++ (effect.arrival?.bind Arrival.peer?).toList } other := by
  have noted (node : NodeName) (link : LinkId) :
      joined { network with journal := network.journal ++ [⟨ends.own.node, effect⟩] } node link =
        network.joined node link ++
          if ends.own.node = node then
            (effect.arrival?.bind Arrival.peer?).toList.filter fun peer => peer.link = link
          else [] := by
    unfold joined
    rw [List.filter_append, List.filterMap_append, List.filter_append]
    by_cases here : ends.own.node = node
    · cases known : effect.arrival?.bind Arrival.peer? <;> simp [here, known]
    · simp [here]
  refine ⟨⟨paired.own.member, paired.own.agent, paired.own.link, paired.own.id, paired.own.pump,
      ?_⟩,
    ⟨paired.other.member, paired.other.agent, paired.other.link, paired.other.id,
      paired.other.pump, ?_⟩, paired.members, paired.agents, paired.pumps⟩
  · rw [noted, if_pos rfl, paired.own.joined]
    congr 1
    apply List.filter_eq_self.2
    intro peer member
    obtain ⟨arrival, arrived, same⟩ := Option.bind_eq_some_iff.1 (Option.mem_toList.1 member)
    have own := arrives arrival arrived
    cases arrival with
    | attended link => cases same
    | joined other =>
        cases same
        exact decide_eq_true own
  · rw [noted, if_neg ends.nodes_ne, List.append_nil, paired.other.joined]

theorem attend (paired : Paired ends network own other) :
    Paired ends (network.attend ends.own.node ends.own.link)
      { own with progress := some .new } other := by
  refine paired.changeLink network.links _ paired.own.id ?_ ?_ ?_
  · intro id
    split
    · next here =>
        rw [← here]
        exact paired.own.link
    · rfl
  · show (((network.agents.insert _ _).get? _).map _) = _
    rw [Table.get?_insert, if_pos rfl]
    rfl
  · intro id elsewhere
    show (network.agents.insert _ _).get? id = _
    rw [Table.get?_insert, if_neg elsewhere]

theorem carryOut (paired : Paired ends network own other) {effect : Effect}
    (arrives : ∀ arrival, effect.arrival? = some arrival → arrival.link = ends.own.link) :
    ∃ checks, Paired ends (network.carryOut ends.own.node effect)
      ((effect.arrival?.toList.foldl Half.arrive own).check checks) other := by
  have noted := paired.note arrives
  have unchecked {reached : Network} {half : Half} (paired : Paired ends reached half other) :
      Paired ends reached (half.check 0) other := by
    unfold Half.check
    rw [List.replicate_zero, List.append_nil]
    exact paired
  have silent (quiet : effect.arrival?.bind Arrival.peer? = none) :
      Paired ends { network with journal := network.journal ++ [⟨ends.own.node, effect⟩] }
        own other := by
    rw [quiet] at noted
    simpa using noted
  cases effect with
  | attend link =>
      have own : link = ends.own.link := arrives _ rfl
      rw [own] at silent ⊢
      exact ⟨0, unchecked (silent rfl).attend⟩
  | relay link addresses => exact ⟨0, unchecked ((silent rfl).relay link addresses)⟩
  | release link => exact ⟨0, unchecked ((silent rfl).release link)⟩
  | dial address via started => exact ⟨0, unchecked (silent rfl)⟩
  | handSignal link signal => exact ⟨0, unchecked (silent rfl)⟩
  | publish news =>
      cases news with
      | joined peer => exact ⟨0, unchecked noted⟩
      | left peer => exact ⟨0, unchecked (silent rfl)⟩
      | changed => exact ⟨0, unchecked (silent rfl)⟩
  | recheck delay =>
      cases delay with
      | none => exact ⟨1, (silent rfl).notify .checkPeerCount⟩
      | some delay => exact ⟨0, unchecked ((silent rfl).of_same rfl rfl rfl rfl rfl)⟩

theorem foldl_carryOut (paired : Paired ends network own other) {effects : List Effect}
    (arrives : ∀ arrival ∈ effects.filterMap Effect.arrival?, arrival.link = ends.own.link) :
    ∃ checks, Paired ends (effects.foldl (Network.carryOut ends.own.node) network)
      (((effects.filterMap Effect.arrival?).foldl Half.arrive own).check checks) other := by
  induction effects generalizing network own with
  | nil =>
      refine ⟨0, ?_⟩
      unfold Half.check
      rw [List.replicate_zero, List.append_nil]
      exact paired
  | cons effect others hypothesis =>
      have arrivals : (effect :: others).filterMap Effect.arrival? =
          effect.arrival?.toList ++ others.filterMap Effect.arrival? := by
        cases arrived : effect.arrival? <;> simp [arrived]
      rw [arrivals] at arrives
      have soonest (arrival : Arrival) (arrived : effect.arrival? = some arrival) :
          arrival.link = ends.own.link :=
        arrives arrival (List.mem_append_left _ (Option.mem_toList.2 arrived))
      obtain ⟨first, carried⟩ := paired.carryOut soonest
      obtain ⟨rest, done⟩ := hypothesis carried fun arrival member =>
        arrives arrival (List.mem_append_right _ member)
      refine ⟨first + rest, ?_⟩
      rw [Half.foldl_arrive_check, Half.check_check, ← List.foldl_append] at done
      rw [arrivals]
      exact done

end Paired

end Network

end PeerOverlay
