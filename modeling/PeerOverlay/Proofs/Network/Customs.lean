import PeerOverlay.Network.Control
import PeerOverlay.Proofs.Agent.Says
import PeerOverlay.Proofs.Manager.Relays
import PeerOverlay.Proofs.Network.Order

/-!
# Customs of a network

A custom is a rule for everything that may be found in a network: managers,
addresses, messages on links and between them, events that wait, parts of
reactions, and addresses that agents are to pass on.  Managers and agents keep
to it by themselves.
-/

namespace PeerOverlay

/-- Whether an agent finds the configuration and the book of a manager around
it. -/
structure Agent.Surroundings.Reads (around : Agent.Surroundings) (manager : Manager) :
    Prop where
  config : around.config = manager.config
  book : around.book = manager.book

/-- Whether a link has lost messages at most, and has the same addresses. -/
structure Link.Loses (before after : Link) : Prop where
  outbound : ∀ message ∈ after.outbound, message ∈ before.outbound
  inbound : ∀ message ∈ after.inbound, message ∈ before.inbound
  peerAddress : after.peerAddress = before.peerAddress
  netAddress : after.netAddress = before.netAddress

theorem Link.Loses.close (link : Link) (reason : String) : link.Loses (link.close reason) :=
  ⟨fun _ member => member, fun _ member => member, rfl, rfl⟩

theorem Link.Loses.abandon (link : Link) : link.Loses link.abandon :=
  ⟨fun _ member => member, fun _ member => absurd member List.not_mem_nil, rfl, rfl⟩

namespace Network

/-! ## Rules -/

/-- What may be found in a network. -/
structure Rules where
  manager : Manager → Prop
  /-- The addresses of peers and of the other ends of links. -/
  address : PeerAddress → Prop
  /-- Where transports see the other ends of links. -/
  netAddress : NetAddress → Prop
  message : Message → Prop
  event : Event → Prop
  part : Manager.Part → Prop
  /-- The addresses that an agent is to pass on. -/
  relay : List PeerAddress → Prop

namespace Rules

variable (rules : Rules)

structure OnLink (link : Link) : Prop where
  outbound : ∀ message ∈ link.outbound, rules.message message
  inbound : ∀ message ∈ link.inbound, rules.message message
  peerAddress : ∀ address, link.peerAddress = some address → rules.address address
  netAddress : ∀ netAddress, link.netAddress = some netAddress → rules.netAddress netAddress

def OnLinks (links : Links) : Prop :=
  ∀ id link, links.get? id = some link → rules.OnLink link

structure InAgent (agent : Agent) : Prop where
  relays : ∀ addresses ∈ agent.relays, rules.relay addresses
  peer : ∀ peer, agent.peer = some peer → rules.address peer.address

structure InMember (member : Member) : Prop where
  manager : rules.manager member.manager
  events : ∀ event ∈ member.events, rules.event event
  parts : ∀ part ∈ member.parts, rules.part part

/-- Whether the task of an agent brings nothing else. -/
def InTask : Agent.Task → Prop
  | .message message _ => rules.message message
  | .relay addresses _ => rules.relay addresses
  | _ => True

/-- Whether a control asks for nothing else. -/
def InControl : Manager.Control → Prop
  | .dial address => rules.address address
  | _ => True

end Rules

/-- Rules that managers and agents keep to by themselves. -/
structure Custom extends Rules where
  speaks : ∀ {owner : Manager} {around : Agent.Surroundings} {task : Agent.Task}
    {said : Message}, manager owner → around.Reads owner → toRules.InTask task →
      Agent.Says around task said → message said
  tells : ∀ {owner : Manager} {around : Agent.Surroundings} {id : LinkId}
    {task : Agent.Task} {told : Event}, manager owner → around.Reads owner →
      toRules.InTask task →
        (∀ peer, told.handshake? = some peer → address peer.address) →
          Agent.Tells around id task told → event told
  completes : ∀ {owner : Manager} {version : Version}, manager owner →
    message (.version version) → address (Agent.completed owner.book version.peerAddress)
  takes : ∀ {turn : Manager.Turn} {taken : Event}, manager turn.manager → event taken →
    manager (Manager.take taken turn).2.manager ∧
      ∀ left ∈ (Manager.take taken turn).1, part left
  performs : ∀ {around : Manager.Surroundings} {turn : Manager.Turn} {done : Manager.Part},
    manager turn.manager → toRules.OnLinks turn.links → part done →
      manager (done.perform around turn).manager
  follows : ∀ {owner : Manager} {link : LinkId} {signal sent : Signal}, manager owner →
    part (.route link signal) →
      Manager.Follows owner.config.signalTtlInitial signal sent → message (.signal sent)
  relays : ∀ {owner : Manager} {done : Manager.Part} {addresses : List PeerAddress},
    manager owner → part done → done.Relays owner addresses → relay addresses
  obeys : ∀ {around : Manager.Surroundings} {turn : Manager.Turn}
    {control : Manager.Control}, manager turn.manager → toRules.InControl control →
      manager (Manager.follow around control turn).2.manager
  checks : event .checkPeerCount ∧ part .checkPeerCount

/-! ## Links -/

namespace Rules

variable {rules : Rules} {links before after : Links}

theorem OnLink.loses {before after : Link} (onLink : rules.OnLink before)
    (loses : before.Loses after) : rules.OnLink after := by
  refine ⟨?_, ?_, ?_, ?_⟩
  · intro message member
    exact onLink.outbound message (loses.outbound message member)
  · intro message member
    exact onLink.inbound message (loses.inbound message member)
  · rw [loses.peerAddress]
    exact onLink.peerAddress
  · rw [loses.netAddress]
    exact onLink.netAddress

theorem OnLink.send {link : Link} (onLink : rules.OnLink link) {message : Message}
    (fits : rules.message message) : rules.OnLink (link.send message).2 := by
  unfold Link.send
  split
  · refine ⟨?_, onLink.inbound, onLink.peerAddress, onLink.netAddress⟩
    intro queued member
    rcases List.mem_append.1 member with earlier | own
    · exact onLink.outbound queued earlier
    · rwa [List.mem_singleton.1 own]
  · exact onLink

theorem OnLink.deliver {link : Link} (onLink : rules.OnLink link) {message : Message}
    (fits : rules.message message) : rules.OnLink (link.deliver message).2 := by
  unfold Link.deliver
  split
  · refine ⟨onLink.outbound, ?_, onLink.peerAddress, onLink.netAddress⟩
    intro waiting member
    rcases List.mem_append.1 member with earlier | own
    · exact onLink.inbound waiting earlier
    · rwa [List.mem_singleton.1 own]
  · exact onLink

namespace OnLinks

theorem insert (onLinks : rules.OnLinks links) {id : LinkId} {link : Link}
    (onLink : rules.OnLink link) : rules.OnLinks (links.insert id link) := by
  intro tested known found
  rw [Table.get?_insert] at found
  split at found
  · rw [← Option.some.inj found]
    exact onLink
  · exact onLinks tested known found

theorem modify (onLinks : rules.OnLinks links) (id : LinkId) {change : Link → Link}
    (loses : ∀ link, Link.Loses link (change link)) : rules.OnLinks (links.modify id change) := by
  intro tested known found
  rw [Table.get?_modify] at found
  obtain ⟨old, stored, same⟩ := Option.map_eq_some_iff.1 found
  have earlier := onLinks tested old stored
  rw [← same]
  split
  · exact earlier.loses (loses old)
  · exact earlier

theorem close (onLinks : rules.OnLinks links) (id : LinkId) (reason : String) :
    rules.OnLinks (links.close id reason) :=
  onLinks.modify id fun link => .close link reason

theorem closeAll (onLinks : rules.OnLinks links) (ids : List LinkId) (reason : String) :
    rules.OnLinks (links.closeAll ids reason) := by
  induction ids generalizing links with
  | nil => exact onLinks
  | cons id others hypothesis => exact hypothesis (onLinks.close id reason)

theorem send (onLinks : rules.OnLinks links) (id : LinkId) {message : Message}
    (fits : rules.message message) : rules.OnLinks (links.send id message).2 := by
  unfold Links.send
  split
  · exact onLinks
  · next link found => exact onLinks.insert ((onLinks id link found).send fits)

theorem hushed (onLinks : rules.OnLinks before) (hushed : Manager.Hushed before after) :
    rules.OnLinks after := by
  cases hushed with
  | kept same => rwa [same]
  | closed id reason same =>
      rw [same]
      exact onLinks.close id reason
  | refused id reason same =>
      rw [same]
      exact (onLinks.close id reason).modify id Link.Loses.abandon

theorem follow (onLinks : rules.OnLinks links) (manager : Manager)
    (around : Manager.Surroundings) (control : Manager.Control) :
    rules.OnLinks (Manager.follow around control (.start manager links)).2.links := by
  rcases Manager.links_follow control (.start manager links) with same | ⟨reason, closed⟩
  · rw [same]
    exact onLinks
  · rw [closed]
    exact onLinks.closeAll _ reason

end OnLinks

end Rules

theorem Custom.onLinks_perform (custom : Custom) {turn : Manager.Turn}
    (manager : custom.manager turn.manager) (onLinks : custom.OnLinks turn.links)
    {part : Manager.Part} (fits : custom.part part) (around : Manager.Surroundings) :
    custom.OnLinks (part.perform around turn).links := by
  cases part with
  | route link signal =>
      cases Manager.sentFor_onSignal around link signal turn with
      | nothing same =>
          rw [Manager.Part.perform, same]
          exact onLinks
      | one id sent follows same =>
          rw [Manager.Part.perform, same]
          exact onLinks.send id (custom.follows manager fits follows)
  | _ => exact onLinks.hushed (Manager.hushed_perform rfl turn)

/-! ## Agents -/

section Steps

variable (custom : Custom) {owner : Manager} {around : Agent.Surroundings} {agent : Agent}
  {link : Link} {task : Agent.Task}

theorem Custom.inTask (onLink : custom.OnLink link) (inAgent : custom.InAgent agent)
    (next : agent.nextTask? link = some task) : custom.InTask task := by
  cases task with
  | message message others =>
      obtain ⟨_, waiting⟩ := Agent.nextTask?_eq_message next
      refine onLink.inbound message ?_
      rw [waiting]
      exact List.mem_cons_self
  | relay addresses others =>
      refine inAgent.relays addresses ?_
      rw [Agent.nextTask?_eq_relay next]
      exact List.mem_cons_self
  | _ => trivial

theorem Custom.completes_version (manager : custom.manager owner) (reads : around.Reads owner)
    (inTask : custom.InTask task) {version : Version} (came : task.version? = some version) :
    custom.address (Agent.completed around.book version.peerAddress) := by
  cases task with
  | message message others =>
      cases message with
      | version said =>
          cases came
          rw [reads.book]
          exact custom.completes manager inTask
      | _ => cases came
  | _ => cases came

/-- What becomes known of the peer in a turn is what a version has announced. -/
theorem Custom.addresses_exchanged {turn : Agent.Turn} (manager : custom.manager owner)
    (reads : around.Reads owner) (onLink : custom.OnLink link) (inAgent : custom.InAgent agent)
    (inTask : custom.InTask task)
    (exchanged : Agent.Exchanged around task.version?
      (Agent.Turn.exchange ⟨agent, link, []⟩) turn.exchange) :
    (∀ peer, turn.exchange.peer = some peer → custom.address peer.address) ∧
      (∀ address, turn.exchange.address = some address → custom.address address) ∧
      ∀ peer ∈ turn.exchange.events.filterMap Event.handshake?, custom.address peer.address := by
  cases exchanged with
  | kept messages events quiet same =>
      rw [same]
      refine ⟨inAgent.peer, onLink.peerAddress, ?_⟩
      intro peer member
      have none : peer ∈ events.filterMap Event.handshake? := member
      rw [quiet] at none
      exact absurd none List.not_mem_nil
  | announced unsent messages same =>
      rw [same]
      refine ⟨inAgent.peer, onLink.peerAddress, ?_⟩
      intro peer member
      have told : peer ∈ (if agent.versionReceived then agent.peer.toList.map Event.handshake
        else []).filterMap Event.handshake? := member
      split at told
      · cases known : agent.peer with
        | none => simp [known] at told
        | some other =>
            have own : peer = other := by simpa [known, Event.handshake?] using told
            rw [own]
            exact inAgent.peer other known
      · exact absurd told List.not_mem_nil
  | accepted version came unreceived fits messages same =>
      have completed := custom.completes_version manager reads inTask came
      rw [same]
      refine ⟨?_, ?_, ?_⟩
      · rintro peer ⟨⟩
        exact completed
      · intro address known
        have learned : link.peerAddress.getD (Agent.completed around.book version.peerAddress) =
            address := Option.some.inj known
        rw [← learned]
        cases expected : link.peerAddress with
        | none => exact completed
        | some other => exact onLink.peerAddress other expected
      · intro peer member
        have told : peer ∈ (if agent.versionSent then
            [Event.handshake (Agent.announced around link.id version)] else []).filterMap
              Event.handshake? := member
        split at told
        · have own : peer = Agent.announced around link.id version := by
            simpa [Event.handshake?] using told
          rw [own]
          exact completed
        · exact absurd told List.not_mem_nil

/-- A step of an agent keeps to the custom. -/
theorem Custom.perform (manager : custom.manager owner) (reads : around.Reads owner)
    (onLink : custom.OnLink link) (inAgent : custom.InAgent agent)
    (next : agent.nextTask? link = some task) :
    custom.InAgent (Agent.perform around task ⟨agent, link, []⟩).agent ∧
      custom.OnLink (Agent.perform around task ⟨agent, link, []⟩).link ∧
      ∀ event ∈ (Agent.perform around task ⟨agent, link, []⟩).events, custom.event event := by
  have inTask := custom.inTask onLink inAgent next
  have accounted : Agent.Accounted around task agent link _ := Agent.accounted_perform next
  obtain ⟨peers, addresses, handshakes⟩ := custom.addresses_exchanged manager reads onLink
    inAgent inTask (Agent.exchanged_perform around task ⟨agent, link, []⟩)
  generalize Agent.perform around task ⟨agent, link, []⟩ = turn at *
  refine ⟨⟨?_, peers⟩, ⟨?_, ?_, addresses, ?_⟩, ?_⟩
  · intro relayed member
    exact inAgent.relays relayed (accounted.relays relayed member)
  · obtain ⟨queued, outbound, said⟩ := accounted.outbound
    intro message member
    rw [outbound] at member
    rcases List.mem_append.1 member with earlier | new
    · exact onLink.outbound message earlier
    · exact custom.speaks manager reads inTask (said message new)
  · intro message member
    exact onLink.inbound message (accounted.inbound message member)
  · rw [accounted.netAddress]
    exact onLink.netAddress
  · intro event member
    refine custom.tells manager reads inTask ?_ (accounted.events event member)
    intro peer told
    exact handshakes peer (List.mem_filterMap.2 ⟨event, member, told⟩)

end Steps

end Network

end PeerOverlay
