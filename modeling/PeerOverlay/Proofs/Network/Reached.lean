import PeerOverlay.Network.Control
import PeerOverlay.Proofs.Network.Customs
import PeerOverlay.Proofs.Network.PumpMoves

/-!
# What a network can reach

If what comes from outside keeps to a custom, then it is kept in every state that
the network can reach: by every task, and by everything that nodes and their owners
do.
-/

namespace PeerOverlay

namespace Network

/-- Whether only what may be found in a network is found there. -/
structure Keeps (rules : Rules) (network : Network) : Prop where
  members : ∀ node member, network.members.get? node = some member → rules.InMember member
  links : rules.OnLinks network.links
  agents : ∀ id attendance, network.agents.get? id = some attendance →
    rules.InAgent attendance.agent
  pumps : ∀ id pump, network.pumps.get? id = some pump →
    ∀ message, pump.held = some message → rules.message message

/-! ## Tasks -/

namespace Keeps

variable {custom : Custom} {network after : Network}

theorem of_links {rules : Rules} (keeps : Keeps rules network) (links : rules.OnLinks after.links)
    (members : after.members = network.members) (agents : after.agents = network.agents)
    (pumps : after.pumps = network.pumps) : Keeps rules after := by
  refine ⟨?_, links, ?_, ?_⟩
  · rw [members]
    exact keeps.members
  · rw [agents]
    exact keeps.agents
  · rw [pumps]
    exact keeps.pumps

theorem changeMember {rules : Rules} (keeps : Keeps rules network) {node : NodeName}
    {change : Member → Member}
    (fits : ∀ member, network.members.get? node = some member → rules.InMember (change member)) :
    Keeps rules (network.changeMember node change) := by
  refine ⟨?_, keeps.links, keeps.agents, keeps.pumps⟩
  intro tested member known
  have found : (network.members.modify node change).get? tested = some member := known
  rw [Table.get?_modify] at found
  obtain ⟨old, stored, same⟩ := Option.map_eq_some_iff.1 found
  rw [← same]
  split
  · next here =>
      rw [here] at stored
      exact fits old stored
  · exact keeps.members tested old stored

theorem changeAgent {rules : Rules} (keeps : Keeps rules network) (id : LinkId)
    {change : Agent → Agent} (fits : ∀ agent, rules.InAgent agent → rules.InAgent (change agent)) :
    Keeps rules (network.changeAgent id change) := by
  refine ⟨keeps.members, keeps.links, ?_, keeps.pumps⟩
  intro tested attendance known
  have found : (network.agents.modify id fun attendance =>
    { attendance with agent := change attendance.agent }).get? tested = some attendance := known
  rw [Table.get?_modify] at found
  obtain ⟨old, stored, same⟩ := Option.map_eq_some_iff.1 found
  have earlier := keeps.agents tested old stored
  rw [← same]
  split
  · exact fits old.agent earlier
  · exact earlier

theorem notify {rules : Rules} (keeps : Keeps rules network) (node : NodeName) {event : Event}
    (fits : rules.event event) : Keeps rules (network.notify node event) := by
  apply keeps.changeMember
  intro member known
  obtain ⟨manager, events, parts⟩ := keeps.members node member known
  unfold Member.notify
  split
  · exact ⟨manager, events, parts⟩
  · refine ⟨manager, ?_, parts⟩
    intro waiting present
    rcases List.mem_append.1 present with earlier | own
    · exact events waiting earlier
    · rwa [List.mem_singleton.1 own]

theorem foldl_notify {rules : Rules} (keeps : Keeps rules network) (node : NodeName)
    {events : List Event} (fits : ∀ event ∈ events, rules.event event) :
    Keeps rules (events.foldl (fun network event => network.notify node event) network) := by
  induction events generalizing network with
  | nil => exact keeps
  | cons event others hypothesis =>
      apply hypothesis (keeps.notify node (fits event List.mem_cons_self))
      intro other member
      exact fits other (List.mem_cons_of_mem event member)

theorem relay {rules : Rules} (keeps : Keeps rules network) (id : LinkId)
    {addresses : List PeerAddress} (fits : rules.relay addresses) :
    Keeps rules (network.relay id addresses) := by
  apply keeps.changeAgent id
  intro agent inAgent
  split
  · exact inAgent
  · refine ⟨?_, inAgent.peer⟩
    intro asked member
    rcases List.mem_append.1 member with earlier | own
    · exact inAgent.relays asked earlier
    · rwa [List.mem_singleton.1 own]

theorem release {rules : Rules} (keeps : Keeps rules network) (id : LinkId) :
    Keeps rules (network.release id) := by
  apply keeps.changeAgent id
  intro agent inAgent
  exact ⟨inAgent.relays, inAgent.peer⟩

theorem attend {rules : Rules} (keeps : Keeps rules network) (node : NodeName) (id : LinkId) :
    Keeps rules (network.attend node id) := by
  refine ⟨keeps.members, keeps.links, ?_, keeps.pumps⟩
  intro tested attendance known
  have found : (network.agents.insert id ⟨.new, node⟩).get? tested = some attendance := known
  rw [Table.get?_insert] at found
  split at found
  · rw [← Option.some.inj found]
    exact ⟨fun _ member => absurd member List.not_mem_nil, fun _ known => by cases known⟩
  · exact keeps.agents tested attendance found

theorem carryOut (keeps : Keeps custom.toRules network) (node : NodeName)
    {effect : Manager.Effect}
    (fits : ∀ addresses, effect.relay? = some addresses → custom.relay addresses) :
    Keeps custom.toRules (network.carryOut node effect) := by
  have noted (journal : List Report) :
      Keeps custom.toRules { network with journal := journal } :=
    keeps.of_links keeps.links rfl rfl rfl
  cases effect with
  | attend id => exact (noted _).attend node id
  | relay id addresses => exact (noted _).relay id (fits addresses rfl)
  | release id => exact (noted _).release id
  | recheck delay =>
      cases delay with
      | none => exact (noted _).notify node custom.checks.1
      | some delay => exact keeps.of_links keeps.links rfl rfl rfl
  | _ => exact noted _

theorem foldl_carryOut (keeps : Keeps custom.toRules network) (node : NodeName)
    {effects : List Manager.Effect}
    (fits : ∀ addresses ∈ effects.filterMap Manager.Effect.relay?, custom.relay addresses) :
    Keeps custom.toRules (effects.foldl (Network.carryOut node) network) := by
  induction effects generalizing network with
  | nil => exact keeps
  | cons effect others hypothesis =>
      have first : Keeps custom.toRules (network.carryOut node effect) := by
        apply keeps.carryOut node
        intro addresses relayed
        apply fits
        exact List.mem_filterMap.2 ⟨effect, List.mem_cons_self, relayed⟩
      apply hypothesis first
      intro addresses member
      obtain ⟨other, present, relayed⟩ := List.mem_filterMap.1 member
      exact fits addresses (List.mem_filterMap.2
        ⟨other, List.mem_cons_of_mem effect present, relayed⟩)

/-- A manager has taken a turn in which it kept to the custom. -/
theorem conclude (keeps : Keeps custom.toRules network) (node : NodeName) {turn : Manager.Turn}
    (manager : custom.manager turn.manager) (links : custom.OnLinks turn.links)
    (relays : ∀ addresses ∈ turn.relays, custom.relay addresses) :
    Keeps custom.toRules (network.conclude node turn) := by
  have linked : Keeps custom.toRules { network with links := turn.links } :=
    keeps.of_links links rfl rfl rfl
  have managed : Keeps custom.toRules ({ network with links := turn.links }.changeMember node
      fun member => { member with manager := turn.manager }) := by
    apply linked.changeMember
    intro member known
    obtain ⟨_, events, parts⟩ := keeps.members node member known
    exact ⟨manager, events, parts⟩
  exact managed.foldl_carryOut node relays

theorem discard {rules : Rules} (keeps : Keeps rules network) (event : Event) :
    Keeps rules (network.discard event) := by
  cases event with
  | connection id =>
      exact keeps.of_links (keeps.links.modify id Link.Loses.abandon) rfl rfl rfl
  | _ => exact keeps

theorem foldl_discard {rules : Rules} (keeps : Keeps rules network) (events : List Event) :
    Keeps rules (events.foldl Network.discard network) := by
  induction events generalizing network with
  | nil => exact keeps
  | cons event others hypothesis => exact hypothesis (keeps.discard event)

theorem endLoop {rules : Rules} (keeps : Keeps rules network) (node : NodeName)
    (member : Member) : Keeps rules (network.endLoop node member) := by
  have given := keeps.foldl_discard member.events
  apply given.changeMember
  intro old known
  obtain ⟨manager, _, parts⟩ := given.members node old known
  exact ⟨manager, fun _ present => absurd present List.not_mem_nil, parts⟩

theorem halt {rules : Rules} (keeps : Keeps rules network) (node : NodeName) (member : Member) :
    Keeps rules (network.halt node member) := by
  have closed := keeps.links.closeAll member.manager.slots.keys "peer manager shutdown"
  refine Keeps.endLoop ?_ node member
  exact keeps.of_links closed rfl rfl rfl

theorem actManager (keeps : Keeps custom.toRules network) {node : NodeName} {member : Member}
    (known : network.members.get? node = some member) (choices : Choices) :
    Keeps custom.toRules (network.actManager choices node member) := by
  obtain ⟨manager, waiting, left⟩ := keeps.members node member known
  unfold Network.actManager
  cases parts : member.parts with
  | cons part others =>
      rw [parts] at left
      have shorter : Keeps custom.toRules (network.changeMember node fun member =>
          { member with parts := others }) := by
        apply keeps.changeMember
        intro old found
        have same : old = member := Option.some.inj (found.symm.trans known)
        rw [same]
        exact ⟨manager, waiting, fun other present =>
          left other (List.mem_cons_of_mem part present)⟩
      have fits : custom.part part := left part List.mem_cons_self
      apply shorter.conclude node
      · exact custom.performs manager keeps.links fits
      · exact custom.onLinks_perform manager keeps.links fits _
      · intro addresses member
        rcases Manager.mem_relays_perform member with before | relayed
        · exact absurd before List.not_mem_nil
        · exact custom.relays manager fits relayed
  | nil =>
      cases events : member.events with
      | nil =>
          cases stopped : member.manager.stopped with
          | true => exact keeps.halt node member
          | false =>
              apply keeps.changeMember
              intro old found
              obtain ⟨manager, waiting, _⟩ := keeps.members node old found
              refine ⟨manager, waiting, ?_⟩
              intro part present
              rw [List.mem_singleton.1 present]
              exact custom.checks.2
      | cons event others =>
          cases stopped : member.manager.stopped with
          | true => exact keeps.halt node member
          | false =>
              rw [events] at waiting
              have start : custom.manager
                (Manager.Turn.start member.manager network.links).manager := manager
              have taken := custom.takes start (waiting event List.mem_cons_self)
              have shorter : Keeps custom.toRules (network.changeMember node fun old =>
                  { old with
                    events := others
                    parts := (Manager.take event (.start member.manager network.links)).1 }) := by
                apply keeps.changeMember
                intro old found
                have same : old = member := Option.some.inj (found.symm.trans known)
                rw [same]
                exact ⟨manager, fun other present =>
                  waiting other (List.mem_cons_of_mem event present), taken.2⟩
              apply shorter.conclude node taken.1
              · rw [Manager.links_take]
                exact keeps.links
              · rw [Manager.relays_take]
                intro addresses present
                exact absurd present List.not_mem_nil

/-! ## Agents, pumps and timers -/

theorem actAgent (keeps : Keeps custom.toRules network) {id : LinkId} {attendance : Attendance}
    {link : Link} (attends : network.agents.get? id = some attendance)
    (known : network.links.get? id = some link) (choices : Choices) :
    Keeps custom.toRules (network.actAgent choices attendance link) := by
  unfold Network.actAgent
  split
  · exact keeps
  · next member owner =>
      have manager := (keeps.members attendance.owner member owner).manager
      have inAgent := keeps.agents id attendance attends
      dsimp only
      split
      · exact keeps
      · next turn stepped =>
          obtain ⟨task, next, performed⟩ := Option.map_eq_some_iff.1 stepped
          have timed : custom.InAgent { attendance.agent with
              timers := { attendance.agent.timers with next := network.serial } } :=
            ⟨inAgent.relays, inAgent.peer⟩
          have reads : (network.agentSurroundings member choices).Reads member.manager :=
            ⟨rfl, rfl⟩
          obtain ⟨agent, onLink, events⟩ := custom.perform manager reads
            (keeps.links id link known) timed next
          rw [performed] at agent onLink events
          refine Keeps.foldl_notify ?_ attendance.owner events
          refine ⟨keeps.members, keeps.links.insert onLink, ?_, keeps.pumps⟩
          intro tested other found
          have stored : (network.agents.insert link.id
            { attendance with agent := turn.agent }).get? tested = some other := found
          rw [Table.get?_insert] at stored
          split at stored
          · rw [← Option.some.inj stored]
            exact agent
          · exact keeps.agents tested other stored

theorem pumpTurn {rules : Rules} {pump : Pump} {source target : Link} {move : Pump.Move}
    (onSource : rules.OnLink source) (onTarget : rules.OnLink target)
    (held : ∀ message, pump.held = some message → rules.message message)
    (may : pump.May source target move) :
    rules.OnLink (pump.perform source target move).source ∧
      rules.OnLink (pump.perform source target move).target ∧
      ∀ left message, (pump.perform source target move).pump = some left →
        left.held = some message → rules.message message := by
  cases may with
  | take message others free waits =>
      refine ⟨?_, ?_, ?_⟩
      · refine ⟨?_, onSource.inbound, onSource.peerAddress, onSource.netAddress⟩
        intro other member
        refine onSource.outbound other ?_
        rw [waits]
        exact List.mem_cons_of_mem message member
      · exact onTarget.loses ⟨fun _ member => member, fun _ member => member, rfl, rfl⟩
      · intro left other same carries
        cases same
        cases carries
        refine onSource.outbound message ?_
        rw [waits]
        exact List.mem_cons_self
  | deliver message holds reads room =>
      refine ⟨onSource, ?_, ?_⟩
      · refine ⟨onTarget.outbound, ?_, onTarget.peerAddress, onTarget.netAddress⟩
        intro waiting member
        rcases List.mem_append.1 member with earlier | own
        · exact onTarget.inbound waiting earlier
        · rw [List.mem_singleton.1 own]
          exact held message holds
      · intro left other same carries
        cases same
        cases carries
  | finish =>
      refine ⟨?_, ?_, ?_⟩
      · exact onSource.loses
          ⟨fun _ member => absurd member List.not_mem_nil, fun _ member => member, rfl, rfl⟩
      · exact onTarget.loses ⟨fun _ member => member, fun _ member => member, rfl, rfl⟩
      · intro left message none
        cases none

theorem actPump {rules : Rules} (keeps : Keeps rules network) {id : LinkId} {pump : Pump}
    {source target : Link} (running : network.pumps.get? id = some pump)
    (sourceKnown : network.links.get? id = some source)
    (targetKnown : network.links.get? pump.target = some target) :
    Keeps rules (network.actPump id pump source target) := by
  rw [actPump_eq]
  cases next : pump.next? source target with
  | none => exact keeps
  | some move =>
      obtain ⟨onSource, onTarget, held⟩ := pumpTurn (keeps.links id source sourceKnown)
        (keeps.links pump.target target targetKnown) (keeps.pumps id pump running)
        (Pump.may_of_next? next).1
      refine ⟨keeps.members, (keeps.links.insert onSource).insert onTarget, keeps.agents, ?_⟩
      intro tested other known message carries
      rw [Option.elim_some, get?_pumps_afterMove] at known
      split at known
      · exact held other message known carries
      · exact keeps.pumps tested other known message carries

theorem ring {rules : Rules} (keeps : Keeps rules network) (id : LinkId) (number : Nat) :
    Keeps rules (network.ring id number) := by
  unfold Network.ring
  split
  · exact keeps
  · next attendance attends =>
      have inAgent := keeps.agents id attendance attends
      refine ⟨keeps.members, keeps.links, ?_, keeps.pumps⟩
      intro tested other found
      have stored := found
      dsimp only at stored
      rw [Table.get?_insert] at stored
      split at stored
      · rw [← Option.some.inj stored]
        exact ⟨inAgent.relays, inAgent.peer⟩
      · exact keeps.agents tested other stored

theorem chime (keeps : Keeps custom.toRules network) (number : Nat) :
    Keeps custom.toRules (network.chime number) := by
  unfold Network.chime
  dsimp only
  split
  · exact keeps.of_links keeps.links rfl rfl rfl
  · next node tag _ =>
      refine Keeps.notify ?_ node custom.checks.1
      exact keeps.of_links keeps.links rfl rfl rfl
  · next node _ =>
      have rung (clock : Timers Chime Chime) (serial : Nat) :
          Keeps custom.toRules { network with clock := clock, serial := serial } :=
        keeps.of_links keeps.links rfl rfl rfl
      apply (rung _ _).changeMember
      intro member known
      obtain ⟨manager, events, parts⟩ := keeps.members node member known
      exact ⟨manager, events, parts⟩

/-- No task breaks a custom. -/
theorem act (keeps : Keeps custom.toRules network) (choices : Choices) (task : Task) :
    Keeps custom.toRules (network.act choices task) := by
  have turned {reached : Network} (keeps : Keeps custom.toRules reached) :
      Keeps custom.toRules { reached with turns := reached.turns + 1 } :=
    keeps.of_links keeps.links rfl rfl rfl
  refine turned ?_
  unfold Network.perform
  cases task with
  | ring id number => exact keeps.ring id number
  | chime number => exact keeps.chime number
  | manager node =>
      dsimp only
      split
      · exact keeps
      · next member known => exact keeps.actManager known choices
  | agent id =>
      dsimp only
      split
      · next attendance link attends known => exact keeps.actAgent attends known choices
      · exact keeps
  | pump id =>
      dsimp only
      split
      · next pump source running sourceKnown =>
          split
          · exact keeps
          · next target targetKnown => exact keeps.actPump running sourceKnown targetKnown
      · exact keeps

end Keeps

/-! ## What comes from outside -/

/-- The states that a network can reach from nothing if nothing comes from outside
but what the rules allow.  Nodes join, use their controls and have their books
changed, links are opened, handed over, joined to each other and dropped, time
passes, and any task may be the next one. -/
inductive Reached (rules : Rules) : Network → Prop where
  | empty (epoch : Int64) : Reached rules (.empty epoch)
  | acted {network : Network} (reached : Reached rules network) (choices : Choices)
      (task : Task) : Reached rules (network.act choices task)
  | waited {network : Network} (reached : Reached rules network) (now : Nat) :
      Reached rules { network with now := now }
  | joined {network : Network} (reached : Reached rules network) (node : NodeName)
      (manager : Manager) (chain : Chain) (connectors : Connectors)
      (fits : rules.manager manager) :
      Reached rules (network.join node (.new manager chain connectors))
  | started {network : Network} (reached : Reached rules network) (node : NodeName) :
      Reached rules (network.run node)
  | followed {network : Network} (reached : Reached rules network) (node : NodeName)
      (control : Manager.Control) (fits : rules.InControl control) :
      Reached rules (network.follow node control).2
  | changed {network : Network} (reached : Reached rules network) (node : NodeName)
      (change : Member → Member)
      (manager : ∀ member, rules.manager member.manager → rules.manager (change member).manager)
      (events : ∀ member, (change member).events = member.events)
      (parts : ∀ member, (change member).parts = member.parts) :
      Reached rules (network.changeMember node change)
  | told {network : Network} (reached : Reached rules network) (node : NodeName)
      (event : Event) (fits : rules.event event) : Reached rules (network.notify node event)
  | opened {network : Network} (reached : Reached rules network) (link : Link)
      (fits : rules.OnLink link) : Reached rules (network.openLink link)
  | handed {network : Network} (reached : Reached rules network) (node : NodeName)
      (link : LinkId) (fits : rules.event (.connection link)) :
      Reached rules (network.handOver node link)
  | coupled {network : Network} (reached : Reached rules network) (first second : LinkId) :
      Reached rules (network.couple first second)
  | delivered {network : Network} (reached : Reached rules network) (link : LinkId)
      (message : Message) (fits : rules.message message) :
      Reached rules (network.deliver link message).2
  | sent {network : Network} (reached : Reached rules network) (link : LinkId)
      (message : Message) (fits : rules.message message) :
      Reached rules (network.send link message).2
  | lost {network : Network} (reached : Reached rules network) (link : LinkId)
      (change : Link → Link) (loses : ∀ link, Link.Loses link (change link)) :
      Reached rules (network.changeLink link change)

namespace Keeps

variable {custom : Custom} {rules : Rules} {network : Network}

theorem empty (rules : Rules) (epoch : Int64) : Keeps rules (.empty epoch) := by
  constructor <;> intro _ _ known <;> cases known

theorem join (keeps : Keeps rules network) (node : NodeName) {member : Member}
    (fits : rules.InMember member) : Keeps rules (network.join node member) := by
  refine ⟨?_, keeps.links, keeps.agents, keeps.pumps⟩
  intro tested other known
  have found : (network.members.insert node member).get? tested = some other := known
  rw [Table.get?_insert] at found
  split at found
  · rw [← Option.some.inj found]
    exact fits
  · exact keeps.members tested other found

theorem run (keeps : Keeps rules network) (node : NodeName) : Keeps rules (network.run node) := by
  unfold Network.run
  split
  · exact keeps
  · next member _ =>
      dsimp only
      split
      · exact keeps
      · split
        · exact keeps.endLoop node member
        · have running : Keeps rules (network.changeMember node fun member =>
              { member with loop := .running }) := by
            apply keeps.changeMember
            intro old known
            obtain ⟨manager, events, parts⟩ := keeps.members node old known
            exact ⟨manager, events, parts⟩
          exact running.of_links running.links rfl rfl rfl

theorem follow (keeps : Keeps custom.toRules network) (node : NodeName)
    {control : Manager.Control} (fits : custom.InControl control) :
    Keeps custom.toRules (network.follow node control).2 := by
  unfold Network.follow
  split
  · exact keeps
  · next member known =>
      have manager := (keeps.members node member known).manager
      apply keeps.conclude node
      · exact custom.obeys manager fits
      · exact keeps.links.follow member.manager _ control
      · rw [Manager.relays_follow]
        intro addresses present
        exact absurd present List.not_mem_nil

theorem changeLink (keeps : Keeps rules network) (id : LinkId) {change : Link → Link}
    (loses : ∀ link, Link.Loses link (change link)) :
    Keeps rules (network.changeLink id change) :=
  keeps.of_links (keeps.links.modify id loses) rfl rfl rfl

theorem handOver (keeps : Keeps rules network) (node : NodeName) {link : LinkId}
    (fits : rules.event (.connection link)) : Keeps rules (network.handOver node link) := by
  unfold Network.handOver
  split
  · exact keeps
  · split
    · apply keeps.changeLink
      intro link
      exact ⟨fun _ member => member, fun _ member => absurd member List.not_mem_nil, rfl, rfl⟩
    · exact keeps.notify node fits

theorem couple (keeps : Keeps rules network) (first second : LinkId) :
    Keeps rules (network.couple first second) := by
  refine ⟨keeps.members, keeps.links, keeps.agents, ?_⟩
  intro id pump known message held
  have found : ((network.pumps.insert first ⟨second, none⟩).insert second
    ⟨first, none⟩).get? id = some pump := known
  rw [Table.get?_insert, Table.get?_insert] at found
  split at found
  · cases found
    cases held
  · split at found
    · cases found
      cases held
    · exact keeps.pumps id pump found message held

theorem deliver (keeps : Keeps rules network) (id : LinkId) {message : Message}
    (fits : rules.message message) : Keeps rules (network.deliver id message).2 := by
  unfold Network.deliver
  split
  · exact keeps
  · next link known =>
      have onLink := (keeps.links id link known).deliver fits
      exact keeps.of_links (keeps.links.insert onLink) rfl rfl rfl

end Keeps

/-- What is customary in a network stays so in every state that it can reach. -/
theorem Reached.keeps {custom : Custom} {network : Network}
    (reached : Reached custom.toRules network) : Keeps custom.toRules network := by
  induction reached with
  | empty epoch => exact .empty _ epoch
  | acted _ choices task keeps => exact keeps.act choices task
  | waited _ now keeps => exact keeps.of_links keeps.links rfl rfl rfl
  | joined _ node manager chain connectors fits keeps =>
      exact keeps.join node ⟨fits, fun _ member => absurd member List.not_mem_nil,
        fun _ member => absurd member List.not_mem_nil⟩
  | started _ node keeps => exact keeps.run node
  | followed _ node control fits keeps => exact keeps.follow node fits
  | changed _ node change manager events parts keeps =>
      apply keeps.changeMember
      intro member known
      obtain ⟨fits, waiting, left⟩ := keeps.members node member known
      refine ⟨manager member fits, ?_, ?_⟩
      · rw [events]
        exact waiting
      · rw [parts]
        exact left
  | told _ node event fits keeps => exact keeps.notify node fits
  | opened _ link fits keeps => exact keeps.of_links (keeps.links.insert fits) rfl rfl rfl
  | handed _ node link fits keeps => exact keeps.handOver node fits
  | coupled _ first second keeps => exact keeps.couple first second
  | delivered _ link message fits keeps => exact keeps.deliver link fits
  | sent _ link message fits keeps =>
      exact keeps.of_links (keeps.links.send link fits) rfl rfl rfl
  | lost _ link change loses keeps => exact keeps.changeLink link loses

end Network

end PeerOverlay
