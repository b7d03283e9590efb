import PeerOverlay.Network.Control
import PeerOverlay.Proofs.Network.OpenMeeting

/-!
# Two nodes agree that they are connected

Two nodes that have no connection are joined by one.  In whatever order their event
loops, the agents and the pumps do what they do, each node publishes at most once that a
peer has joined on it: the other node, with the chain that it had when it announced
itself.  If neither end was closed by the time when nothing is left to be done, then
both nodes have published it.
-/

namespace PeerOverlay

open Manager (Part)

namespace Network

/-! ## Conversations -/

/-- Whether a node runs, and nothing that waits for it is about a link. -/
structure Member.IsFree (member : Member) (address : PeerAddress) : Prop where
  loop : member.loop = .running
  stopped : member.manager.stopped = false
  address : member.manager.config.peerAddress = address
  events : ∀ event ∈ member.events,
    event = .checkPeerCount ∨ ∃ failed, event = .connectFailed failed
  parts : ∀ part ∈ member.parts,
    part = .checkPeerCount ∨ ∃ failed, part = .connectFailed failed

/-- Whether a network has two nodes without any connection.  The agents of earlier links
have come to their end. -/
structure Unconnected (network : Network) (ends : Ends) : Prop where
  own : ∃ member, network.members.get? ends.own.node = some member ∧
    member.IsFree ends.own.address
  other : ∃ member, network.members.get? ends.other.node = some member ∧
    member.IsFree ends.other.address
  members : ∀ node member, network.members.get? node = some member →
    node = ends.own.node ∨ node = ends.other.node
  agents : ∀ id attendance, network.agents.get? id = some attendance →
    id ≠ ends.own.link ∧ id ≠ ends.other.link ∧ attendance.agent.progress.IsOver
  pumps : ∀ id, network.pumps.get? id = none
  ownFresh : network.joined ends.own.node ends.own.link = []
  otherFresh : network.joined ends.other.node ends.other.link = []

/-- The network after one node has dialed the other: a link for each of them, with a pump
in each direction, and both links are handed over. -/
def connect (network : Network) (ends : Ends) (protocol : Protocol)
    (target : Option PeerAddress) (dialerNet targetNet : Option NetAddress) : Network :=
  let network := network.openLink (.opened ends.own.link .outbound protocol targetNet target)
  let network := network.openLink (.opened ends.other.link .inbound protocol dialerNet none)
  let network := network.couple ends.own.link ends.other.link
  (network.handOver ends.own.node ends.own.link).handOver ends.other.node ends.other.link

/-- How a network gets from one state to another, with what is announced on the way.  Any
task may be the next one, a pump may go on although a link is closed, the chains of the
nodes may grow, and time may pass. -/
inductive Conversation (network : Network) : Network → List Announcement → Prop where
  | start : Conversation network network []
  | done {reached : Network} {log : List Announcement}
      (conversation : Conversation network reached log) (choices : Choices) (task : Task) :
      Conversation network (reached.act choices task)
        (log ++ reached.announcements choices task)
  | pumped {reached : Network} {log : List Announcement}
      (conversation : Conversation network reached log) (id : LinkId) (pump : Pump)
      (source target : Link) (move : Pump.Move) (runs : reached.pumps.get? id = some pump)
      (starts : reached.links.get? id = some source)
      (leads : reached.links.get? pump.target = some target)
      (may : pump.May source target move) (due : move = .finish → Severed source target) :
      Conversation network (reached.afterMove id pump source target move) log
  | grown {reached : Network} {log : List Announcement}
      (conversation : Conversation network reached log) (node : NodeName) (height : UInt32)
      (totalWork : UInt64) :
      Conversation network
        (reached.changeMember node fun member =>
          { member with chain := member.chain.withTip height totalWork })
        log
  | passed {reached after : Network} {log : List Announcement}
      (conversation : Conversation network reached log)
      (members : after.members = reached.members) (links : after.links = reached.links)
      (agents : after.agents = reached.agents) (pumps : after.pumps = reached.pumps)
      (journal : after.journal = reached.journal) : Conversation network after log

/-- The chains that were announced on a link. -/
def chainsOn (log : List Announcement) (link : LinkId) : List Chain :=
  (log.filter fun announcement => announcement.link = link).map Announcement.chain

theorem chainsOn_append (first second : List Announcement) (link : LinkId) :
    chainsOn (first ++ second) link = chainsOn first link ++ chainsOn second link := by
  unfold chainsOn
  rw [List.filter_append, List.map_append]

theorem chainsOn_map (chains : List Chain) (link tested : LinkId) :
    chainsOn (chains.map (.mk link)) tested = if link = tested then chains else [] := by
  unfold chainsOn
  induction chains with
  | nil => split <;> rfl
  | cons chain others hypothesis =>
      by_cases same : link = tested <;> simp_all

/-! ## What holds along a conversation -/

/-- Whether a network consists of two halves that have found out what was announced, and
talk unless an end is closed. -/
structure Met (ends : Ends) (network : Network) (log : List Announcement) (own other : Half) :
    Prop where
  paired : Paired ends network own other
  here : own.Sound ends.own ends.other (chainsOn log ends.own.link) (chainsOn log ends.other.link)
  there :
    other.Sound ends.other ends.own (chainsOn log ends.other.link) (chainsOn log ends.own.link)
  talks : own.TalksIfOpen other

namespace Met

variable {ends : Ends} {network after : Network} {log : List Announcement} {own other : Half}

theorem swap (met : Met ends network log own other) : Met ends.swap network log other own :=
  ⟨met.paired.swap, met.there, met.here, met.talks.swap⟩

theorem step {chains : List Chain} {source target : Half}
    (met : Met ends network log own other)
    (steps : own.Steps ends.own other chains source target)
    (paired : Paired ends after source target) :
    Met ends after (log ++ chains.map (.mk ends.own.link)) source target := by
  obtain ⟨left, right⟩ := met.here.stepped met.there steps
  have here : chainsOn (log ++ chains.map (.mk ends.own.link)) ends.own.link =
      chainsOn log ends.own.link ++ chains := by
    rw [chainsOn_append, chainsOn_map, if_pos rfl]
  have there : chainsOn (log ++ chains.map (.mk ends.own.link)) ends.other.link =
      chainsOn log ends.other.link := by
    rw [chainsOn_append, chainsOn_map, if_neg ends.links_ne, List.append_nil]
  refine ⟨paired, ?_, ?_, met.talks.stepped met.here steps⟩
  · rw [here, there]
    exact left
  · rw [here, there]
    exact right

theorem steps {announced : List Announcement} {source target : Half}
    (met : Met ends network log own other)
    (steps : ends.Steps own other announced source target)
    (paired : Paired ends after source target) :
    Met ends after (log ++ announced) source target := by
  cases steps with
  | own steps => exact met.step steps paired
  | other steps => exact (met.swap.step steps paired.swap).swap

theorem act (met : Met ends network log own other) (choices : Choices) (task : Task) :
    ∃ source target,
      Met ends (network.act choices task) (log ++ network.announcements choices task)
        source target := by
  obtain ⟨source, target, steps, paired⟩ :=
    met.paired.act choices task met.here.parts met.there.parts
  exact ⟨source, target, met.steps steps paired⟩

theorem grow (met : Met ends network log own other) (node : NodeName) (height : UInt32)
    (totalWork : UInt64) :
    ∃ source target,
      Met ends (network.changeMember node fun member =>
        { member with chain := member.chain.withTip height totalWork }) log source target := by
  have serves (side : Side) (half : Half) (member : Member)
      (served : side.Serves half.events half.parts half.seated member) :
      side.Serves (half.check 0).events half.parts half.seated
        { member with chain := member.chain.withTip height totalWork } :=
    ⟨served.events.trans (List.append_nil _).symm, served.parts, served.seated, served.address,
      served.stopped, served.loop⟩
  rw [← List.append_nil log]
  obtain here | there | same := met.paired.changeAnyMember node _ 0 serves
  · exact ⟨_, _, met.steps (.own (.checked 0)) here⟩
  · exact ⟨_, _, met.steps (.other (.checked 0)) there⟩
  · exact ⟨_, _, met.steps (.own .stays) same⟩

theorem along {start reached : Network} {spoken : List Announcement}
    (conversation : Conversation start reached spoken) (met : Met ends start [] own other) :
    ∃ source target, Met ends reached spoken source target := by
  induction conversation with
  | start => exact ⟨own, other, met⟩
  | done conversation choices task hypothesis =>
      obtain ⟨source, target, met⟩ := hypothesis
      exact met.act choices task
  | pumped conversation id pump source target move runs starts leads may due hypothesis =>
      obtain ⟨own, other, met⟩ := hypothesis
      obtain ⟨first, second, steps, paired⟩ := met.paired.pumped runs starts leads may due
      have moved := met.steps steps paired
      rw [List.append_nil] at moved
      exact ⟨first, second, moved⟩
  | grown conversation node height totalWork hypothesis =>
      obtain ⟨source, target, met⟩ := hypothesis
      exact met.grow node height totalWork
  | passed conversation members links agents pumps journal hypothesis =>
      obtain ⟨source, target, met⟩ := hypothesis
      exact ⟨source, target, met.paired.of_same members links agents pumps journal, met.here,
        met.there, met.talks⟩

end Met

/-! ## How it starts -/

namespace Member.IsFree

variable {member : Member} {address : PeerAddress}

/-- What is there of one kind while the link waits for the manager. -/
theorem filterMap_handed {α : Type} (isFree : member.IsFree address) {parts : Part → Option α}
    {events : Event → Option α} (partChecked : parts .checkPeerCount = none)
    (partFailed : ∀ failed, parts (.connectFailed failed) = none)
    (checked : events .checkPeerCount = none)
    (failed : ∀ failed, events (.connectFailed failed) = none) (link : LinkId) :
    member.parts.filterMap parts ++ (member.events ++ [Event.connection link]).filterMap events =
      (events (.connection link)).toList := by
  have noParts : member.parts.filterMap parts = [] := by
    apply List.filterMap_eq_nil_iff.2
    intro part present
    rcases isFree.parts part present with rfl | ⟨other, rfl⟩
    · exact partChecked
    · exact partFailed other
  have noEvents : member.events.filterMap events = [] := by
    apply List.filterMap_eq_nil_iff.2
    intro event present
    rcases isFree.events event present with rfl | ⟨other, rfl⟩
    · exact checked
    · exact failed other
  rw [noParts, List.filterMap_append, noEvents]
  cases handed : events (.connection link) <;> simp [handed]

end Member.IsFree

/-- The half of a node to which a new link is handed. -/
def Half.begun (side : Side) (member : Member) (link : Link) : Half where
  events := member.events ++ [.connection side.link]
  parts := member.parts
  seated := (member.manager.slots.get? side.link).isSome
  progress := none
  link := link
  pump := some none
  joined := []

namespace Half

variable {own other : Side} {member : Member} {address : PeerAddress} {direction : Direction}
variable {protocol : Protocol} {netAddress : Option NetAddress} {target : Option PeerAddress}

theorem handed_begun (isFree : member.IsFree address) (link : Link) :
    (Half.begun own member link).handed = [own.link] :=
  isFree.filterMap_handed rfl (fun _ => rfl) rfl (fun _ => rfl) own.link

theorem peers_begun (isFree : member.IsFree address) (link : Link) :
    (Half.begun own member link).peers = [] :=
  isFree.filterMap_handed rfl (fun _ => rfl) rfl (fun _ => rfl) own.link

theorem ended_begun (isFree : member.IsFree address) (link : Link) :
    (Half.begun own member link).ended = [] :=
  isFree.filterMap_handed rfl (fun _ => rfl) rfl (fun _ => rfl) own.link

theorem sound_begun (isFree : member.IsFree address) :
    (Half.begun own member (.opened own.link direction protocol netAddress target)).Sound
      own other [] [] := by
  refine ⟨rfl, ?_, ?_, ?_, ?_, ?_, ?_, rfl, ?_, ?_⟩
  · intro event present
    rcases List.mem_append.1 present with before | handed
    · rcases isFree.events event before with rfl | ⟨failed, rfl⟩ <;> trivial
    · rw [List.mem_singleton.1 handed]
      rfl
  · intro part present
    rcases isFree.parts part present with rfl | ⟨failed, rfl⟩ <;> trivial
  · rw [handed_begun isFree]
    exact Nat.le_refl 1
  · rw [peers_begun isFree]
    exact Nat.zero_le _
  · rw [peers_begun isFree]
    exact fun peer present => absurd present List.not_mem_nil
  · intro progress peer attends
    cases attends
  · exact fun message present => absurd present List.not_mem_nil
  · exact fun message present => absurd present List.not_mem_nil

theorem lively_begun (isFree : member.IsFree address) :
    (Half.begun own member (.opened own.link direction protocol netAddress target)).Lively := by
  refine ⟨rfl, rfl, rfl, rfl, ?_, ?_, ?_, ended_begun isFree _, ?_⟩
  · intro _
    rw [handed_begun isFree]
    exact ⟨List.cons_ne_nil _ _, rfl⟩
  · intro attends
    cases attends
  · intro progress attends
    cases attends
  · rw [peers_begun isFree]
    rfl

end Half

/-- A link that is handed over waits for the manager. -/
theorem Paired.handOver {ends : Ends} {network : Network} {own other : Half}
    (paired : Paired ends network own other) :
    Paired ends (network.handOver ends.own.node ends.own.link)
      { own with events := own.events ++ [.connection ends.own.link] } other := by
  obtain ⟨member, known, served⟩ := paired.own.member
  unfold Network.handOver
  rw [known]
  dsimp only
  rw [if_neg served.loop_ne_stopped]
  exact paired.notify (.connection ends.own.link)

section Coupled

variable (network : Network) (first second : Link) (own other : LinkId)

theorem get?_links_couple (id : LinkId) :
    (((network.openLink first).openLink second).couple own other).links.get? id =
      if second.id = id then some second
      else if first.id = id then some first else network.links.get? id := by
  show ((network.links.insert _ _).insert _ _).get? id = _
  rw [Table.get?_insert, Table.get?_insert]

theorem get?_pumps_couple (id : LinkId) :
    (((network.openLink first).openLink second).couple own other).pumps.get? id =
      if other = id then some ⟨own, none⟩
      else if own = id then some ⟨other, none⟩ else network.pumps.get? id := by
  show ((network.pumps.insert _ _).insert _ _).get? id = _
  rw [Table.get?_insert, Table.get?_insert]

end Coupled

namespace Unconnected

variable {ends : Ends} {network : Network} {dialer listener : Member}

/-- No agent attends a link that is yet to be opened. -/
theorem unattended {id : LinkId}
    (elsewhere : ∀ known attendance, network.agents.get? known = some attendance → known ≠ id) :
    (network.agents.get? id).map (fun known => (known.agent.progress, known.owner)) = none := by
  cases attends : network.agents.get? id with
  | none => rfl
  | some attendance => exact absurd rfl (elsewhere id attendance attends)

/-- Before the two links are handed over, nothing but the pumps is about them. -/
theorem paired (unconnected : network.Unconnected ends) (protocol : Protocol)
    (target : Option PeerAddress) (dialerNet targetNet : Option NetAddress)
    (dialerKnown : network.members.get? ends.own.node = some dialer)
    (dialerFree : dialer.IsFree ends.own.address)
    (listenerKnown : network.members.get? ends.other.node = some listener)
    (listenerFree : listener.IsFree ends.other.address) :
    Paired ends
      (((network.openLink (.opened ends.own.link .outbound protocol targetNet target)).openLink
        (.opened ends.other.link .inbound protocol dialerNet none)).couple
          ends.own.link ends.other.link)
      { Half.begun ends.own dialer (.opened ends.own.link .outbound protocol targetNet target) with
        events := dialer.events }
      { Half.begun ends.other listener (.opened ends.other.link .inbound protocol dialerNet none)
        with events := listener.events } := by
  refine ⟨⟨⟨dialer, dialerKnown, ?_⟩, ?_, ?_, rfl, ?_, unconnected.ownFresh⟩,
    ⟨⟨listener, listenerKnown, ?_⟩, ?_, ?_, rfl, ?_, unconnected.otherFresh⟩,
    unconnected.members, ?_, ?_⟩
  · exact ⟨rfl, rfl, rfl, dialerFree.address, dialerFree.stopped, dialerFree.loop⟩
  · exact unattended fun id attendance known => (unconnected.agents id attendance known).1
  · rw [get?_links_couple]
    exact (if_neg ends.links_ne.symm).trans (if_pos rfl)
  · rw [get?_pumps_couple, if_neg ends.links_ne.symm, if_pos rfl]
    rfl
  · exact ⟨rfl, rfl, rfl, listenerFree.address, listenerFree.stopped, listenerFree.loop⟩
  · exact unattended fun id attendance known => (unconnected.agents id attendance known).2.1
  · rw [get?_links_couple]
    exact if_pos rfl
  · rw [get?_pumps_couple, if_pos rfl]
    rfl
  · intro id attendance known
    exact .inr (.inr (unconnected.agents id attendance known).2.2)
  · intro id pump known
    rw [get?_pumps_couple, unconnected.pumps] at known
    split at known
    · next here => exact .inr here.symm
    · split at known
      · next here => exact .inl here.symm
      · cases known

theorem met (unconnected : network.Unconnected ends) (protocol : Protocol)
    (target : Option PeerAddress) (dialerNet targetNet : Option NetAddress) :
    ∃ own other,
      Met ends (network.connect ends protocol target dialerNet targetNet) [] own other := by
  obtain ⟨dialer, dialerKnown, dialerFree⟩ := unconnected.own
  obtain ⟨listener, listenerKnown, listenerFree⟩ := unconnected.other
  have coupled := unconnected.paired protocol target dialerNet targetNet dialerKnown dialerFree
    listenerKnown listenerFree
  have handed := coupled.handOver.swap.handOver.swap
  refine ⟨_, _, handed, Half.sound_begun dialerFree, Half.sound_begun listenerFree, ?_⟩
  intro _ _
  refine ⟨Half.lively_begun dialerFree, Half.lively_begun listenerFree, ?_, ?_⟩
  · intro announced
    cases announced
  · intro announced
    cases announced

end Unconnected

/-! ## How it ends -/

section Rest

variable {network : Network}

theorem not_isEnabled_of_rest {κ α : Type} [DecidableEq κ] {table : Table κ α} {key : κ}
    {value : α} {task : κ → Task} (known : table.get? key = some value)
    (rests : (table.keys.map task).filter network.isEnabled = []) :
    network.isEnabled (task key) = false := by
  have present : key ∈ table.keys :=
    List.mem_map.2 ⟨(key, value), (table.mem_rows_iff key value).2 known, rfl⟩
  have idle := List.filter_eq_nil_iff.1 rests (task key) (List.mem_map_of_mem present)
  exact (Bool.not_eq_true _).mp idle

/-- If nothing can be done before time passes, then all are idle. -/
theorem filters_of_rest (rests : network.enabledTasks = []) :
    (network.members.keys.map Task.manager).filter network.isEnabled = [] ∧
      (network.agents.keys.map Task.agent).filter network.isEnabled = [] ∧
        (network.pumps.keys.map Task.pump).filter network.isEnabled = [] := by
  unfold enabledTasks at rests
  rw [List.append_eq_nil_iff, List.append_eq_nil_iff, List.append_eq_nil_iff] at rests
  exact ⟨rests.1.1.2, rests.1.2, rests.2⟩

end Rest

namespace Met

variable {ends : Ends} {network : Network} {log : List Announcement} {own other : Half}

theorem idle_member (met : Met ends network log own other) (rests : network.enabledTasks = []) :
    own.events = [] ∧ own.parts = [] := by
  obtain ⟨member, known, served⟩ := met.paired.own.member
  have idle : member.isBusy = false := by
    have rest := not_isEnabled_of_rest known (filters_of_rest rests).1
    unfold isEnabled at rest
    dsimp only at rest
    rw [known] at rest
    exact rest
  unfold Member.isBusy at idle
  rw [served.loop, served.stopped, served.events, served.parts] at idle
  simp_all

theorem idle_agent (met : Met ends network log own other) (rests : network.enabledTasks = [])
    (lively : own.Lively) : own.sent = true ∧ own.link.inbound = [] := by
  obtain ⟨events, parts⟩ := met.idle_member rests
  have nothing : own.handed = [] := by
    unfold Half.handed
    rw [events, parts]
    rfl
  cases attended : own.progress with
  | none => exact absurd nothing (lively.waiting attended).1
  | some progress =>
      have agents := met.paired.own.agent
      rw [attended] at agents
      obtain ⟨attendance, attends, same⟩ := Option.map_eq_some_iff.1 agents
      have reached : attendance.agent.progress = progress := (Prod.mk.inj same).1
      have lasts := lively.lasts progress attended
      rw [← reached] at lasts
      have idle : attendance.agent.nextTask? own.link = none := by
        have rest := not_isEnabled_of_rest attends (filters_of_rest rests).2.1
        unfold isEnabled agentTask? at rest
        dsimp only at rest
        rw [attends, met.paired.own.link] at rest
        exact Option.isNone_iff_eq_none.1 (by simpa using rest)
      obtain ⟨started, read⟩ := Agent.read_of_idle idle lasts.phase
      refine ⟨?_, read⟩
      unfold Half.sent
      rw [attended, ← reached]
      exact lasts.sent started

/-- At rest, all that has left the one half was read in the other one. -/
theorem idle_pump (met : Met ends network log own other) (rests : network.enabledTasks = [])
    (talks : own.Talks other) (ownLasting : own.link.closed = false)
    (otherLasting : other.link.closed = false) (read : own.link.inbound = []) :
    other.leaving = [] := by
  obtain ⟨held, runs⟩ := Option.isSome_iff_exists.1 talks.other.pump
  have idle : Pump.next? ⟨ends.own.link, held⟩ other.link own.link = none := by
    have pump := met.paired.other.pump
    rw [runs] at pump
    have rest := not_isEnabled_of_rest pump (filters_of_rest rests).2.2
    unfold isEnabled pumpMove? at rest
    dsimp only at rest
    rw [pump, met.paired.other.link] at rest
    dsimp only [Option.map_some, Option.bind_eq_bind, Option.bind_some] at rest
    rw [met.paired.own.link] at rest
    exact Option.isNone_iff_eq_none.1 (by simpa using rest)
  unfold Pump.next? at idle
  unfold Half.leaving
  rw [runs]
  cases held with
  | some message =>
      dsimp only at idle
      rw [talks.own.attended, read] at idle
      cases idle
  | none =>
      dsimp only at idle
      rw [ownLasting, otherLasting] at idle
      cases waiting : other.link.outbound with
      | nil => rfl
      | cons message others =>
          rw [waiting] at idle
          cases idle

/-- At rest, a node whose link and whose other end are open has a peer. -/
theorem length_joined (met : Met ends network log own other) (rests : network.enabledTasks = [])
    (ownLasting : own.link.closed = false) (otherLasting : other.link.closed = false) :
    own.joined.length = 1 := by
  have talks := met.talks ownLasting otherLasting
  obtain ⟨events, parts⟩ := met.idle_member rests
  obtain ⟨ownSent, read⟩ := met.idle_agent rests talks.own
  obtain ⟨otherSent, _⟩ := met.swap.idle_agent rests talks.other
  have carried := met.idle_pump rests talks ownLasting otherLasting read
  have received : own.received = true := by
    rcases talks.hears otherSent with received | ⟨said, coming⟩
    · exact received
    · rw [read, carried] at coming
      cases coming
  have told := talks.own.told
  unfold Half.peers Half.completed at told
  rw [events, parts, ownSent, received] at told
  simpa using told

end Met

/-! ## Agreement -/

/-- Whether a node has published at most one peer on its link, and then the node at the
other end, with the chain that it had when its version was queued. -/
structure KnowsOnce (network : Network) (log : List Announcement) (own other : Side) : Prop where
  once : (network.joined own.node own.link).length ≤ 1
  known : ∀ peer ∈ network.joined own.node own.link,
    peer.link = own.link ∧ peer.address.endpoint = other.address.endpoint ∧
      ∃ chain, chainsOn log other.link = [chain] ∧ peer.startHeight = chain.height ∧
        peer.totalWork = chain.totalWork

theorem Met.knowsOnce {ends : Ends} {network : Network} {log : List Announcement}
    {own other : Half} (met : Met ends network log own other) :
    network.KnowsOnce log ends.own ends.other := by
  have among : own.joined.Sublist own.peers := List.sublist_append_left own.joined _
  have few : own.completed ≤ 1 := by
    unfold Half.completed
    split <;> decide
  constructor
  · rw [met.paired.own.joined]
    exact Nat.le_trans among.length_le (Nat.le_trans met.here.few few)
  · intro peer present
    rw [met.paired.own.joined] at present
    obtain ⟨link, endpoint, chain, announced, tip⟩ := met.here.met peer (among.subset present)
    refine ⟨link, endpoint, chain, ?_, tip⟩
    have once := met.there.announced
    cases chains : chainsOn log ends.other.link with
    | nil =>
        rw [chains] at announced
        cases announced
    | cons first others =>
        rw [chains] at once announced
        have alone : others = [] := by
          cases others with
          | nil => rfl
          | cons second rest =>
              split at once <;> simp at once
        rw [alone] at announced ⊢
        rw [List.mem_singleton.1 announced]

/-- Two nodes without any connection are joined by one, and it does not matter what their
configurations, books and chains are, nor in which order they do what they do.  Each of
them publishes at most once that a peer has joined on its link: the other node, as it has
announced itself.  If nothing is left to be done before time passes and neither end is
closed, then both have published it. -/
theorem both_nodes_join_once {ends : Ends} {network reached : Network}
    {log : List Announcement} (unconnected : network.Unconnected ends) (protocol : Protocol)
    (target : Option PeerAddress) (dialerNet targetNet : Option NetAddress)
    (conversation :
      Conversation (network.connect ends protocol target dialerNet targetNet) reached log) :
    reached.KnowsOnce log ends.own ends.other ∧ reached.KnowsOnce log ends.other ends.own ∧
      (reached.enabledTasks = [] → reached.links.isOpen ends.own.link →
        reached.links.isOpen ends.other.link →
          (reached.joined ends.own.node ends.own.link).length = 1 ∧
            (reached.joined ends.other.node ends.other.link).length = 1) := by
  obtain ⟨_, _, began⟩ := unconnected.met protocol target dialerNet targetNet
  obtain ⟨own, other, met⟩ := began.along conversation
  refine ⟨met.knowsOnce, met.swap.knowsOnce, ?_⟩
  intro rests ownOpen otherOpen
  have lasting {id : LinkId} {link : Link} (known : reached.links.get? id = some link)
      (isOpen : reached.links.isOpen id) : link.closed = false := by
    unfold Links.isOpen at isOpen
    rw [known] at isOpen
    simpa using isOpen
  have ownLasting := lasting met.paired.own.link ownOpen
  have otherLasting := lasting met.paired.other.link otherOpen
  rw [met.paired.own.joined, met.paired.other.joined]
  exact ⟨met.length_joined rests ownLasting otherLasting,
    met.swap.length_joined rests otherLasting ownLasting⟩

theorem Conversation.foldl_act {network reached : Network} {log : List Announcement}
    (conversation : Conversation network reached log) (tasks : List Task) :
    ∃ spoken, Conversation network (tasks.foldl (act (.plain 0)) reached) spoken := by
  induction tasks generalizing reached log with
  | nil => exact ⟨log, conversation⟩
  | cons task others hypothesis => exact hypothesis (conversation.done (.plain 0) task)

/-- Two hosts on the same chain, one of which has more of it. -/
def hosts : Network :=
  let network := (Network.empty 0).join "a"
    (.new (Manager.atHost "1.1.1.1") ⟨"genesis", 20, 200⟩ .none)
  let network := network.join "b" (.new (Manager.atHost "2.2.2.2") ⟨"genesis", 10, 100⟩ .none)
  (network.run "a").run "b"

def hostEnds : Ends where
  own := ⟨"a", 1, Manager.hostAddress "1.1.1.1"⟩
  other := ⟨"b", 2, Manager.hostAddress "2.2.2.2"⟩
  nodes_ne := by decide
  links_ne := by decide

/-- The one host has dialed the other. -/
def dialed : Network :=
  hosts.connect hostEnds .direct (some (Manager.hostAddress "2.2.2.2")) (some (.ip "1.1.1.1"))
    (some (.ip "2.2.2.2"))

/-- Both hosts are announced. -/
def greetings : List Task :=
  [.manager "b", .manager "b", .agent 2, .pump 2, .pump 2, .manager "a", .manager "a", .agent 1]

/-- Both versions are heard, and the managers learn of them at last. -/
def answers : List Task :=
  [.pump 1, .pump 1, .agent 1, .pump 1, .pump 1, .agent 2, .pump 2, .pump 2, .agent 1, .pump 1,
    .pump 1, .agent 2, .pump 2, .pump 2, .agent 1, .agent 2, .manager "b", .manager "b",
    .manager "b", .manager "b", .manager "a", .manager "a", .manager "a", .manager "a"]

/-- The chain of the one host has grown after its version was queued. -/
def greeted : Network :=
  let network := greetings.foldl (act (.plain 0)) dialed
  let network := network.changeMember "a" fun member =>
    { member with chain := member.chain.withTip 21 210 }
  answers.foldl (act (.plain 0)) network

theorem hosts_unconnected : hosts.Unconnected hostEnds := by
  refine ⟨⟨_, rfl, rfl, rfl, rfl, ?_, ?_⟩, ⟨_, rfl, rfl, rfl, rfl, ?_, ?_⟩, ?_, ?_, ?_, rfl, rfl⟩
  · exact fun event present => absurd present List.not_mem_nil
  · exact fun part present => absurd present List.not_mem_nil
  · exact fun event present => absurd present List.not_mem_nil
  · exact fun part present => absurd present List.not_mem_nil
  · intro node member known
    have keys : hosts.members.keys = ["a", "b"] := by decide
    have present : node ∈ hosts.members.keys :=
      List.mem_map.2 ⟨(node, member), (hosts.members.mem_rows_iff node member).2 known, rfl⟩
    rw [keys] at present
    rcases List.mem_cons.1 present with first | second
    · exact .inl first
    · exact .inr (List.mem_singleton.1 second)
  · intro id attendance known
    cases known
  · exact fun id => rfl

/-- The greater height is not the one that was announced. -/
theorem both_nodes_join_once_greeted :
    hosts.Unconnected hostEnds ∧ ∃ log, Conversation dialed greeted log ∧
      greeted.KnowsOnce log hostEnds.own hostEnds.other ∧
      greeted.KnowsOnce log hostEnds.other hostEnds.own ∧
      (greeted.joined "a" 1).length = 1 ∧ (greeted.joined "b" 2).length = 1 ∧
      (greeted.joined "a" 1).map Peer.startHeight = [10] ∧
      (greeted.joined "b" 2).map Peer.startHeight = [20] := by
  have started : Conversation dialed dialed [] := .start
  obtain ⟨_, greeting⟩ := started.foldl_act greetings
  obtain ⟨log, conversation⟩ := (greeting.grown "a" 21 210).foldl_act answers
  obtain ⟨here, there, agreed⟩ :=
    both_nodes_join_once hosts_unconnected .direct _ _ _ conversation
  obtain ⟨ownJoined, otherJoined⟩ := agreed (by decide +kernel) (by decide +kernel)
    (by decide +kernel)
  exact ⟨hosts_unconnected, log, conversation, here, there, ownJoined, otherJoined,
    by decide +kernel, by decide +kernel⟩

end Network

end PeerOverlay
