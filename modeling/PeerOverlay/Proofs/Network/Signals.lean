import PeerOverlay.Proofs.Agent.Signals
import PeerOverlay.Proofs.Network.Order
import PeerOverlay.Proofs.Network.PumpMoves

/-!
# What becomes of signals in a network

No task of a network raises the worth of the signals that wait in it, and a task in
which a signal is handled lowers it by the cost.
-/

namespace PeerOverlay

open Network

namespace Budget

variable {largest : Nat} (budget : Budget largest)

/-! ## The worth of the signals in a network -/

def member (member : Member) : Nat :=
  budget.told member.events + budget.planned member.parts

def pump (pump : Pump) : Nat :=
  budget.queued pump.held.toList

def members (members : Table NodeName Member) : Nat :=
  members.total fun _ member => budget.member member

def pumps (pumps : Table LinkId Pump) : Nat :=
  pumps.total fun _ pump => budget.pump pump

def network (network : Network) : Nat :=
  budget.members network.members + budget.links network.links + budget.pumps network.pumps

/-- If only the links of a network have changed, only their worth has. -/
theorem network_add_links {before after : Network} (members : after.members = before.members)
    (pumps : after.pumps = before.pumps) :
    budget.network after + budget.links before.links =
      budget.network before + budget.links after.links := by
  unfold Budget.network
  rw [members, pumps]
  omega

/-! ## Changes of a member -/

theorem network_changeMember {network : Network} {node : NodeName} {member : Member}
    (known : network.members.get? node = some member) (change : Member → Member) :
    budget.network (network.changeMember node change) + budget.member member =
      budget.network network + budget.member (change member) := by
  have balance : budget.members (network.members.modify node change) + budget.member member =
      budget.members network.members + budget.member (change member) := by
    have modified := Table.total_modify network.members (fun _ member => budget.member member)
      node change
    rwa [known] at modified
  show budget.members (network.members.modify node change) + budget.links network.links +
    budget.pumps network.pumps + _ = _
  unfold Budget.network
  omega

theorem network_changeMember_le (network : Network) (node : NodeName)
    {change : Member → Member}
    (lighter : ∀ member, budget.member (change member) ≤ budget.member member) :
    budget.network (network.changeMember node change) ≤ budget.network network := by
  have less : budget.members (network.members.modify node change) ≤
      budget.members network.members :=
    Table.total_modify_le lighter
  exact Nat.add_le_add_right (Nat.add_le_add_right less _) _

theorem member_notify_le (member : Member) (event : Event) :
    budget.member (member.notify event) ≤ budget.member member + budget.told [event] := by
  unfold Member.notify
  split
  · exact Nat.le_add_right _ _
  · show budget.told (member.events ++ [event]) + budget.planned member.parts ≤ _
    unfold Budget.member told
    rw [worth_append]
    omega

theorem network_notify_le (network : Network) (node : NodeName) (event : Event) :
    budget.network (network.notify node event) ≤ budget.network network + budget.told [event] := by
  cases known : network.members.get? node with
  | none =>
      have same : network.notify node event = network := by
        unfold notify changeMember
        rw [Table.modify_eq_self _ known]
      rw [same]
      exact Nat.le_add_right _ _
  | some member =>
      have balance := budget.network_changeMember known fun member => member.notify event
      have more := budget.member_notify_le member event
      unfold notify
      omega

theorem network_notify_of_none (network : Network) (node : NodeName) {event : Event}
    (mute : event.signal? = none) :
    budget.network (network.notify node event) ≤ budget.network network := by
  have told := budget.network_notify_le network node event
  have nothing : budget.told [event] = 0 := worth_singleton_of_none _ _ mute
  omega

theorem network_foldl_notify_le (network : Network) (node : NodeName) (events : List Event) :
    budget.network (events.foldl (fun network event => network.notify node event) network) ≤
      budget.network network + budget.told events := by
  induction events generalizing network with
  | nil => exact Nat.le_refl _
  | cons event others hypothesis =>
      have first := budget.network_notify_le network node event
      have rest := hypothesis (network.notify node event)
      have split : budget.told (event :: others) = budget.told [event] + budget.told others :=
        worth_append _ _ [event] others
      rw [List.foldl_cons]
      omega

/-! ## What a manager wants -/

theorem network_carryOut_le (node : NodeName) (network : Network) (effect : Manager.Effect) :
    budget.network (carryOut node network effect) ≤ budget.network network := by
  cases effect with
  | recheck delay =>
      cases delay with
      | none => exact budget.network_notify_of_none _ node rfl
      | some delay => exact Nat.le_refl _
  | _ => exact Nat.le_refl _

theorem network_foldl_carryOut_le (node : NodeName) (network : Network)
    (effects : List Manager.Effect) :
    budget.network (effects.foldl (carryOut node) network) ≤ budget.network network := by
  induction effects generalizing network with
  | nil => exact Nat.le_refl _
  | cons effect others hypothesis =>
      exact Nat.le_trans (hypothesis (carryOut node network effect))
        (budget.network_carryOut_le node network effect)

/-- When a manager has taken a turn, only what it did to the links counts. -/
theorem network_conclude_le (network : Network) (node : NodeName) (turn : Manager.Turn) :
    budget.network (network.conclude node turn) + budget.links network.links ≤
      budget.network network + budget.links turn.links := by
  have swapped : budget.network { network with links := turn.links } +
      budget.links network.links = budget.network network + budget.links turn.links :=
    budget.network_add_links rfl rfl
  have concluded : budget.network (network.conclude node turn) ≤
      budget.network { network with links := turn.links } :=
    Nat.le_trans (budget.network_foldl_carryOut_le node _ turn.effects)
      (budget.network_changeMember_le _ node fun _ => Nat.le_refl _)
  omega

end Budget

/-! ## Managers -/

/-- Whether a node takes a signal in its next step. -/
def Network.Member.handlesSignal (member : Member) : Bool :=
  member.parts.isEmpty && !member.manager.stopped &&
    (member.events.head?.bind Event.signal?).isSome

/-- Whether a signal is handled in a task. -/
def Network.handlesSignal (network : Network) : Task → Bool
  | .manager node => (network.members.get? node).any Member.handlesSignal
  | _ => false

namespace Budget

variable {largest : Nat} (budget : Budget largest)

theorem links_perform_le (around : Manager.Surroundings) (part : Manager.Part)
    {turn : Manager.Turn} (fits : turn.manager.config.signalTtlInitial.toNat ≤ largest) :
    budget.links (part.perform around turn).links ≤
      budget.links turn.links + budget.planned [part] := by
  cases part with
  | route link signal =>
      have routed : budget.planned [.route link signal] = budget.routed signal :=
        worth_singleton _ _ _
      rw [routed]
      exact budget.links_sentFor fits (Manager.sentFor_onSignal around link signal turn)
  | _ => exact Nat.le_add_right_of_le (budget.links_hushed (Manager.hushed_perform rfl turn))

theorem links_foldl_perform_le (around : Manager.Surroundings) (parts : List Manager.Part)
    {turn : Manager.Turn} (fits : turn.manager.config.signalTtlInitial.toNat ≤ largest) :
    budget.links (parts.foldl (fun turn part => part.perform around turn) turn).links ≤
      budget.links turn.links + budget.planned parts := by
  induction parts generalizing turn with
  | nil => exact Nat.le_refl _
  | cons part others hypothesis =>
      have first := budget.links_perform_le around part fits
      have still : (part.perform around turn).manager.config.signalTtlInitial.toNat ≤ largest := by
        rw [Manager.config_perform]
        exact fits
      have rest := hypothesis still
      have all : budget.planned (part :: others) =
          budget.planned [part] + budget.planned others := worth_append _ _ [part] others
      rw [List.foldl_cons]
      omega

/-- What is left of a signal that was handled is worth less by the cost. -/
theorem planned_signalParts_le {config : Config} (fits : config.signalTtlInitial.toNat ≤ largest)
    (link : LinkId) (signal : Signal) :
    budget.planned (Manager.signalParts config link signal) + budget.cost ≤
      budget.waiting signal := by
  have affordable := budget.affordable signal
  unfold Manager.signalParts
  split
  · exact Nat.le_trans (Nat.le_of_eq (Nat.zero_add _)) affordable
  · next moderate =>
      split
      · exact Nat.le_trans (Nat.le_of_eq (Nat.zero_add _)) affordable
      · have hops : signal.ttl ≤ config.signalTtlInitial := by
          simpa [Manager.isExcessive] using moderate
        have few : signal.ttl.toNat ≤ largest :=
          Nat.le_trans (UInt8.le_iff_toNat_le.1 hops) fits
        have routed : budget.planned [.route link signal] = budget.routed signal :=
          worth_singleton _ _ _
        rw [routed]
        exact budget.taken signal few

theorem planned_take_le (event : Event) {turn : Manager.Turn}
    (fits : turn.manager.config.signalTtlInitial.toNat ≤ largest) :
    budget.planned (Manager.take event turn).1 +
        (if event.signal?.isSome then budget.cost else 0) ≤ budget.told [event] := by
  cases event with
  | signal link signal =>
      have told : budget.told [.signal link signal] = budget.waiting signal :=
        worth_singleton _ _ _
      rw [told]
      exact budget.planned_signalParts_le fits link signal
  | addresses link addresses =>
      unfold Manager.take
      dsimp only
      generalize (Manager.learnAddresses link addresses turn).1 = added
      split <;> exact Nat.le_refl 0
  | closed link byRemote =>
      show budget.planned (if _ then _ else _) + 0 ≤ 0
      split <;> exact Nat.le_refl 0
  | _ => exact Nat.le_refl 0

theorem network_discard_le (network : Network) (event : Event) :
    budget.network (network.discard event) ≤ budget.network network := by
  cases event with
  | connection link =>
      have less : budget.links (network.links.modify link Link.abandon) ≤
          budget.links network.links := budget.links_abandon network.links link
      exact Nat.add_le_add_right (Nat.add_le_add_left less _) _
  | _ => exact Nat.le_refl _

theorem network_foldl_discard_le (network : Network) (events : List Event) :
    budget.network (events.foldl discard network) ≤ budget.network network := by
  induction events generalizing network with
  | nil => exact Nat.le_refl _
  | cons event others hypothesis =>
      exact Nat.le_trans (hypothesis (network.discard event))
        (budget.network_discard_le network event)

theorem network_halt_le (network : Network) (node : NodeName) (member : Member) :
    budget.network (network.halt node member) ≤ budget.network network := by
  have closed : budget.links
      (network.links.closeAll member.manager.slots.keys "peer manager shutdown") ≤
        budget.links network.links := budget.links_closeAll _ _ _
  refine Nat.le_trans (budget.network_changeMember_le _ node ?_) ?_
  · intro member
    exact Nat.add_le_add_right (Nat.zero_le _) _
  · exact Nat.le_trans (budget.network_foldl_discard_le _ _)
      (Nat.add_le_add_right (Nat.add_le_add_left closed _) _)

section Act

variable {network : Network} {node : NodeName} {member : Member}

/-- A part of a reaction is done. -/
theorem network_conclude_part_le (known : network.members.get? node = some member)
    (fits : member.manager.config.signalTtlInitial.toNat ≤ largest)
    (around : Manager.Surroundings) {part : Manager.Part} {others : List Manager.Part}
    (parts : member.parts = part :: others) :
    budget.network
        ((network.changeMember node fun member => { member with parts := others }).conclude node
          (part.perform around (.start member.manager network.links))) ≤
      budget.network network := by
  have sent : budget.links (part.perform around (.start member.manager network.links)).links ≤
      budget.links network.links + budget.planned [part] :=
    budget.links_perform_le around part fits
  have changed : budget.network (network.changeMember node fun member =>
        { member with parts := others }) + budget.member member =
      budget.network network + (budget.told member.events + budget.planned others) :=
    budget.network_changeMember known _
  have concluded : budget.network
        ((network.changeMember node fun member => { member with parts := others }).conclude node
          (part.perform around (.start member.manager network.links))) +
        budget.links network.links ≤ _ :=
    budget.network_conclude_le _ node _
  have before : budget.member member =
      budget.told member.events + (budget.planned [part] + budget.planned others) := by
    unfold Budget.member
    rw [parts]
    exact congrArg _ (worth_append _ _ [part] others)
  omega

/-- An event is taken, and what is left of it is worth less than the event. -/
theorem network_conclude_event_le (known : network.members.get? node = some member)
    {event : Event} {others : List Event} {left : List Manager.Part} {turn : Manager.Turn}
    {paid : Nat} (parts : member.parts = []) (events : member.events = event :: others)
    (links : turn.links = network.links)
    (enough : budget.planned left + paid ≤ budget.told [event]) :
    budget.network
        ((network.changeMember node fun member =>
          { member with events := others, parts := left }).conclude node turn) + paid ≤
      budget.network network := by
  have changed : budget.network (network.changeMember node fun member =>
        { member with events := others, parts := left }) + budget.member member =
      budget.network network + (budget.told others + budget.planned left) :=
    budget.network_changeMember known _
  have concluded : budget.network
        ((network.changeMember node fun member =>
          { member with events := others, parts := left }).conclude node turn) +
        budget.links network.links ≤ _ :=
    budget.network_conclude_le _ node turn
  have before : budget.member member = budget.told [event] + budget.told others := by
    unfold Budget.member
    rw [parts, events]
    exact worth_append _ _ [event] others
  rw [links] at concluded
  omega

/-- The number of peers is to be checked. -/
theorem network_changeMember_check_le (known : network.members.get? node = some member)
    (parts : member.parts = []) :
    budget.network (network.changeMember node fun member =>
      { member with checkDue := false, parts := [.checkPeerCount] }) ≤
        budget.network network := by
  have changed : budget.network (network.changeMember node fun member =>
        { member with checkDue := false, parts := [.checkPeerCount] }) + budget.member member =
      budget.network network + (budget.told member.events + 0) :=
    budget.network_changeMember known _
  have before : budget.member member = budget.told member.events + 0 := by
    unfold Budget.member
    rw [parts]
    rfl
  omega

theorem network_actManager_le (known : network.members.get? node = some member)
    (fits : member.manager.config.signalTtlInitial.toNat ≤ largest) (choices : Choices) :
    budget.network (network.actManager choices node member) +
        (if member.handlesSignal then budget.cost else 0) ≤ budget.network network := by
  unfold actManager Member.handlesSignal
  cases parts : member.parts with
  | cons part others => exact budget.network_conclude_part_le known fits _ parts
  | nil =>
      cases events : member.events with
      | nil =>
          cases stopped : member.manager.stopped with
          | true => exact budget.network_halt_le network node member
          | false => exact budget.network_changeMember_check_le known parts
      | cons event others =>
          cases stopped : member.manager.stopped with
          | true => exact budget.network_halt_le network node member
          | false =>
              -- Only here a signal is handled: the cost is paid when its event is taken,
              -- and what is sent for it is paid for when its part is done.
              have fitsTurn : (Manager.Turn.start member.manager
                network.links).manager.config.signalTtlInitial.toNat ≤ largest := fits
              have enough := budget.planned_take_le event fitsTurn
              have links := Manager.links_take event (.start member.manager network.links)
              exact budget.network_conclude_event_le known parts events links enough

end Act

/-! ## Agents and pumps -/

theorem links_insert {links : Links} {id : LinkId} {old : Link}
    (known : links.get? id = some old) (new : Link) :
    budget.links (links.insert id new) + budget.link old =
      budget.links links + budget.link new := by
  have balance := Table.total_insert links (fun _ link => budget.link link) id new
  rwa [known] at balance

theorem network_actAgent_le {network : Network} {link : Link}
    (known : network.links.get? link.id = some link) (choices : Choices)
    (attendance : Attendance) :
    budget.network (network.actAgent choices attendance link) ≤ budget.network network := by
  unfold actAgent
  split
  · exact Nat.le_refl _
  · dsimp only
    split
    · exact Nat.le_refl _
    · next turn stepped =>
        have conveyed : budget.link turn.link + budget.told turn.events ≤ budget.link link :=
          budget.turn_step stepped
        have replaced := budget.links_insert known turn.link
        refine Nat.le_trans (budget.network_foldl_notify_le _ attendance.owner turn.events) ?_
        have kept : budget.network
            { network with
              serial := turn.agent.timers.next
              links := network.links.insert link.id turn.link
              agents := network.agents.insert link.id { attendance with agent := turn.agent } } +
            budget.links network.links =
              budget.network network + budget.links (network.links.insert link.id turn.link) :=
          budget.network_add_links rfl rfl
        omega

theorem pumpTurn_finish_le (pump : Pump) (source target : Link) :
    budget.link (pump.perform source target .finish).source +
        budget.link (pump.perform source target .finish).target + 0 ≤
      budget.link source + budget.link target + budget.pump pump := by
  show 0 + budget.queued source.inbound + budget.link target + 0 ≤ _
  unfold Budget.link
  omega

theorem pumpTurn_deliver_le {pump : Pump} {message : Message} (held : pump.held = some message)
    (source target : Link) :
    budget.link source + budget.link (pump.perform source target (.deliver message)).target +
        0 ≤ budget.link source + budget.link target + budget.pump pump := by
  have arrived : budget.queued (target.inbound ++ [message]) =
      budget.queued target.inbound + budget.queued [message] := worth_append _ _ _ _
  have carried : budget.pump pump = budget.queued [message] := by
    unfold Budget.pump
    rw [held]
    rfl
  show _ + (budget.queued target.outbound + budget.queued (target.inbound ++ [message])) + 0 ≤ _
  unfold Budget.link
  omega

theorem pumpTurn_take_le {source : Link} {message : Message} {others : List Message}
    (waiting : source.outbound = message :: others) (pump : Pump) (target : Link) :
    budget.link (pump.perform source target (.take message others)).source +
        budget.link target + budget.queued [message] ≤
      budget.link source + budget.link target + budget.pump pump := by
  have first : budget.queued source.outbound =
      budget.queued [message] + budget.queued others := by
    rw [waiting]
    exact worth_append _ _ [message] others
  show budget.queued others + budget.queued source.inbound + _ + _ ≤ _
  unfold Budget.link
  omega

/-- A pump moves a message without making another one of it. -/
theorem pumpTurn_le {pump : Pump} {source target : Link} {move : Pump.Move}
    (may : pump.May source target move) :
    budget.link (pump.perform source target move).source +
        budget.link (pump.perform source target move).target +
        (pump.perform source target move).pump.elim 0 budget.pump ≤
      budget.link source + budget.link target + budget.pump pump := by
  cases may with
  | take message others free waits => exact budget.pumpTurn_take_le waits pump target
  | deliver message holds reads room => exact budget.pumpTurn_deliver_le holds source target
  | finish => exact budget.pumpTurn_finish_le pump source target

theorem pumps_erase {pumps : Table LinkId Pump} {id : LinkId} {pump : Pump}
    (running : pumps.get? id = some pump) :
    budget.pumps (pumps.erase id) + budget.pump pump = budget.pumps pumps := by
  have balance := Table.total_erase pumps (fun _ pump => budget.pump pump) id
  rwa [running] at balance

theorem pumps_insert {pumps : Table LinkId Pump} {id : LinkId} {old : Pump}
    (running : pumps.get? id = some old) (new : Pump) :
    budget.pumps (pumps.insert id new) + budget.pump old =
      budget.pumps pumps + budget.pump new := by
  have balance := Table.total_insert pumps (fun _ pump => budget.pump pump) id new
  rwa [running] at balance

theorem network_actPump_le {network : Network} {id : LinkId} {pump : Pump}
    {source target : Link} (running : network.pumps.get? id = some pump)
    (sourceKnown : network.links.get? id = some source)
    (targetKnown : network.links.get? pump.target = some target) (apart : pump.target ≠ id) :
    budget.network (network.actPump id pump source target) ≤ budget.network network := by
  unfold actPump
  split
  · exact Nat.le_refl _
  · next move next =>
      have moved := budget.pumpTurn_le (Pump.may_of_next? next).1
      dsimp only
      generalize pump.perform source target move = turn at moved ⊢
      have first := budget.links_insert sourceKnown turn.source
      -- The source is written back before the target, so they must be two links.
      have still : (network.links.insert id turn.source).get? pump.target = some target := by
        rw [Table.get?_insert, if_neg (Ne.symm apart)]
        exact targetKnown
      have second := budget.links_insert still turn.target
      unfold Budget.network
      dsimp only
      cases left : turn.pump with
      | none =>
          have erased := budget.pumps_erase running
          rw [left, Option.elim_none] at moved
          dsimp only
          omega
      | some other =>
          have replaced := budget.pumps_insert running other
          rw [left, Option.elim_some] at moved
          dsimp only
          omega

/-! ## Timers -/

theorem network_ring (network : Network) (link : LinkId) (number : Nat) :
    budget.network (network.ring link number) = budget.network network := by
  unfold ring
  split <;> rfl

theorem network_chime_le (network : Network) (number : Nat) :
    budget.network (network.chime number) ≤ budget.network network := by
  unfold chime
  dsimp only
  split
  · exact Nat.le_refl _
  · next node tag _ => exact budget.network_notify_of_none _ node rfl
  · next node _ => exact budget.network_changeMember_le _ node fun _ => Nat.le_refl _

/-! ## Any task -/

theorem network_manager_le {network : Network} (fit : network.Fit largest) (choices : Choices)
    (node : NodeName) :
    budget.network (network.perform choices (.manager node)) +
        (if (network.members.get? node).any Member.handlesSignal then budget.cost else 0) ≤
      budget.network network := by
  unfold Network.perform
  dsimp only
  cases known : network.members.get? node with
  | none => exact Nat.le_refl _
  | some member => exact budget.network_actManager_le known (fit.hops node member known) choices

/-- No task makes the signals of a network worth more, and handling one costs. -/
theorem network_act_le {network : Network} (fit : network.Fit largest) (choices : Choices)
    (task : Task) :
    budget.network (network.act choices task) +
        (if network.handlesSignal task then budget.cost else 0) ≤ budget.network network := by
  show budget.network (network.perform choices task) + _ ≤ _
  cases task with
  | ring link number => exact Nat.le_of_eq (budget.network_ring network link number)
  | chime number => exact budget.network_chime_le network number
  | manager node => exact budget.network_manager_le fit choices node
  | agent id =>
      unfold Network.perform
      dsimp only
      split
      · next attendance link _ known =>
          have own : network.links.get? link.id = some link := by
            rwa [fit.links id link known]
          exact budget.network_actAgent_le own choices attendance
      · exact Nat.le_refl _
  | pump id =>
      unfold Network.perform
      dsimp only
      split
      · next pump source running sourceKnown =>
          split
          · exact Nat.le_refl _
          · next target targetKnown =>
              exact budget.network_actPump_le running sourceKnown targetKnown
                (fit.pumps id pump running)
      · exact Nat.le_refl _

end Budget

end PeerOverlay
