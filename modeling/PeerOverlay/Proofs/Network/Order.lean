import PeerOverlay.Network.Act
import PeerOverlay.Proofs.Agent.Exchange
import PeerOverlay.Proofs.Manager.Slots
import PeerOverlay.Proofs.Network.Budget
import PeerOverlay.Proofs.Network.PumpMoves

/-!
# Networks in order

Links are kept under their own numbers, no pump leads back to the link at which it
starts, and the managers keep to their configurations.  No task changes that.
-/

namespace PeerOverlay

namespace Network

/-- Whether the links and pumps of a network are where they belong. -/
structure InOrder (network : Network) : Prop where
  links : network.links.InOrder
  pumps : ∀ id pump, network.pumps.get? id = some pump → pump.target ≠ id

/-- Whether a network is in order and no node starts signals with more than some number
of hops. -/
structure Fit (largest : Nat) (network : Network) : Prop extends network.InOrder where
  hops : ∀ node member, network.members.get? node = some member →
    member.manager.config.signalTtlInitial.toNat ≤ largest

namespace Fit

variable {largest : Nat} {before after network : Network}

theorem of_links (fit : before.Fit largest) (links : after.links.InOrder)
    (pumps : after.pumps = before.pumps) (members : after.members = before.members) :
    after.Fit largest := by
  refine ⟨⟨links, ?_⟩, ?_⟩
  · rw [pumps]
    exact fit.pumps
  · rw [members]
    exact fit.hops

theorem changeMember (fit : network.Fit largest) {node : NodeName} {change : Member → Member}
    (fits : ∀ member, network.members.get? node = some member →
      (change member).manager.config.signalTtlInitial.toNat ≤ largest) :
    (network.changeMember node change).Fit largest := by
  refine ⟨⟨fit.links, fit.pumps⟩, ?_⟩
  intro tested member known
  have found : (network.members.modify node change).get? tested = some member := known
  rw [Table.get?_modify] at found
  obtain ⟨old, stored, same⟩ := Option.map_eq_some_iff.1 found
  rw [← same]
  split
  · next here =>
      rw [here] at stored
      exact fits old stored
  · exact fit.hops tested old stored

/-- A change that leaves the managers alone. -/
theorem changeMember_of_same (fit : network.Fit largest) (node : NodeName)
    {change : Member → Member} (same : ∀ member, (change member).manager = member.manager) :
    (network.changeMember node change).Fit largest := by
  apply fit.changeMember
  intro member known
  rw [same]
  exact fit.hops node member known

theorem notify (fit : network.Fit largest) (node : NodeName) (event : Event) :
    (network.notify node event).Fit largest := by
  apply fit.changeMember_of_same node
  intro member
  unfold Member.notify
  split <;> rfl

theorem foldl_notify (fit : network.Fit largest) (node : NodeName) (events : List Event) :
    (events.foldl (fun network event => network.notify node event) network).Fit largest := by
  induction events generalizing network with
  | nil => exact fit
  | cons event others hypothesis => exact hypothesis (fit.notify node event)

theorem carryOut (fit : network.Fit largest) (node : NodeName) (effect : Manager.Effect) :
    (network.carryOut node effect).Fit largest := by
  have noted (journal : List Report) : Fit largest { network with journal := journal } :=
    fit.of_links fit.links rfl rfl
  cases effect with
  | recheck delay =>
      cases delay with
      | none => exact (noted _).notify node .checkPeerCount
      | some delay => exact fit.of_links fit.links rfl rfl
  | _ => exact fit.of_links fit.links rfl rfl

theorem foldl_carryOut (fit : network.Fit largest) (node : NodeName)
    (effects : List Manager.Effect) :
    (effects.foldl (Network.carryOut node) network).Fit largest := by
  induction effects generalizing network with
  | nil => exact fit
  | cons effect others hypothesis => exact hypothesis (fit.carryOut node effect)

theorem conclude (fit : network.Fit largest) (node : NodeName) {turn : Manager.Turn}
    (links : turn.links.InOrder)
    (fits : turn.manager.config.signalTtlInitial.toNat ≤ largest) :
    (network.conclude node turn).Fit largest := by
  have linked : Fit largest { network with links := turn.links } := fit.of_links links rfl rfl
  have managed : Fit largest ({ network with links := turn.links }.changeMember node
      fun member => { member with manager := turn.manager }) :=
    linked.changeMember fun _ _ => fits
  exact managed.foldl_carryOut node turn.effects

/-! ## Managers -/

theorem discard (fit : network.Fit largest) (event : Event) :
    (network.discard event).Fit largest := by
  cases event with
  | connection link => exact fit.of_links (fit.links.modify link fun _ => rfl) rfl rfl
  | _ => exact fit

theorem foldl_discard (fit : network.Fit largest) (events : List Event) :
    (events.foldl Network.discard network).Fit largest := by
  induction events generalizing network with
  | nil => exact fit
  | cons event others hypothesis => exact hypothesis (fit.discard event)

theorem halt (fit : network.Fit largest) (node : NodeName) (member : Member) :
    (network.halt node member).Fit largest := by
  have closed : Links.InOrder
      (network.links.closeAll member.manager.slots.keys "peer manager shutdown") :=
    fit.links.closeAll _ _
  refine Fit.changeMember_of_same ?_ node fun _ => rfl
  refine Fit.foldl_discard ?_ member.events
  exact fit.of_links closed rfl rfl

/-- An event is taken. -/
theorem conclude_event (fit : network.Fit largest) {node : NodeName} {member : Member}
    (known : network.members.get? node = some member) {turn : Manager.Turn}
    (links : turn.links = network.links)
    (config : turn.manager.config = member.manager.config) (others : List Event)
    (left : List Manager.Part) :
    ((network.changeMember node fun member =>
      { member with events := others, parts := left }).conclude node turn).Fit largest := by
  have taken : Fit largest (network.changeMember node fun member =>
      { member with events := others, parts := left }) :=
    fit.changeMember_of_same node fun _ => rfl
  refine taken.conclude node ?_ ?_
  · rw [links]
    exact fit.links
  · rw [config]
    exact fit.hops node member known

theorem actManager (fit : network.Fit largest) {node : NodeName} {member : Member}
    (known : network.members.get? node = some member) (choices : Choices) :
    (network.actManager choices node member).Fit largest := by
  unfold Network.actManager
  cases parts : member.parts with
  | cons part others =>
      have shorter : Fit largest (network.changeMember node fun member =>
          { member with parts := others }) := fit.changeMember_of_same node fun _ => rfl
      have ordered : (part.perform (network.managerSurroundings member choices)
          (.start member.manager network.links)).links.InOrder :=
        Links.InOrder.perform fit.links _ part
      refine shorter.conclude node ordered ?_
      rw [Manager.config_perform]
      exact fit.hops node member known
  | nil =>
      cases events : member.events with
      | nil =>
          cases stopped : member.manager.stopped with
          | true => exact fit.halt node member
          | false => exact fit.changeMember_of_same node fun _ => rfl
      | cons event others =>
          cases stopped : member.manager.stopped with
          | true => exact fit.halt node member
          | false =>
              have links := Manager.links_take event (.start member.manager network.links)
              have config := Manager.config_take event (.start member.manager network.links)
              exact fit.conclude_event known links config others _

/-! ## Agents, pumps and timers -/

theorem actAgent (fit : network.Fit largest) (choices : Choices) (attendance : Attendance)
    (link : Link) : (network.actAgent choices attendance link).Fit largest := by
  unfold Network.actAgent
  split
  · exact fit
  · dsimp only
    split
    · exact fit
    · next turn stepped =>
        obtain ⟨task, _, performed⟩ := Option.map_eq_some_iff.1 stepped
        have own : turn.link.id = link.id := by
          rw [← performed]
          exact (Agent.exchanged_perform _ task _).id_eq
        refine Fit.foldl_notify ?_ attendance.owner turn.events
        exact fit.of_links (fit.links.insert own) rfl rfl

theorem target_of_perform {pump left : Pump} {source target : Link} {move : Pump.Move}
    (runs : (pump.perform source target move).pump = some left) :
    left.target = pump.target := by
  cases move with
  | finish => cases runs
  | _ =>
      cases runs
      rfl

theorem actPump (fit : network.Fit largest) {id : LinkId} {pump : Pump}
    {source target : Link} (running : network.pumps.get? id = some pump)
    (sourceKnown : network.links.get? id = some source)
    (targetKnown : network.links.get? pump.target = some target) :
    (network.actPump id pump source target).Fit largest := by
  have sourceOwn := fit.links id source sourceKnown
  have targetOwn := fit.links pump.target target targetKnown
  rw [actPump_eq]
  cases pump.next? source target with
  | none => exact fit
  | some move =>
      refine ⟨⟨?_, ?_⟩, fit.hops⟩
      · refine Links.InOrder.insert (fit.links.insert ?_) ?_
        · cases move <;> exact sourceOwn
        · cases move <;> exact targetOwn
      · intro tested other known
        rw [Option.elim_some, get?_pumps_afterMove] at known
        split at known
        · next here =>
            rw [target_of_perform known, ← here]
            exact fit.pumps id pump running
        · exact fit.pumps tested other known

theorem ring (fit : network.Fit largest) (link : LinkId) (number : Nat) :
    (network.ring link number).Fit largest := by
  unfold Network.ring
  split
  · exact fit
  · exact fit.of_links fit.links rfl rfl

theorem chime (fit : network.Fit largest) (number : Nat) :
    (network.chime number).Fit largest := by
  unfold Network.chime
  dsimp only
  split
  · exact fit.of_links fit.links rfl rfl
  · next node tag _ =>
      refine Fit.notify ?_ node .checkPeerCount
      exact fit.of_links fit.links rfl rfl
  · next node _ =>
      refine Fit.changeMember_of_same ?_ node fun _ => rfl
      exact fit.of_links fit.links rfl rfl

theorem act (fit : network.Fit largest) (choices : Choices) (task : Task) :
    (network.act choices task).Fit largest := by
  have turned {reached : Network} (fit : reached.Fit largest) :
      Fit largest { reached with turns := reached.turns + 1 } :=
    fit.of_links fit.links rfl rfl
  refine turned ?_
  unfold Network.perform
  cases task with
  | ring link number => exact fit.ring link number
  | chime number => exact fit.chime number
  | manager node =>
      dsimp only
      split
      · exact fit
      · next member known => exact fit.actManager known choices
  | agent id =>
      dsimp only
      split
      · next attendance link _ _ => exact fit.actAgent choices attendance link
      · exact fit
  | pump id =>
      dsimp only
      split
      · next pump source running sourceKnown =>
          split
          · exact fit
          · next target targetKnown => exact fit.actPump running sourceKnown targetKnown
      · exact fit

end Fit

end Network

end PeerOverlay
