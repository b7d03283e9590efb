import PeerOverlay.Proofs.Network.Reached

/-!
# Honest nodes do not ban each other

Nodes that agree on the limits of messages keep to these limits themselves,
whatever is linked to what and whatever the books say.  As long as no message
from outside exceeds them, there is no reason for a ban anywhere.
-/

namespace PeerOverlay

open Manager (Part Effect)

namespace Network

/-- The limits on which honest nodes agree. -/
structure Limits where
  /-- The most addresses of one message. -/
  addresses : Nat
  /-- The most hops of a signal. -/
  hops : UInt8
  one_le_addresses : 1 ≤ addresses

namespace Limits

variable (limits : Limits)

/-- Whether a node shares the limits. -/
structure Shared (config : Config) : Prop where
  addresses : config.maxAddrPerMessage = limits.addresses
  batch : config.relayBatchMax ≤ limits.addresses
  hops : config.signalTtlInitial = limits.hops

def Within : Message → Prop
  | .addresses told => told.length ≤ limits.addresses
  | .signal said => said.ttl ≤ limits.hops
  | _ => True

/-- Whether an event is no ban and no reason for one. -/
def Harmless : Event → Prop
  | .ban _ _ => False
  | .signal _ said => said.ttl ≤ limits.hops
  | _ => True

def HarmlessPart : Part → Prop
  | .ban _ _ => False
  | .route _ said => said.ttl ≤ limits.hops
  | _ => True

/-- What is found in a network of nodes that share the limits. -/
def rules : Rules where
  manager := fun manager => limits.Shared manager.config
  address := fun _ => True
  netAddress := fun _ => True
  message := limits.Within
  event := limits.Harmless
  part := limits.HarmlessPart
  relay := fun addresses => addresses.length ≤ limits.addresses

/-! ## Honest nodes keep to the limits -/

variable {limits}

theorem within_of_spoken {around : Agent.Surroundings} {task : Agent.Task} {said : Message}
    (shared : limits.Shared around.config) (inTask : limits.rules.InTask task)
    (speaks : Agent.Says around task said) : limits.Within said := by
  cases speaks with
  | answer protocols services told stored few =>
      rw [shared.addresses] at few
      exact few
  | passOn addresses told others asked among =>
      subst asked
      exact Nat.le_trans among.length_le inTask
  | announce => exact limits.one_le_addresses
  | _ => trivial

/-- What an agent that has got messages within the limits tells is no ban. -/
theorem harmless_of_tells {around : Agent.Surroundings} {id : LinkId} {task : Agent.Task}
    {told : Event} (shared : limits.Shared around.config)
    (inTask : limits.rules.InTask task) (tells : Agent.Tells around id task told) :
    limits.Harmless told := by
  cases tells with
  | ban addresses others reason came many =>
      subst came
      have few : addresses.length ≤ limits.addresses := inTask
      rw [shared.addresses] at many
      exact absurd few (Nat.not_le_of_lt many)
  | signal said others came =>
      subst came
      exact inTask
  | _ => trivial

theorem not_isExcessive {config : Config} {signal : Signal} (shared : limits.Shared config)
    (moderate : signal.ttl ≤ limits.hops) : Manager.isExcessive config signal = false := by
  unfold Manager.isExcessive
  rw [shared.hops, decide_eq_false_iff_not]
  exact UInt8.not_lt.2 moderate

theorem harmless_of_take {event : Event} {turn : Manager.Turn}
    (shared : limits.Shared turn.manager.config) (harmless : limits.Harmless event) :
    ∀ part ∈ (Manager.take event turn).1, limits.HarmlessPart part := by
  intro part member
  unfold Manager.take at member
  cases event with
  | ban link reason => exact harmless.elim
  | signal link said =>
      dsimp only at member
      unfold Manager.signalParts at member
      rw [not_isExcessive shared harmless, if_neg Bool.false_ne_true] at member
      split at member
      · exact absurd member List.not_mem_nil
      · rw [List.mem_singleton.1 member]
        exact harmless
  | addresses link addresses =>
      dsimp only at member
      split at member
      · rw [List.mem_singleton.1 member]
        trivial
      · rcases List.mem_cons.1 member with rfl | check
        · trivial
        · rw [List.mem_singleton.1 check]
          trivial
  | closed link byRemote =>
      dsimp only at member
      split at member
      · rcases List.mem_cons.1 member with rfl | check
        · trivial
        · rw [List.mem_singleton.1 check]
          trivial
      · rw [List.mem_singleton.1 member]
        trivial
  | connectFailed address =>
      rcases List.mem_cons.1 member with rfl | check
      · trivial
      · rw [List.mem_singleton.1 check]
        trivial
  | _ =>
      rw [List.mem_singleton.1 member]
      trivial

/-- What is sent for a signal has no more hops than a signal may have. -/
theorem within_of_follows {config : Config} {signal sent : Signal}
    (shared : limits.Shared config) (moderate : signal.ttl ≤ limits.hops)
    (follows : Manager.Follows config.signalTtlInitial signal sent) :
    limits.Within (.signal sent) := by
  cases follows with
  | onward left =>
      have less := Signal.toNat_ttl_sub_one left
      have most := UInt8.le_iff_toNat_le.1 moderate
      show signal.ttl - 1 ≤ limits.hops
      rw [UInt8.le_iff_toNat_le]
      omega
  | answer plain flags flagged =>
      show config.signalTtlInitial ≤ limits.hops
      rw [shared.hops]
      exact UInt8.le_refl _

theorem length_le_of_relays {manager : Manager} {part : Part} {addresses : List PeerAddress}
    (shared : limits.Shared manager.config) (relays : part.Relays manager addresses) :
    addresses.length ≤ limits.addresses := by
  cases relays with
  | relayed source addresses few => exact Nat.le_trans few shared.batch
  | joined peer slot known few => exact Nat.le_trans few shared.batch

theorem shared_follow {around : Manager.Surroundings} {turn : Manager.Turn}
    (shared : limits.Shared turn.manager.config) (control : Manager.Control) :
    limits.Shared (Manager.follow around control turn).2.manager.config := by
  rw [(Manager.SameSeats.followed (Manager.followed_follow around control turn)).config]
  exact shared

/-- The limits are a custom. -/
def custom (limits : Limits) : Custom where
  toRules := limits.rules
  speaks := by
    intro owner around task said shared reads inTask speaks
    refine within_of_spoken ?_ inTask speaks
    rw [reads.config]
    exact shared
  tells := by
    intro owner around id task told shared reads inTask _ tells
    refine harmless_of_tells ?_ inTask tells
    rw [reads.config]
    exact shared
  completes := fun _ _ => trivial
  takes := by
    intro turn taken shared harmless
    refine ⟨?_, harmless_of_take shared harmless⟩
    show limits.Shared _
    rw [Manager.config_take]
    exact shared
  performs := by
    intro around turn done shared _ _
    show limits.Shared _
    rw [Manager.config_perform]
    exact shared
  follows := fun shared moderate follows => within_of_follows shared moderate follows
  relays := fun shared _ relays => length_le_of_relays shared relays
  obeys := fun shared _ => shared_follow shared _
  checks := ⟨trivial, trivial⟩

end Limits

/-! ## No ban -/

/-- In every state that a network of nodes with shared limits can reach, no agent
tells of a ban, no manager is left with one to carry out, and no signal that waits
for a manager is excessive. -/
theorem honest_nodes_never_ban {limits : Limits} {network : Network}
    (reached : Reached limits.rules network) :
    (∀ id attendance link member timers choices turn,
        network.agents.get? id = some attendance → network.links.get? id = some link →
        network.members.get? attendance.owner = some member →
        { attendance.agent with timers := timers }.step
          (network.agentSurroundings member choices) link = some turn →
        ∀ told reason, .ban told reason ∉ turn.events) ∧
      ∀ node member, network.members.get? node = some member →
        (∀ link reason, .ban link reason ∉ member.events) ∧
          (∀ link reason, .ban link reason ∉ member.parts) ∧
          ∀ link signal, .signal link signal ∈ member.events →
            Manager.isExcessive member.manager.config signal = false := by
  have keeps : Keeps limits.custom.toRules network := Reached.keeps reached
  constructor
  · intro id attendance link member timers choices turn attends known owner stepped
    obtain ⟨task, next, performed⟩ := Option.map_eq_some_iff.1 stepped
    have inAgent := keeps.agents id attendance attends
    have timed : limits.custom.InAgent { attendance.agent with timers := timers } :=
      ⟨inAgent.relays, inAgent.peer⟩
    have reads : (network.agentSurroundings member choices).Reads member.manager := ⟨rfl, rfl⟩
    obtain ⟨_, _, events⟩ := limits.custom.perform
      (keeps.members attendance.owner member owner).manager reads (keeps.links id link known)
      timed next
    rw [performed] at events
    intro told reason present
    exact events _ present
  · intro node member known
    obtain ⟨shared, events, parts⟩ := keeps.members node member known
    refine ⟨?_, ?_, ?_⟩
    · intro link reason present
      exact events _ present
    · intro link reason present
      exact parts _ present
    · intro link signal present
      exact Limits.not_isExcessive shared (events _ present)

/-- The limits of the usual configuration. -/
def usualLimits : Limits where
  addresses := 1000
  hops := 3
  one_le_addresses := by decide

def guestVersion : Version where
  version := 2
  peerAddress := Manager.hostAddress "2.2.2.2"
  genesisHash := ""
  startHeight := 0
  totalWork := 0

def guestSignal : Signal where
  senderId := "s"
  recipientId := "r"
  nonce := 7
  ttl := 3
  flags := .none
  payload := none

/-- A guest has come to a node, announces itself and sends a signal. -/
def visited : Network :=
  let network := (Network.empty 0).join "a" (.new (Manager.atHost "1.1.1.1") ⟨"", 0, 0⟩ .none)
  let network := (network.run "a").openLink
    (.opened 1 .inbound .direct (some (.ip "2.2.2.2")) none)
  let network := (network.handOver "a" 1).act (.plain 0) (.manager "a")
  let network := (network.act (.plain 1) (.manager "a")).act (.plain 2) (.agent 1)
  let network := (network.deliver 1 (.version guestVersion)).2
  let network := (network.deliver 1 (.signal guestSignal)).2
  (network.act (.plain 3) (.agent 1)).act (.plain 4) (.agent 1)

theorem visited_reached : Reached usualLimits.rules visited := by
  have shared : usualLimits.Shared (Manager.atHost "1.1.1.1").config :=
    ⟨rfl, by decide, rfl⟩
  have onLink : usualLimits.rules.OnLink
      (.opened 1 .inbound .direct (some (.ip "2.2.2.2")) none) :=
    ⟨fun _ member => absurd member List.not_mem_nil,
      fun _ member => absurd member List.not_mem_nil, fun _ _ => trivial, fun _ _ => trivial⟩
  have empty : Reached usualLimits.rules (.empty 0) := .empty 0
  have joined := empty.joined "a" _ ⟨"", 0, 0⟩ .none shared
  have handed := ((joined.started "a").opened _ onLink).handed "a" 1 trivial
  have begun := ((handed.acted (.plain 0) (.manager "a")).acted (.plain 1) (.manager "a")).acted
    (.plain 2) (.agent 1)
  have moderate : guestSignal.ttl ≤ usualLimits.hops := by decide
  have heard := (begun.delivered 1 (.version guestVersion) trivial).delivered 1
    (.signal guestSignal) moderate
  exact (heard.acted (.plain 3) (.agent 1)).acted (.plain 4) (.agent 1)

/-- The signal waits for the manager, which has no reason for a ban. -/
theorem honest_nodes_never_ban_visited :
    Reached usualLimits.rules visited ∧
      ∃ member, visited.members.get? "a" = some member ∧
        .signal 1 guestSignal ∈ member.events ∧
        (∀ link reason, .ban link reason ∉ member.events) ∧
        Manager.isExcessive member.manager.config guestSignal = false := by
  have waits : (visited.members.get? "a").any fun member =>
      decide (.signal 1 guestSignal ∈ member.events) := by decide
  obtain ⟨member, known, present⟩ := (Option.any_eq_true _ _).1 waits
  obtain ⟨_, nodes⟩ := honest_nodes_never_ban visited_reached
  obtain ⟨harmless, _, moderate⟩ := nodes "a" member known
  have waiting := of_decide_eq_true present
  exact ⟨visited_reached, member, known, waiting, harmless, moderate 1 guestSignal waiting⟩

end Network

end PeerOverlay
