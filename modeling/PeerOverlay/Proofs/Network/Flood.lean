import PeerOverlay.Network.Control
import PeerOverlay.Proofs.Network.Signals

/-!
# Signals do not flood a network

However the nodes of a network are linked and whatever their address books say, one
signal is handled a bounded number of times.  Its own hops are used up one by one,
it is answered at most once, and the hops of the answer are used up as well.
-/

namespace PeerOverlay

/-! ## The signals in a network -/

def Link.signals (link : Link) : List Signal :=
  (link.outbound ++ link.inbound).filterMap Message.signal?

def Links.signals (links : Links) : List Signal :=
  links.values.flatMap Link.signals

namespace Network

def Member.signals (member : Member) : List Signal :=
  member.events.filterMap Event.signal?

/-- The signals that a node has taken but not routed. -/
def Member.routed (member : Member) : List Signal :=
  member.parts.filterMap Manager.Part.routed?

def Pump.signals (pump : Pump) : List Signal :=
  pump.held.toList.filterMap Message.signal?

/-- The signals that wait on links, between links or for managers. -/
def signals (network : Network) : List Signal :=
  network.members.values.flatMap Member.signals ++ network.links.signals ++
    network.pumps.values.flatMap Pump.signals

def routed (network : Network) : List Signal :=
  network.members.values.flatMap Member.routed

/-- The most hops with which a node starts signals. -/
def largestTtl (network : Network) : Nat :=
  (network.members.values.map fun member =>
    member.manager.config.signalTtlInitial.toNat).foldr max 0

/-! ## Courses -/

/-- A change from outside that brings no signals.  Some may be lost, and others may be
carried from one place to another. -/
structure Quiet (before after : Network) : Prop where
  inOrder : before.InOrder → after.InOrder
  largestTtl : after.largestTtl ≤ before.largestTtl
  signals : ∃ lost, before.signals.Perm (after.signals ++ lost)
  routed : ∃ lost, before.routed.Perm (after.routed ++ lost)

/-- How a network gets from one state to another, with some signals handled on the
way.  Any task may be the next one, and there may be changes from outside. -/
inductive Course (network : Network) : Network → Nat → Prop where
  | start : Course network network 0
  | done {reached : Network} {handled : Nat} (course : Course network reached handled)
      (choices : Choices) (task : Task) :
      Course network (reached.act choices task)
        (handled + if reached.handlesSignal task then 1 else 0)
  | changed {reached after : Network} {handled : Nat} (course : Course network reached handled)
      (quiet : Quiet reached after) : Course network after handled

/-- A member may change in any way, as long as its configuration stays and no event
or part of a reaction is added. -/
theorem Quiet.changeMember (network : Network) (node : NodeName) {change : Member → Member}
    (config : ∀ member, (change member).manager.config = member.manager.config)
    (events : ∀ member, (change member).events = member.events)
    (parts : ∀ member, (change member).parts = member.parts) :
    Quiet network (network.changeMember node change) := by
  have ttls : (network.members.modify node change).values.map (fun member =>
        member.manager.config.signalTtlInitial.toNat) =
      network.members.values.map fun member => member.manager.config.signalTtlInitial.toNat :=
    Table.map_values_modify _ _ fun member => by rw [config]
  have waiting : (network.members.modify node change).values.map Member.signals =
      network.members.values.map Member.signals :=
    Table.map_values_modify _ _ fun member => by rw [Member.signals, events, Member.signals]
  have taken : (network.members.modify node change).values.map Member.routed =
      network.members.values.map Member.routed :=
    Table.map_values_modify _ _ fun member => by rw [Member.routed, parts, Member.routed]
  have signals : (network.changeMember node change).signals = network.signals :=
    congrArg
      (fun held => List.flatten held ++ network.links.signals ++
        network.pumps.values.flatMap Pump.signals)
      waiting
  have routed : (network.changeMember node change).routed = network.routed :=
    congrArg List.flatten taken
  refine ⟨?_, ?_, ⟨[], ?_⟩, ⟨[], ?_⟩⟩
  · intro inOrder
    exact ⟨inOrder.links, inOrder.pumps⟩
  · exact Nat.le_of_eq (congrArg (fun hops => List.foldr max 0 hops) ttls)
  · rw [signals, List.append_nil]
  · rw [routed, List.append_nil]

theorem Quiet.changeBook (network : Network) (node : NodeName)
    (change : AddressBook → AddressBook) : Quiet network (network.changeBook node change) :=
  .changeMember network node (fun _ => rfl) (fun _ => rfl) fun _ => rfl

end Network

/-! ## Worth and signals -/

namespace Budget

variable {largest : Nat} (budget : Budget largest)

theorem link_eq_worth (link : Link) :
    budget.link link = worth budget.waiting some link.signals := by
  unfold Link.signals
  rw [worth_filterMap, worth_append]
  rfl

theorem links_eq_worth (links : Links) :
    budget.links links = worth budget.waiting some links.signals := by
  unfold Budget.links Links.signals
  rw [worth_flatMap]
  simp only [link_eq_worth]

theorem member_eq_worth (member : Network.Member) :
    budget.member member =
      worth budget.waiting some member.signals + worth budget.routed some member.routed := by
  unfold Network.Member.signals Network.Member.routed
  rw [worth_filterMap, worth_filterMap]
  rfl

theorem pump_eq_worth (pump : Network.Pump) :
    budget.pump pump = worth budget.waiting some pump.signals := by
  unfold Network.Pump.signals
  rw [worth_filterMap]
  rfl

theorem network_eq_worth (network : Network) :
    budget.network network =
      worth budget.waiting some network.signals + worth budget.routed some network.routed := by
  have members : budget.members network.members =
      worth budget.waiting some (network.members.values.flatMap Network.Member.signals) +
        worth budget.routed some (network.members.values.flatMap Network.Member.routed) := by
    rw [worth_flatMap, worth_flatMap, ← Table.total_add]
    unfold Budget.members
    simp only [member_eq_worth]
  have pumps : budget.pumps network.pumps =
      worth budget.waiting some (network.pumps.values.flatMap Network.Pump.signals) := by
    rw [worth_flatMap]
    unfold Budget.pumps
    simp only [pump_eq_worth]
  have links := budget.links_eq_worth network.links
  unfold Budget.network Network.signals Network.routed
  rw [worth_append, worth_append]
  omega

/-- With every signal worth the same, signals are counted. -/
theorem network_single (network : Network) :
    (single largest).network network = network.signals.length + network.routed.length := by
  rw [network_eq_worth]
  have waiting : worth (single largest).waiting some network.signals = _ := worth_one _
  have routed : worth (single largest).routed some network.routed = _ := worth_one _
  rw [waiting, routed]

theorem links_single (links : Links) : (single largest).links links = links.signals.length := by
  rw [links_eq_worth]
  exact worth_one links.signals

theorem network_le_of_quiet {before after : Network} (quiet : Network.Quiet before after) :
    budget.network after ≤ budget.network before := by
  obtain ⟨lost, signals⟩ := quiet.signals
  obtain ⟨dropped, routed⟩ := quiet.routed
  have waiting := worth_perm budget.waiting signals
  have planned := worth_perm budget.routed routed
  rw [worth_append] at waiting planned
  rw [network_eq_worth, network_eq_worth]
  omega

end Budget

namespace Network

theorem largestTtl_le_iff (network : Network) (largest : Nat) :
    network.largestTtl ≤ largest ↔ ∀ node member, network.members.get? node = some member →
      member.manager.config.signalTtlInitial.toNat ≤ largest := by
  have rows : network.largestTtl ≤ largest ↔ ∀ row ∈ network.members.rows,
      row.2.manager.config.signalTtlInitial.toNat ≤ largest := by
    unfold largestTtl Table.values
    induction network.members.rows with
    | nil => simp
    | cons row others hypothesis =>
        rw [List.map_cons, List.map_cons, List.foldr_cons, Nat.max_le, hypothesis,
          List.forall_mem_cons]
  rw [rows]
  constructor
  · intro bounded node member known
    exact bounded (node, member) ((Table.mem_rows_iff network.members node member).2 known)
  · rintro bounded ⟨node, member⟩ present
    exact bounded node member ((Table.mem_rows_iff network.members node member).1 present)

theorem fit_iff (network : Network) (largest : Nat) :
    network.Fit largest ↔ network.InOrder ∧ network.largestTtl ≤ largest := by
  rw [largestTtl_le_iff]
  constructor
  · intro fit
    exact ⟨fit.toInOrder, fit.hops⟩
  · rintro ⟨inOrder, hops⟩
    exact ⟨inOrder, hops⟩

namespace Course

variable {network last : Network} {handled largest : Nat}

theorem fit (course : Course network last handled) (fit : network.Fit largest) :
    last.Fit largest := by
  induction course with
  | start => exact fit
  | done course choices task hypothesis => exact hypothesis.act choices task
  | changed course quiet hypothesis =>
      obtain ⟨inOrder, most⟩ := (fit_iff _ largest).1 hypothesis
      exact (fit_iff _ largest).2 ⟨quiet.inOrder inOrder, Nat.le_trans quiet.largestTtl most⟩

/-- Every signal that was handled has cost something. -/
theorem handled_add_worth_le (course : Course network last handled)
    (fit : network.Fit largest) (budget : Budget largest) :
    handled * budget.cost + budget.network last ≤ budget.network network := by
  induction course with
  | start => omega
  | @done reached handled course choices task hypothesis =>
      have acted := budget.network_act_le (course.fit fit) choices task
      cases handles : reached.handlesSignal task with
      | false =>
          rw [handles] at acted
          exact Nat.le_trans (Nat.add_le_add_left acted _) hypothesis
      | true =>
          rw [handles, if_pos rfl] at acted
          rw [if_pos rfl, Nat.add_mul, Nat.one_mul]
          omega
  | changed course quiet hypothesis =>
      have calm := budget.network_le_of_quiet quiet
      omega

end Course

theorem length_signals_handle_le (around : Manager.Surroundings) (id : LinkId) (said : Signal)
    (turn : Manager.Turn) :
    (Manager.handle around (.signal id said) turn).links.signals.length ≤
      turn.links.signals.length + 1 := by
  have own := Nat.le_refl turn.manager.config.signalTtlInitial.toNat
  have performed := (Budget.single _).links_foldl_perform_le around
    (Manager.signalParts turn.manager.config id said) own
  have parts := (Budget.single _).planned_signalParts_le own id said
  rw [Budget.links_single, Budget.links_single] at performed
  exact Nat.le_trans performed (Nat.add_le_add_left parts _)

/-- One signal, wherever it comes from, is handled at most twice for every hop with which
a node starts signals and twice more.  There is never more than one signal that comes of
it, for a manager that handles a signal sends at most one. -/
theorem signals_do_not_flood {network last : Network} {signal : Signal} {handled : Nat}
    (inOrder : network.InOrder) (one : network.signals = [signal])
    (settled : network.routed = []) (course : Course network last handled) :
    handled ≤ 2 * network.largestTtl + 2 ∧
      last.signals.length + last.routed.length ≤ 1 ∧
      ∀ around id said turn,
        (Manager.handle around (.signal id said) turn).links.signals.length ≤
          turn.links.signals.length + 1 := by
  have fit : network.Fit network.largestTtl := (fit_iff _ _).2 ⟨inOrder, Nat.le_refl _⟩
  refine ⟨?_, ?_, length_signals_handle_le⟩
  -- The same account is kept twice: once in handlings, once in signals.
  · have spent := course.handled_add_worth_le fit (.handlings network.largestTtl)
    have most := Budget.waiting_handlings_le network.largestTtl signal
    have cost : (Budget.handlings network.largestTtl).cost = 1 := rfl
    rw [Budget.network_eq_worth _ network, one, settled, Budget.worth_singleton,
      Budget.worth_nil, cost, Nat.mul_one] at spent
    exact Nat.le_trans (Nat.le_of_add_right_le spent) most
  · have kept := course.handled_add_worth_le fit (.single network.largestTtl)
    rw [Budget.network_single, Budget.network_single, one, settled] at kept
    exact Nat.le_trans (Nat.le_add_left _ _) kept

/-- A node without a route has just been told of a signal that cannot go on. -/
def strayed : Network :=
  let manager := Manager.new (.full (.fresh (.direct "1.1.1.1" defaultPort) .full 0) "r1") .empty
  let signal : Signal := {
    senderId := "aaaa"
    recipientId := "bbbb"
    nonce := 99
    ttl := 2
    flags := .none
    payload := none
  }
  let member : Member :=
    { Member.new manager ⟨"genesis", 0, 0⟩ .none with
      loop := .running
      events := [.signal 1 signal] }
  ((Network.empty 0).join "a" member).openLink (.opened 1 .inbound .direct none none)

/-- The book is changed, the signal is handled, and an answer waits on the link. -/
theorem signals_do_not_flood_strayed :
    ∃ last, Course strayed last 1 ∧ 1 ≤ 2 * strayed.largestTtl + 2 ∧
      last.signals.map Signal.recipientId = ["aaaa"] ∧
      last.signals.length + last.routed.length ≤ 1 := by
  have inOrder : strayed.InOrder := by
    constructor
    · exact Links.InOrder.insert (fun id link found => by cases found) rfl
    · intro id pump running
      cases running
  have changed : Course strayed (strayed.changeBook "a" fun book => book.add
      (.fresh (.direct "2.2.2.2" defaultPort) .full 0) |>.2) 0 :=
    .changed .start (.changeBook strayed "a" _)
  have course := (changed.done (.plain 0) (.manager "a")).done (.plain 1) (.manager "a")
  obtain ⟨few, single, _⟩ := signals_do_not_flood inOrder rfl rfl course
  exact ⟨_, course, few, by decide, single⟩

end Network

end PeerOverlay
