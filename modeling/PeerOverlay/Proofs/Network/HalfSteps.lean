import PeerOverlay.Proofs.Network.Halves

/-!
# What a task does to the halves of a network

A manager takes an event, does a part of a reaction or checks the number of its
peers.  An agent takes a step, and a pump moves a message.
-/

namespace PeerOverlay

open Manager (Arrival Effect Part)

/-! ## Taking an event -/

namespace Manager

theorem slots_take (event : Event) (turn : Turn) :
    (take event turn).2.manager.slots = turn.manager.slots := by
  cases event <;> rfl

theorem stopped_take (event : Event) (turn : Turn) :
    (take event turn).2.manager.stopped = turn.manager.stopped := by
  cases event <;> rfl

/-- Whether parts of a reaction are what an event leaves to be done to its link. -/
structure Leaves (event : Event) (parts : List Part) : Prop where
  link : parts.filterMap Part.connection? = event.connection?.toList
  peer : parts.filterMap Part.handshake? = event.handshake?.toList
  ended : parts.filterMap Part.closed? = event.closed?.toList
  concerns : ∀ id, event.Concerns id → ∀ part ∈ parts, part.Concerns id

theorem leaves_take (event : Event) (turn : Turn) : Leaves event (take event turn).1 := by
  cases event with
  | addresses link addresses =>
      unfold take
      dsimp only
      split
      · refine ⟨rfl, rfl, rfl, ?_⟩
        simp [Part.Concerns]
      · refine ⟨rfl, rfl, rfl, ?_⟩
        simp [Part.Concerns]
  | signal link signal =>
      show Leaves (.signal link signal) (signalParts turn.manager.config link signal)
      unfold signalParts
      split
      · exact ⟨rfl, rfl, rfl, fun _ never => never.elim⟩
      · split
        · exact ⟨rfl, rfl, rfl, fun _ never => never.elim⟩
        · exact ⟨rfl, rfl, rfl, fun _ never => never.elim⟩
  | closed link byRemote =>
      unfold take
      dsimp only
      split
      · refine ⟨rfl, rfl, rfl, ?_⟩
        simp [Part.Concerns, Event.Concerns]
      · refine ⟨rfl, rfl, rfl, ?_⟩
        simp [Part.Concerns, Event.Concerns]
  | _ =>
      refine ⟨rfl, rfl, rfl, ?_⟩
      simp [take, Part.Concerns, Event.Concerns]

end Manager

namespace Network

namespace Half

/-! ## Steps of a half -/

/-- What a part of a reaction does to a half. -/
inductive Led (half : Half) : Part → Half → Prop where
  | refused (id : LinkId) (reason : String) :
      Led half (.connection id) { half with link := (half.link.close reason).abandon }
  | takenIn (id : LinkId) :
      Led half (.connection id) { half with seated := true, progress := some .new }
  | missed (peer : Peer) (unseated : half.seated = false) : Led half (.handshake peer) half
  | turnedAway (peer : Peer) (reason : String) :
      Led half (.handshake peer) { half with link := half.link.close reason }
  | joined (peer : Peer) (slot : Manager.Slot) :
      Led half (.handshake peer)
        { half with seated := true, joined := half.joined ++ [slot.locate peer] }
  | ended (id : LinkId) (seated : Bool) : Led half (.closed id) { half with seated := seated }
  | banned (id : LinkId) (reason : String) :
      Led half (.ban id reason) { half with link := half.link.close reason }
  | idle {part : Part} (link : part.connection? = none) (peer : part.handshake? = none)
      (lasts : part.closed? = none) : Led half part half

/-- What one step of its event loop does to a half. -/
inductive Manages (half : Half) : Half → Prop where
  | checked (free : half.parts = []) : Manages half { half with parts := [.checkPeerCount] }
  | took (event : Event) (others : List Event) (parts : List Part) (free : half.parts = [])
      (first : half.events = event :: others) (leaves : Manager.Leaves event parts)
      (checks : Nat) : Manages half ({ half with events := others, parts := parts }.check checks)
  | did (part : Part) (others : List Part) (first : half.parts = part :: others) (after : Half)
      (led : Led { half with parts := others } part after) (checks : Nat) :
      Manages half (after.check checks)

/-- A half after a turn of its agent. -/
def act (half : Half) (turn : Agent.Turn) : Half :=
  { half with
    events := half.events ++ turn.events
    progress := some turn.agent.progress
    link := turn.link }

/-- What a step of the pump from one half to the other does to both. -/
inductive Pumps (own other : Half) : Half → Half → Prop where
  | took (message : Message) (others : List Message) (free : own.pump = some none)
      (waiting : own.link.outbound = message :: others) (bytes : UInt64) :
      Pumps own other
        { own with
          pump := some (some message)
          link := { own.link.countSent bytes with outbound := others } }
        { other with link := other.link.countReceived bytes }
  | delivered (message : Message) (holds : own.pump = some (some message)) :
      Pumps own other { own with pump := some none }
        { other with link := { other.link with inbound := other.link.inbound ++ [message] } }
  | finished (over_ : own.link.closed = true ∨ other.link.closed = true ∨
        other.link.attended = false) :
      Pumps own other
        { own with pump := none, link := { own.link with takes := false, outbound := [] } }
        { other with link := { other.link with delivers := false } }

/-- What a step of its agent does to a half, with the chain that was announced then, if
one was. -/
inductive Acts (side : Side) (half : Half) : List Chain → Half → Prop where
  | step (around : Agent.Surroundings) (agent : Agent) (task : Agent.Task)
      (reached : half.progress = some agent.progress)
      (next : agent.nextTask? half.link = some task)
      (address : around.config.peerAddress = side.address) :
      Acts side half
        (((Agent.perform around task ⟨agent, half.link, []⟩).versionsAfter half.link).map
          fun _ => around.chain)
        (half.act (Agent.perform around task ⟨agent, half.link, []⟩))

/-- What a step on one side does to both halves, with the chain that was announced. -/
inductive Steps (side : Side) (own other : Half) : List Chain → Half → Half → Prop where
  | stays : Steps side own other [] own other
  | checked (checks : Nat) : Steps side own other [] (own.check checks) other
  | managed (after : Half) (manages : own.Manages after) : Steps side own other [] after other
  | acted (chains : List Chain) (after : Half) (acts : own.Acts side chains after) :
      Steps side own other chains after other
  | pumped (source target : Half) (pumps : own.Pumps other source target) :
      Steps side own other [] source target

end Half

/-- The turn that an agent takes next, with its node and its link. -/
def turnOf? (network : Network) (choices : Choices) (id : LinkId) :
    Option (Member × Link × Agent.Turn) := do
  let attendance ← network.agents.get? id
  let link ← network.links.get? id
  let member ← network.members.get? attendance.owner
  ({ attendance.agent with
      timers := { attendance.agent.timers with next := network.serial } }.step
    (network.agentSurroundings member choices) link).map fun turn => (member, link, turn)

/-- A node has announced itself on a link, with the chain that it had at that time. -/
structure Announcement where
  link : LinkId
  chain : Chain

/-- What is announced in a task. -/
def announcements (network : Network) (choices : Choices) : Task → List Announcement
  | .agent id =>
      match network.turnOf? choices id with
      | none => []
      | some (member, link, turn) => (turn.versionsAfter link).map fun _ => ⟨id, member.chain⟩
  | _ => []

theorem announcements_of_none {network : Network} {choices : Choices} {id : LinkId}
    (idle : network.turnOf? choices id = none) :
    network.announcements choices (.agent id) = [] := by
  unfold announcements
  dsimp only
  rw [idle]

theorem announcements_of_turn {network : Network} {choices : Choices} {id : LinkId}
    {member : Member} {link : Link} {turn : Agent.Turn}
    (turned : network.turnOf? choices id = some (member, link, turn)) :
    network.announcements choices (.agent id) =
      ((turn.versionsAfter link).map fun _ => member.chain).map (.mk id) := by
  unfold announcements
  dsimp only
  rw [turned, List.map_map]
  rfl

/-- What a task does to two halves, with what is announced then: it is a step on one of
both sides. -/
inductive Ends.Steps (ends : Ends) (own other : Half) :
    List Announcement → Half → Half → Prop where
  | own {chains : List Chain} {source target : Half}
      (steps : own.Steps ends.own other chains source target) :
      Steps ends own other (chains.map (.mk ends.own.link)) source target
  | other {chains : List Chain} {source target : Half}
      (steps : other.Steps ends.other own chains source target) :
      Steps ends own other (chains.map (.mk ends.other.link)) target source

theorem Ends.Steps.swap {ends : Ends} {own other source target : Half}
    {announced : List Announcement} (steps : ends.Steps own other announced source target) :
    ends.swap.Steps other own announced target source := by
  cases steps with
  | own steps => exact .other steps
  | other steps => exact .own steps

namespace Paired

variable {ends : Ends} {network : Network} {own other : Half}

/-! ## Managers -/

theorem conclude (paired : Paired ends network own other) {turn : Manager.Turn} (link : Link)
    (id : link.id = ends.own.link)
    (links : ∀ id, turn.links.get? id =
      if ends.own.link = id then some link else network.links.get? id)
    (address : turn.manager.config.peerAddress = ends.own.address)
    (stopped : turn.manager.stopped = false)
    (arrives : ∀ arrival ∈ turn.arrivals, arrival.link = ends.own.link) :
    ∃ checks, Paired ends (network.conclude ends.own.node turn)
      ((turn.arrivals.foldl Half.arrive
        { own with
          link := link
          seated := (turn.manager.slots.get? ends.own.link).isSome }).check checks) other := by
  have linked : Paired ends { network with links := turn.links } { own with link := link } other :=
    paired.changeLink turn.links network.agents id links paired.own.agent fun _ _ => rfl
  have managed := linked.changeMember (fun member => { member with manager := turn.manager })
    own.events own.parts (turn.manager.slots.get? ends.own.link).isSome
    fun member served => ⟨served.events, served.parts, rfl, address, stopped, served.loop⟩
  exact managed.foldl_carryOut arrives

theorem get?_links (paired : Paired ends network own other) (id : LinkId) :
    network.links.get? id =
      if ends.own.link = id then some own.link else network.links.get? id := by
  split
  · next here =>
      rw [← here]
      exact paired.own.link
  · rfl

theorem get?_links_of_map (paired : Paired ends network own other) {links : Links}
    (change : Link → Link)
    (same : ∀ id, links.get? id = (network.links.get? id).map fun link =>
      if id = ends.own.link then change link else link) (id : LinkId) :
    links.get? id =
      if ends.own.link = id then some (change own.link) else network.links.get? id := by
  rw [same]
  by_cases here : id = ends.own.link
  · rw [here, paired.own.link, if_pos rfl]
    exact congrArg some (if_pos rfl)
  · rw [if_neg (Ne.symm here)]
    cases network.links.get? id with
    | none => rfl
    | some link => exact congrArg some (if_neg here)

theorem get?_links_of_close (paired : Paired ends network own other) {links : Links}
    {reason : String} (closed : links = network.links.close ends.own.link reason) (id : LinkId) :
    links.get? id =
      if ends.own.link = id then some (own.link.close reason) else network.links.get? id := by
  refine paired.get?_links_of_map (fun link => link.close reason) (fun tested => ?_) id
  rw [closed, Links.get?_close]

theorem get?_links_of_refuse (paired : Paired ends network own other) {links : Links}
    {reason : String}
    (refused : links = (network.links.close ends.own.link reason).modify ends.own.link
      Link.abandon) (id : LinkId) :
    links.get? id =
      if ends.own.link = id then some (own.link.close reason).abandon
      else network.links.get? id := by
  refine paired.get?_links_of_map (fun link => (link.close reason).abandon) (fun tested => ?_) id
  rw [refused, Table.get?_modify, Links.get?_close, Option.map_map]
  congr 1
  funext link
  by_cases here : tested = ends.own.link <;> simp [here]

/-- A turn in which neither the link is taken in nor its peer joins. -/
theorem conclude_of_none (paired : Paired ends network own other) {turn : Manager.Turn}
    (link : Link) (id : link.id = ends.own.link)
    (links : ∀ id, turn.links.get? id =
      if ends.own.link = id then some link else network.links.get? id)
    (address : turn.manager.config.peerAddress = ends.own.address)
    (stopped : turn.manager.stopped = false) (none : turn.arrivals = []) (seated : Bool)
    (slots : (turn.manager.slots.get? ends.own.link).isSome = seated) :
    ∃ checks, Paired ends (network.conclude ends.own.node turn)
      (Half.check { own with link := link, seated := seated } checks) other := by
  have arrives : ∀ arrival ∈ turn.arrivals, arrival.link = ends.own.link := by
    rw [none]
    exact fun arrival member => absurd member List.not_mem_nil
  obtain ⟨checks, done⟩ := paired.conclude link id links address stopped arrives
  rw [none, slots] at done
  exact ⟨checks, done⟩

/-- A turn in which the link is taken in or its peer joins. -/
theorem conclude_of_arrival (paired : Paired ends network own other) {turn : Manager.Turn}
    {arrival : Arrival} (links : turn.links = network.links)
    (address : turn.manager.config.peerAddress = ends.own.address)
    (stopped : turn.manager.stopped = false) (one : turn.arrivals = [arrival])
    (here : arrival.link = ends.own.link)
    (seated : (turn.manager.slots.get? ends.own.link).isSome) :
    ∃ checks, Paired ends (network.conclude ends.own.node turn)
      ((Half.arrive { own with seated := true } arrival).check checks) other := by
  have arrives : ∀ other ∈ turn.arrivals, other.link = ends.own.link := by
    rw [one]
    intro other member
    rw [List.mem_singleton.1 member]
    exact here
  obtain ⟨checks, done⟩ := paired.conclude own.link paired.own.id (links ▸ paired.get?_links)
    address stopped arrives
  rw [one, seated] at done
  exact ⟨checks, done⟩

/-- The manager has done a part of a reaction that is about the link. -/
theorem conclude_part (paired : Paired ends network own other) {turn : Manager.Turn} {part : Part}
    {manager : Manager} (seated : (manager.slots.get? ends.own.link).isSome = own.seated)
    (led : Manager.Led ends.own.link (.start manager network.links) turn part)
    (address : turn.manager.config.peerAddress = ends.own.address)
    (stopped : turn.manager.stopped = false) :
    ∃ after checks, own.Led part after ∧
      Paired ends (network.conclude ends.own.node turn) (after.check checks) other := by
  have kept (links : turn.links = network.links) :
      ∀ id, turn.links.get? id =
        if ends.own.link = id then some own.link else network.links.get? id := by
    rw [links]
    exact paired.get?_links
  have still (slots : turn.manager.slots = manager.slots) :
      (turn.manager.slots.get? ends.own.link).isSome = own.seated := by
    rw [slots]
    exact seated
  cases led with
  | refused reason links slots arrivals =>
      obtain ⟨checks, done⟩ := paired.conclude_of_none (own.link.close reason).abandon
        paired.own.id (paired.get?_links_of_refuse links) address stopped arrivals _ (still slots)
      exact ⟨_, checks, .refused _ reason, done⟩
  | takenIn links seated arrivals =>
      obtain ⟨checks, done⟩ := paired.conclude_of_arrival links address stopped arrivals rfl seated
      exact ⟨_, checks, .takenIn _, done⟩
  | missed peer link unseated same =>
      have missed : own.seated = false := by
        rw [← seated]
        exact congrArg Option.isSome unseated
      subst same
      obtain ⟨checks, done⟩ := paired.conclude_of_none own.link paired.own.id (kept rfl) address
        stopped rfl _ (still rfl)
      exact ⟨_, checks, .missed peer missed, done⟩
  | turnedAway peer link reason links slots arrivals =>
      obtain ⟨checks, done⟩ := paired.conclude_of_none (own.link.close reason) paired.own.id
        (paired.get?_links_of_close links) address stopped arrivals _ (still slots)
      exact ⟨_, checks, .turnedAway peer reason, done⟩
  | joined peer link slot links seated arrivals =>
      obtain ⟨checks, done⟩ := paired.conclude_of_arrival links address stopped arrivals link seated
      exact ⟨_, checks, .joined peer slot, done⟩
  | ended links arrivals =>
      obtain ⟨checks, done⟩ := paired.conclude_of_none own.link paired.own.id (kept links) address
        stopped arrivals _ rfl
      exact ⟨_, checks, .ended _ _, done⟩
  | banned reason links slots arrivals =>
      obtain ⟨checks, done⟩ := paired.conclude_of_none (own.link.close reason) paired.own.id
        (paired.get?_links_of_close links) address stopped arrivals _ (still slots)
      exact ⟨_, checks, .banned _ reason, done⟩
  | idle link peer lasts links slots arrivals =>
      obtain ⟨checks, done⟩ := paired.conclude_of_none own.link paired.own.id (kept links) address
        stopped arrivals _ (still slots)
      exact ⟨_, checks, .idle link peer lasts, done⟩

/-- A step of the event loop of a node is one of its half. -/
theorem actManager (paired : Paired ends network own other) {member : Member}
    (known : network.members.get? ends.own.node = some member) (choices : Choices)
    (concerns : ∀ part ∈ own.parts, part.Concerns ends.own.link) :
    ∃ after, own.Manages after ∧
      Paired ends (network.actManager choices ends.own.node member) after other := by
  obtain ⟨served, found, serves⟩ := paired.own.member
  have same : served = member := Option.some.inj (found.symm.trans known)
  rw [same] at serves
  unfold Network.actManager
  cases parts : member.parts with
  | cons part others =>
      have left : own.parts = part :: others := serves.parts.symm.trans parts
      have shorter := paired.changeMember (fun member => { member with parts := others })
        own.events others own.seated fun member served =>
          ⟨served.events, rfl, served.seated, served.address, served.stopped, served.loop⟩
      have here : (network.links.get? ends.own.link).isSome := by
        rw [paired.own.link]
        rfl
      have led : Manager.Led ends.own.link (.start member.manager network.links)
          (part.perform (network.managerSurroundings member choices)
            (.start member.manager network.links)) part :=
        Manager.led_perform (concerns part (left ▸ List.mem_cons_self)) _ here
      obtain ⟨after, checks, done, concluded⟩ := shorter.conclude_part serves.seated led
        (by rw [Manager.config_perform]; exact serves.address)
        (by rw [Manager.stopped_perform]; exact serves.stopped)
      exact ⟨_, .did part others left after done checks, concluded⟩
  | nil =>
      have free : own.parts = [] := serves.parts.symm.trans parts
      cases events : member.events with
      | nil =>
          dsimp only
          rw [serves.stopped, if_neg Bool.false_ne_true]
          refine ⟨_, .checked free, ?_⟩
          exact paired.changeMember (fun member =>
              { member with checkDue := false, parts := [.checkPeerCount] })
            own.events [.checkPeerCount] own.seated fun member served =>
              ⟨served.events, rfl, served.seated, served.address, served.stopped, served.loop⟩
      | cons event others =>
          have first : own.events = event :: others := serves.events.symm.trans events
          dsimp only
          rw [serves.stopped, if_neg Bool.false_ne_true]
          have shorter := paired.changeMember (fun old => { old with
              events := others
              parts := (Manager.take event (.start member.manager network.links)).1 })
            others (Manager.take event (.start member.manager network.links)).1 own.seated
            fun member served =>
              ⟨rfl, rfl, served.seated, served.address, served.stopped, served.loop⟩
          have links := Manager.links_take event (.start member.manager network.links)
          have slots := Manager.slots_take event (.start member.manager network.links)
          obtain ⟨checks, done⟩ := shorter.conclude_of_none own.link shorter.own.id
            (by rw [links]; exact shorter.get?_links)
            (by rw [Manager.config_take]; exact serves.address)
            (by rw [Manager.stopped_take]; exact serves.stopped)
            (Manager.arrivals_take event _) own.seated (by rw [slots]; exact serves.seated)
          exact ⟨_, .took event others _ free first (Manager.leaves_take event _) checks, done⟩

end Paired

end Network

end PeerOverlay
