import PeerOverlay.Proofs.Network.HalfSteps
import PeerOverlay.Proofs.Network.PumpMoves

/-!
# Tasks of a network of two halves

The event loops, the agents and the pumps do their tasks one by one, and timers ring
in between.  Each of these is a step on one of both sides.
-/

namespace PeerOverlay

namespace Network

namespace Paired

variable {ends : Ends} {network : Network} {own other : Half}

/-! ## Agents -/

/-- The step that an agent takes next, where its node and its link are known. -/
theorem turnOf?_eq {id : LinkId} {attendance : Attendance} {link : Link} {member : Member}
    (attends : network.agents.get? id = some attendance)
    (known : network.links.get? id = some link)
    (owner : network.members.get? attendance.owner = some member) (choices : Choices) :
    network.turnOf? choices id =
      ({ attendance.agent with
          timers := { attendance.agent.timers with next := network.serial } }.step
        (network.agentSurroundings member choices) link).map fun turn => (member, link, turn) := by
  unfold turnOf?
  rw [attends, known, Option.bind_eq_bind, Option.bind_some, Option.bind_eq_bind,
    Option.bind_some, owner, Option.bind_eq_bind, Option.bind_some]

theorem perform_agent_eq {id : LinkId} {attendance : Attendance} {link : Link}
    (attends : network.agents.get? id = some attendance)
    (known : network.links.get? id = some link) (choices : Choices) :
    network.perform choices (.agent id) = network.actAgent choices attendance link := by
  unfold Network.perform
  dsimp only
  rw [attends, known]

/-- An agent has taken a turn: its link and what it tells are kept. -/
theorem turned (paired : Paired ends network own other) {turn : Agent.Turn}
    (id : turn.link.id = own.link.id) :
    Paired ends
      (turn.events.foldl (fun network event => network.notify ends.own.node event)
        { network with
          serial := turn.agent.timers.next
          links := network.links.insert own.link.id turn.link
          agents := network.agents.insert own.link.id ⟨turn.agent, ends.own.node⟩ })
      (own.act turn) other := by
  have timed : Paired ends { network with serial := turn.agent.timers.next } own other :=
    paired.of_same rfl rfl rfl rfl rfl
  have agent : ((network.agents.insert own.link.id ⟨turn.agent, ends.own.node⟩).get?
      ends.own.link).map (fun known => (known.agent.progress, known.owner)) =
        (some turn.agent.progress).map fun progress => (progress, ends.own.node) := by
    rw [paired.own.id, Table.get?_insert, if_pos rfl]
    rfl
  have changed := timed.changeLink (network.links.insert own.link.id turn.link)
    (network.agents.insert own.link.id ⟨turn.agent, ends.own.node⟩) (id.trans paired.own.id)
    (fun tested => by rw [paired.own.id, Table.get?_insert]) agent
    (fun tested elsewhere => by rw [paired.own.id, Table.get?_insert, if_neg elsewhere])
  exact changed.foldl_notify turn.events

/-- A step of an agent is a turn of its half. -/
theorem performAgent (paired : Paired ends network own other) (choices : Choices) :
    (network.turnOf? choices ends.own.link = none ∧
        Paired ends (network.perform choices (.agent ends.own.link)) own other) ∨
      ∃ member agent task,
        network.turnOf? choices ends.own.link = some (member, own.link,
          Agent.perform (network.agentSurroundings member choices) task ⟨agent, own.link, []⟩) ∧
        own.progress = some agent.progress ∧ agent.nextTask? own.link = some task ∧
        member.manager.config.peerAddress = ends.own.address ∧
        Paired ends (network.perform choices (.agent ends.own.link))
          (own.act (Agent.perform (network.agentSurroundings member choices) task
            ⟨agent, own.link, []⟩)) other := by
  have agents := paired.own.agent
  cases attends : network.agents.get? ends.own.link with
  | none =>
      left
      constructor
      · unfold turnOf?
        rw [attends]
        rfl
      · unfold Network.perform
        dsimp only
        rw [attends]
        exact paired
  | some attendance =>
      rw [attends] at agents
      obtain ⟨progress, known, same⟩ := Option.map_eq_some_iff.1 agents.symm
      obtain ⟨reached, owner⟩ := Prod.mk.inj same
      obtain ⟨member, found, serves⟩ := paired.own.member
      rw [owner] at found
      rw [perform_agent_eq attends paired.own.link, turnOf?_eq attends paired.own.link found]
      unfold Network.actAgent
      rw [found]
      dsimp only
      cases stepped : { attendance.agent with timers :=
          { attendance.agent.timers with next := network.serial } }.step
            (network.agentSurroundings member choices) own.link with
      | none => exact .inl ⟨rfl, paired⟩
      | some turn =>
          obtain ⟨task, next, same⟩ := Option.map_eq_some_iff.1 stepped
          have id : turn.link.id = own.link.id := by
            rw [← same]
            exact (Agent.exchanged_perform _ task _).id_eq
          have done := paired.turned id
          rw [owner] at done
          refine .inr ⟨member, _, task, ?_, ?_, next, serves.address, ?_⟩
          · rw [same]
            rfl
          · rw [known, reached]
            rfl
          · rw [same]
            exact done

/-- An agent that has come to its end does nothing. -/
theorem perform_of_isOver {id : LinkId} {attendance : Attendance}
    (attends : network.agents.get? id = some attendance)
    (isOver : attendance.agent.progress.IsOver) (choices : Choices) :
    network.turnOf? choices id = none ∧ network.perform choices (.agent id) = network := by
  have idle (timers : Timers Agent.Alarm Agent.Alarm) (around : Agent.Surroundings) (link : Link) :
      { attendance.agent with timers := timers }.step around link = none := by
    have started : attendance.agent.started = true := isOver.1
    have closed : attendance.agent.phase = .closed := isOver.2
    unfold Agent.step Agent.nextTask?
    dsimp only
    rw [started, if_neg (by decide), if_pos closed]
    rfl
  unfold turnOf? Network.perform
  dsimp only
  rw [attends]
  cases known : network.links.get? id with
  | none => exact ⟨rfl, rfl⟩
  | some link =>
      unfold Network.actAgent
      dsimp only [Option.bind_eq_bind, Option.bind_some]
      cases owner : network.members.get? attendance.owner with
      | none => exact ⟨rfl, rfl⟩
      | some member =>
          dsimp only [Option.bind_some]
          rw [idle]
          exact ⟨rfl, rfl⟩

/-! ## Pumps -/

/-- Both links and the pump from the one to the other have changed, and nothing else. -/
theorem changePump (paired : Paired ends network own other) {source target : Link}
    (pump : Option (Option Message)) (pumps : Table LinkId Pump)
    (source_id : source.id = own.link.id)
    (target_id : target.id = other.link.id)
    (pumps_eq : ∀ id, pumps.get? id =
      if ends.own.link = id then pump.map fun held => ⟨ends.other.link, held⟩
      else network.pumps.get? id) :
    Paired ends
      { network with
        links := (network.links.insert ends.own.link source).insert ends.other.link target
        pumps := pumps }
      { own with link := source, pump := pump } { other with link := target } := by
  refine ⟨⟨paired.own.member, paired.own.agent, ?_, source_id.trans paired.own.id, ?_,
      paired.own.joined⟩,
    ⟨paired.other.member, paired.other.agent, ?_, target_id.trans paired.other.id, ?_,
      paired.other.joined⟩, paired.members, paired.agents, ?_⟩
  · show ((network.links.insert _ _).insert _ _).get? _ = _
    rw [Table.get?_insert, if_neg ends.links_ne.symm, Table.get?_insert, if_pos rfl]
  · exact (pumps_eq _).trans (if_pos rfl)
  · show ((network.links.insert _ _).insert _ _).get? _ = _
    rw [Table.get?_insert, if_pos rfl]
  · exact ((pumps_eq _).trans (if_neg ends.links_ne)).trans paired.other.pump
  · intro id pump known
    by_cases here : ends.own.link = id
    · exact .inl here.symm
    · exact paired.pumps id pump (((pumps_eq id).trans (if_neg here)).symm.trans known)

/-- What a pump may do is a step of both halves, if it does not stop without a reason. -/
theorem pumps_perform {held : Option Message} {target : LinkId} {move : Pump.Move}
    (runs : own.pump = some held) (may : Pump.May ⟨target, held⟩ own.link other.link move)
    (due : move = .finish → Severed own.link other.link) :
    let turn := Pump.perform ⟨target, held⟩ own.link other.link move
    own.Pumps other { own with link := turn.source, pump := turn.pump.map Pump.held }
      { other with link := turn.target } := by
  cases may with
  | take message others free waits =>
      dsimp only at free
      rw [free] at runs
      exact .took message others runs waits _
  | deliver message holds reads room =>
      dsimp only at holds
      rw [holds] at runs
      exact .delivered message runs
  | finish => exact .finished (due rfl)

/-- A move of a pump is a step of both halves. -/
theorem afterMove (paired : Paired ends network own other) {held : Option Message}
    (runs : own.pump = some held) {move : Pump.Move}
    (may : Pump.May ⟨ends.other.link, held⟩ own.link other.link move)
    (due : move = .finish → Severed own.link other.link) :
    ∃ source target, own.Pumps other source target ∧
      Paired ends
        (network.afterMove ends.own.link ⟨ends.other.link, held⟩ own.link other.link move)
        source target := by
  refine ⟨_, _, pumps_perform runs may due, ?_⟩
  cases move with
  | take message others =>
      exact paired.changePump _ _ rfl rfl fun _ => Table.get?_insert ..
  | deliver message =>
      exact paired.changePump _ _ rfl rfl fun _ => Table.get?_insert ..
  | finish => exact paired.changePump _ _ rfl rfl fun _ => Table.get?_erase ..

/-- A step of a pump is one of both halves. -/
theorem performPump (paired : Paired ends network own other) (choices : Choices) :
    Paired ends (network.perform choices (.pump ends.own.link)) own other ∨
      ∃ source target, own.Pumps other source target ∧
        Paired ends (network.perform choices (.pump ends.own.link)) source target := by
  have runs := paired.own.pump
  cases pump : own.pump with
  | none =>
      rw [pump] at runs
      left
      unfold Network.perform
      dsimp only
      rw [runs]
      exact paired
  | some held =>
      rw [pump] at runs
      have performed : network.perform choices (.pump ends.own.link) =
          network.actPump ends.own.link ⟨ends.other.link, held⟩ own.link other.link := by
        unfold Network.perform
        dsimp only
        rw [runs, paired.own.link]
        dsimp only [Option.map_some]
        rw [paired.other.link]
      rw [performed, actPump_eq]
      cases next : Pump.next? ⟨ends.other.link, held⟩ own.link other.link with
      | none => exact .inl paired
      | some move =>
          obtain ⟨may, due⟩ := Pump.may_of_next? next
          exact .inr (paired.afterMove pump may due)

/-! ## Timers -/

/-- The agent of a link learns that a timer has rung. -/
theorem ring (paired : Paired ends network own other) (id : LinkId) (number : Nat) :
    Paired ends (network.ring id number) own other := by
  unfold Network.ring
  cases attends : network.agents.get? id with
  | none => exact paired
  | some attendance =>
      dsimp only
      have timed : Paired ends
          { network with
            serial := ((({ attendance.agent.timers with next := network.serial }).ring number
              network.now).2).next } own other :=
        paired.of_same rfl rfl rfl rfl rfl
      refine timed.changeAgents _ fun tested => ?_
      rw [Table.get?_insert]
      split
      · next here =>
          rw [← here]
          exact (congrArg (Option.map fun known => (known.agent.progress, known.owner))
            attends).symm
      · rfl

/-- At most one node changes, and at most some checks wait there in addition. -/
theorem changeAnyMember (paired : Paired ends network own other) (node : NodeName)
    (change : Member → Member) (checks : Nat)
    (serves : ∀ (side : Side) (half : Half) (member : Member),
      side.Serves half.events half.parts half.seated member →
        side.Serves (half.check checks).events half.parts half.seated (change member)) :
    Paired ends (network.changeMember node change) (own.check checks) other ∨
      Paired ends (network.changeMember node change) own (other.check checks) ∨
      Paired ends (network.changeMember node change) own other := by
  by_cases here : node = ends.own.node
  · rw [here]
    exact .inl (paired.changeMember change _ own.parts own.seated (serves ends.own own))
  · by_cases there : node = ends.other.node
    · rw [there]
      exact .inr (.inl
        (paired.swap.changeMember change _ other.parts other.seated (serves ends.other other)).swap)
    · right
      right
      have same (tested : NodeName) :
          (network.changeMember node change).members.get? tested = network.members.get? tested := by
        show (network.members.modify node change).get? tested = _
        rw [Table.get?_modify]
        cases known : network.members.get? tested with
        | none => rfl
        | some member =>
            have elsewhere : tested ≠ node := by
              rintro rfl
              exact (paired.members tested member known).elim here there
            exact congrArg some (if_neg elsewhere)
      refine ⟨⟨?_, paired.own.agent, paired.own.link, paired.own.id, paired.own.pump,
          paired.own.joined⟩,
        ⟨?_, paired.other.agent, paired.other.link, paired.other.id, paired.other.pump,
          paired.other.joined⟩, ?_, paired.agents, paired.pumps⟩
      · rw [same]
        exact paired.own.member
      · rw [same]
        exact paired.other.member
      · intro tested member known
        rw [same] at known
        exact paired.members tested member known

/-- When a timer of a node rings, the number of peers is checked at most. -/
theorem chime (paired : Paired ends network own other) (number : Nat) :
    ∃ checks, Paired ends (network.chime number) (own.check checks) other ∨
      Paired ends (network.chime number) own (other.check checks) ∨
      Paired ends (network.chime number) own other := by
  have timed (clock : Timers Chime Chime) (serial : Nat) :
      Paired ends { network with clock := clock, serial := serial } own other :=
    paired.of_same rfl rfl rfl rfl rfl
  unfold Network.chime
  dsimp only
  split
  · exact ⟨0, .inr (.inr (timed _ _))⟩
  · exact ⟨1, (timed _ _).changeAnyMember _ _ 1 fun side half member served =>
      served.notify .checkPeerCount⟩
  · refine ⟨0, (timed _ _).changeAnyMember _ _ 0 ?_⟩
    intro side half member served
    refine ⟨?_, served.parts, served.seated, served.address, served.stopped, served.loop⟩
    exact served.events.trans (List.append_nil _).symm

/-! ## Tasks -/

theorem act_manager (paired : Paired ends network own other) (choices : Choices)
    (concerns : ∀ part ∈ own.parts, part.Concerns ends.own.link) :
    ∃ source target, ends.Steps own other [] source target ∧
      Paired ends (network.perform choices (.manager ends.own.node)) source target := by
  obtain ⟨member, known, _⟩ := paired.own.member
  obtain ⟨after, manages, done⟩ := paired.actManager known choices concerns
  refine ⟨after, other, .own (.managed after manages), ?_⟩
  unfold Network.perform
  dsimp only
  rw [known]
  exact done

theorem act_agent (paired : Paired ends network own other) (choices : Choices) :
    ∃ source target,
      ends.Steps own other (network.announcements choices (.agent ends.own.link)) source target ∧
      Paired ends (network.perform choices (.agent ends.own.link)) source target := by
  obtain ⟨idle, same⟩ | ⟨member, agent, task, turned, reached, next, address, done⟩ :=
    paired.performAgent choices
  · rw [announcements_of_none idle]
    exact ⟨own, other, .own .stays, same⟩
  · rw [announcements_of_turn turned]
    have acts := Half.Acts.step (network.agentSurroundings member choices) agent task reached next
      address
    exact ⟨_, other, .own (.acted _ _ acts), done⟩

theorem act_pump (paired : Paired ends network own other) (choices : Choices) :
    ∃ source target, ends.Steps own other [] source target ∧
      Paired ends (network.perform choices (.pump ends.own.link)) source target := by
  obtain same | ⟨source, target, pumps, done⟩ := paired.performPump choices
  · exact ⟨own, other, .own .stays, same⟩
  · exact ⟨source, target, .own (.pumped source target pumps), done⟩

theorem move_pump (paired : Paired ends network own other) {pump : Pump} {source target : Link}
    {move : Pump.Move} (runs : network.pumps.get? ends.own.link = some pump)
    (starts : network.links.get? ends.own.link = some source)
    (leads : network.links.get? pump.target = some target)
    (may : pump.May source target move) (due : move = .finish → Severed source target) :
    ∃ first second, ends.Steps own other [] first second ∧
      Paired ends (network.afterMove ends.own.link pump source target move) first second := by
  rw [paired.own.pump] at runs
  obtain ⟨held, known, rfl⟩ := Option.map_eq_some_iff.1 runs
  rw [paired.own.link] at starts
  cases starts
  rw [paired.other.link] at leads
  cases leads
  obtain ⟨first, second, pumps, done⟩ := paired.afterMove known may due
  exact ⟨first, second, .own (.pumped first second pumps), done⟩

/-- Whatever a pump may do is a step on one of both sides, if it does not stop without a
reason. -/
theorem pumped (paired : Paired ends network own other) {id : LinkId} {pump : Pump}
    {source target : Link} {move : Pump.Move} (runs : network.pumps.get? id = some pump)
    (starts : network.links.get? id = some source)
    (leads : network.links.get? pump.target = some target)
    (may : pump.May source target move) (due : move = .finish → Severed source target) :
    ∃ first second, ends.Steps own other [] first second ∧
      Paired ends (network.afterMove id pump source target move) first second := by
  obtain rfl | rfl := paired.pumps id pump runs
  · exact paired.move_pump runs starts leads may due
  · obtain ⟨second, first, steps, done⟩ := paired.swap.move_pump runs starts leads may due
    exact ⟨first, second, steps.swap, done.swap⟩

theorem perform (paired : Paired ends network own other) (choices : Choices) (task : Task)
    (ownConcerns : ∀ part ∈ own.parts, part.Concerns ends.own.link)
    (otherConcerns : ∀ part ∈ other.parts, part.Concerns ends.other.link) :
    ∃ source target, ends.Steps own other (network.announcements choices task) source target ∧
      Paired ends (network.perform choices task) source target := by
  cases task with
  | ring link number => exact ⟨own, other, .own .stays, paired.ring link number⟩
  | chime number =>
      obtain ⟨checks, here | there | same⟩ := paired.chime number
      · exact ⟨_, _, .own (.checked checks), here⟩
      · exact ⟨_, _, .other (.checked checks), there⟩
      · exact ⟨_, _, .own .stays, same⟩
  | manager node =>
      cases known : network.members.get? node with
      | none =>
          refine ⟨own, other, .own .stays, ?_⟩
          unfold Network.perform
          dsimp only
          rw [known]
          exact paired
      | some member =>
          obtain rfl | rfl := paired.members node member known
          · exact paired.act_manager choices ownConcerns
          · obtain ⟨target, source, steps, done⟩ := paired.swap.act_manager choices otherConcerns
            exact ⟨source, target, steps.swap, done.swap⟩
  | agent id =>
      cases attends : network.agents.get? id with
      | none =>
          have idle : network.turnOf? choices id = none := by
            unfold turnOf?
            rw [attends]
            rfl
          rw [announcements_of_none idle]
          refine ⟨own, other, .own .stays, ?_⟩
          unfold Network.perform
          dsimp only
          rw [attends]
          exact paired
      | some attendance =>
          obtain rfl | rfl | isOver := paired.agents id attendance attends
          · exact paired.act_agent choices
          · obtain ⟨target, source, steps, done⟩ := paired.swap.act_agent choices
            exact ⟨source, target, steps.swap, done.swap⟩
          · obtain ⟨idle, same⟩ := perform_of_isOver attends isOver choices
            rw [announcements_of_none idle, same]
            exact ⟨own, other, .own .stays, paired⟩
  | pump id =>
      cases runs : network.pumps.get? id with
      | none =>
          refine ⟨own, other, .own .stays, ?_⟩
          unfold Network.perform
          dsimp only
          rw [runs]
          exact paired
      | some pump =>
          obtain rfl | rfl := paired.pumps id pump runs
          · exact paired.act_pump choices
          · obtain ⟨target, source, steps, done⟩ := paired.swap.act_pump choices
            exact ⟨source, target, steps.swap, done.swap⟩

/-- Every task is a step on one of both sides. -/
theorem act (paired : Paired ends network own other) (choices : Choices) (task : Task)
    (ownConcerns : ∀ part ∈ own.parts, part.Concerns ends.own.link)
    (otherConcerns : ∀ part ∈ other.parts, part.Concerns ends.other.link) :
    ∃ source target, ends.Steps own other (network.announcements choices task) source target ∧
      Paired ends (network.act choices task) source target := by
  obtain ⟨source, target, steps, done⟩ := paired.perform choices task ownConcerns otherConcerns
  exact ⟨source, target, steps, done.of_same rfl rfl rfl rfl rfl⟩

end Paired

end Network

end PeerOverlay
