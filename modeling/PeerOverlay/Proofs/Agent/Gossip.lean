import PeerOverlay.Proofs.Agent.Course

/-!
# What an agent and its peer tell each other

An agent keeps in mind which addresses its peer knows, and since when.  These are the addresses
that the peer announces in order, and those of every message that the agent composes for it.
-/

namespace PeerOverlay

def Message.addresses? : Message → Option (List PeerAddress)
  | .addresses told => some told
  | _ => none

namespace Agent

/-! ## Tasks -/

/-- The addresses that the peer announces in a task, if they come in order. -/
def Task.announced? (agent : Agent) : Task → Option (List PeerAddress)
  | .message (.version version) _ =>
      if agent.versionReceived then none else some [version.peerAddress]
  | .message (.addresses addresses) _ => if agent.versionReceived then some addresses else none
  | _ => none

/-- The addresses of the message that an agent composes in a task to pass them on or to answer
the peer, if it composes one. -/
def Task.gossip? (around : Surroundings) (agent : Agent) : Task → Option (List PeerAddress)
  | .relay addresses _ =>
      let told := addresses.filter (canRelay around agent)
      if agent.phase = .established ∧ told ≠ [] then some told else none
  | .message (.getAddresses protocols services) _ =>
      let found := around.book.query protocols services around.now around.lots
      if agent.versionReceived then
        some ((found.filter (canRelay around agent)).take around.config.maxAddrPerMessage)
      else
        none
  | _ => none

/-- Whether an agent may announce itself again in a task. -/
def Task.announcesAgain : Task → Bool
  | .alarm .announceAddress _ => true
  | _ => false

variable {around : Surroundings} {agent : Agent}

theorem canRelay_of_gossip? {task : Task} {told : List PeerAddress}
    (composed : task.gossip? around agent = some told) {address : PeerAddress}
    (member : address ∈ told) : canRelay around agent address = true := by
  cases task with
  | relay addresses others =>
      simp only [Task.gossip?, Option.ite_none_right_eq_some, Option.some.injEq] at composed
      rw [← composed.2] at member
      exact (List.mem_filter.1 member).2
  | message message others =>
      cases message with
      | getAddresses protocols services =>
          simp only [Task.gossip?, Option.ite_none_right_eq_some, Option.some.injEq] at composed
          rw [← composed.2] at member
          exact (List.mem_filter.1 (List.mem_of_mem_take member)).2
      | _ => cases composed
  | _ => cases composed

/-- Nothing is composed on a link that is closed. -/
theorem lasting_of_gossip? {link : Link} {task : Task} {told : List PeerAddress}
    (next : nextTask? agent link = some task) (composed : task.gossip? around agent = some told) :
    link.closed = false := by
  cases closed : link.closed with
  | false => rfl
  | true =>
      unfold nextTask? at next
      rw [closed] at next
      split at next
      · cases next
        cases composed
      · split at next
        · cases next
        · cases next
          cases composed

theorem plain_of_announced? {task : Task} {addresses : List PeerAddress}
    (announced : task.announced? agent = some addresses) : task.announcesAgain = false := by
  cases task with
  | alarm alarm others => cases announced
  | _ => rfl

theorem plain_of_gossip? {task : Task} {told : List PeerAddress}
    (composed : task.gossip? around agent = some told) : task.announcesAgain = false := by
  cases task with
  | alarm alarm others => cases composed
  | _ => rfl

/-! ## Turns -/

/-- Whether the peer knows some endpoints since a turn and all others as before, and which
messages with addresses were queued in that turn. -/
structure Shares (now : Nat) (noted : List Endpoint) (told : List (List PeerAddress))
    (before after : Turn) : Prop where
  known : ∀ tested, after.agent.known.get? tested =
    if tested ∈ noted then some now else before.agent.known.get? tested
  outbound : ∃ said, after.link.outbound = before.link.outbound ++ said ∧
    said.filterMap Message.addresses? = told

theorem get?_noteKnown (turn : Turn) (addresses : List PeerAddress) (now : Nat)
    (tested : Endpoint) :
    (turn.noteKnown addresses now).agent.known.get? tested =
      if tested ∈ addresses.map PeerAddress.endpoint then some now
      else turn.agent.known.get? tested := by
  show (addresses.foldl (fun known address => known.insert address.endpoint now)
    turn.agent.known).get? tested = _
  generalize turn.agent.known = known
  induction addresses generalizing known with
  | nil => simp
  | cons address others hypothesis =>
      rw [List.foldl_cons, hypothesis, Table.get?_insert]
      by_cases later : tested ∈ others.map PeerAddress.endpoint
      · simp [later]
      · by_cases same : address.endpoint = tested
        · simp [same]
        · simp [later, same, Ne.symm same]

namespace Shares

variable {now : Nat} {first second noted : List Endpoint} {told : List (List PeerAddress)}
  {before middle after turn : Turn}

theorem of_same (known : after.agent.known = before.agent.known)
    (outbound : after.link.outbound = before.link.outbound) : Shares now [] [] before after where
  known := by simp [known]
  outbound := ⟨[], by simp [outbound], rfl⟩

theorem refl (turn : Turn) : Shares now [] [] turn turn :=
  of_same rfl rfl

theorem trans {earlier later : List (List PeerAddress)}
    (one : Shares now first earlier before middle)
    (other : Shares now second later middle after) :
    Shares now (first ++ second) (earlier ++ later) before after := by
  refine ⟨?_, ?_⟩
  · intro tested
    rw [other.known, one.known]
    by_cases inSecond : tested ∈ second <;> simp [inSecond]
  · obtain ⟨said, queued, rfl⟩ := one.outbound
    obtain ⟨more, added, rfl⟩ := other.outbound
    exact ⟨said ++ more, by rw [added, queued, List.append_assoc], List.filterMap_append⟩

theorem since_same (quiet : Shares now [] told before after) (tested : Endpoint) :
    after.agent.known.get? tested = before.agent.known.get? tested := by
  simpa using quiet.known tested

/-- What shares nothing may come first. -/
theorem after_quiet (quiet : Shares now [] [] before middle)
    (shares : Shares now noted told middle after) : Shares now noted told before after :=
  quiet.trans shares

/-- What shares nothing may follow. -/
theorem then_quiet (shares : Shares now noted told before middle)
    (quiet : Shares now [] [] middle after) : Shares now noted told before after := by
  simpa using shares.trans quiet

theorem noteKnown (addresses : List PeerAddress) (turn : Turn) :
    Shares now (addresses.map PeerAddress.endpoint) [] turn (turn.noteKnown addresses now) :=
  ⟨get?_noteKnown turn addresses now, [], (List.append_nil _).symm, rfl⟩

theorem send (message : Message) (turn : Turn) :
    Shares now [] (if turn.link.canSend then message.addresses?.toList else []) turn
      (turn.send message).2 := by
  by_cases room : turn.link.canSend
  · rw [send_of_canSend room, if_pos room]
    refine ⟨by simp, [message], rfl, ?_⟩
    cases found : message.addresses? <;> simp [found]
  · rw [send_of_not_canSend room, if_neg room]
    exact refl turn

theorem send_mute {message : Message} (mute : message.addresses? = none) (turn : Turn) :
    Shares now [] [] turn (turn.send message).2 := by
  have shares : Shares now [] _ turn (turn.send message).2 := send message turn
  simpa [mute] using shares

/-- The peer counts as told, whether there is room for the message or not. -/
theorem tell (now : Nat) (addresses : List PeerAddress) (turn : Turn) :
    Shares now (addresses.map PeerAddress.endpoint)
      (if turn.link.canSend then [addresses] else []) turn
      ((turn.noteKnown addresses now).sendIfRoom (.addresses addresses)) := by
  have sent : Shares now [] (if turn.link.canSend then [addresses] else [])
      (turn.noteKnown addresses now)
      ((turn.noteKnown addresses now).sendIfRoom (.addresses addresses)) :=
    send (.addresses addresses) (turn.noteKnown addresses now)
  simpa using (noteKnown addresses turn).trans sent

theorem finishHandshake (turn : Turn) :
    Shares now [] [] turn (Agent.finishHandshake around turn) := by
  unfold Agent.finishHandshake
  split
  · exact refl turn
  · next peer _ =>
      have told : Shares now [] [] turn
          ((((turn.update fun agent => { agent with phase := .established }).setInterval
            .connectivity around.now around.config.connectivityCheckInterval).setInterval
              .announceAddress around.now around.config.announceAddrInterval).emit
                (.handshake peer)) :=
        of_same rfl rfl
      exact told.then_quiet (send_mute rfl _)

theorem handshake (turn : Turn) : Shares now [] [] turn (Agent.handshake around turn) := by
  have sent : Shares now [] [] turn (turn.send (.version around.ownVersion)).2 := send_mute rfl turn
  unfold Agent.handshake
  split
  · exact refl turn
  · dsimp only
    split
    · have announced : Shares now [] [] turn
          ((turn.send (.version around.ownVersion)).2.update fun agent =>
            { agent with versionSent := true, phase := .handshakeInFlight }) :=
        sent.then_quiet (of_same rfl rfl)
      split
      · exact announced.then_quiet (finishHandshake _)
      · exact announced.then_quiet (of_same rfl rfl)
    · split
      · exact sent.then_quiet (of_same rfl rfl)
      · exact sent.then_quiet (of_same rfl rfl)

theorem acceptVersion (version : Version) (turn : Turn) :
    Shares around.now [version.peerAddress.endpoint] [] turn
      (Agent.acceptVersion around version turn) := by
  have noted : Shares around.now [version.peerAddress.endpoint] [] turn
      (turn.noteKnown [completed around.book version.peerAddress] around.now) :=
    noteKnown [completed around.book version.peerAddress] turn
  have accepted {turn after : Turn} (known : after.agent.known = turn.agent.known)
      (outbound : after.link.outbound = turn.link.outbound) :
      Shares around.now [] [] turn (if after.agent.versionSent then
        Agent.finishHandshake around after else after) := by
    have same : Shares around.now [] [] turn after := of_same known outbound
    split
    · exact same.then_quiet (finishHandshake after)
    · exact same
  exact noted.then_quiet (accepted rfl rfl)

theorem checkConnectivity (turn : Turn) :
    Shares now [] [] turn (Agent.checkConnectivity around turn) := by
  have sent : Shares now [] [] turn (turn.send (.ping around.nonce)).2 := send_mute rfl turn
  unfold Agent.checkConnectivity
  dsimp only
  split
  · exact sent.then_quiet (of_same rfl rfl)
  · exact sent.then_quiet (of_same rfl rfl)

theorem finish (byRemote : Bool) (turn : Turn) :
    Shares now [] [] turn (Agent.finish byRemote turn) := by
  unfold Agent.finish
  split
  · exact refl turn
  · cases byRemote with
    | false => exact of_same rfl rfl
    | true => exact of_same rfl rfl

end Shares

/-! ## Steps -/

/-- What a task comes to for what an agent and its peer know of each other's addresses. -/
inductive Gossiped (around : Surroundings) (agent : Agent) (task : Task) (before after : Turn) :
    Prop where
  | silent (told : List (List PeerAddress)) (shares : Shares around.now [] told before after)
      (own : task.announcesAgain = true ∨ told = []) (unheard : task.announced? agent = none)
      (untold : task.gossip? around agent = none)
  | heard (addresses : List PeerAddress) (announced : task.announced? agent = some addresses)
      (shares : Shares around.now (addresses.map PeerAddress.endpoint) [] before after)
      (untold : task.gossip? around agent = none)
  | refused (addresses : List PeerAddress) (announced : task.announced? agent = some addresses)
      (closed : after.link.closed = true) (shares : Shares around.now [] [] before after)
      (untold : task.gossip? around agent = none)
  | told (addresses : List PeerAddress) (composed : task.gossip? around agent = some addresses)
      (shares : Shares around.now (addresses.map PeerAddress.endpoint)
        (if before.link.canSend then [addresses] else []) before after)
      (unheard : task.announced? agent = none)

namespace Gossiped

variable {task : Task} {before middle after turn : Turn}

/-- A task without gossip, unless the agent announces itself. -/
theorem of_quiet (shares : Shares around.now [] [] before after)
    (unheard : task.announced? agent = none) (untold : task.gossip? around agent = none) :
    Gossiped around agent task before after :=
  .silent [] shares (.inr rfl) unheard untold

theorem onAlarm (alarm : Alarm) (others : List Alarm) (turn : Turn) :
    Gossiped around agent (.alarm alarm others) turn (Agent.onAlarm around alarm turn) := by
  have taken : Shares around.now [] [] turn (turn.takeAlarm alarm).2 := .of_same rfl rfl
  unfold Agent.onAlarm
  cases alarm with
  | versionRetry =>
      refine of_quiet ?_ rfl rfl
      dsimp only
      split
      · exact taken.then_quiet (.handshake _)
      · exact taken
  | versionTimeout =>
      refine of_quiet ?_ rfl rfl
      dsimp only
      split
      · exact taken.then_quiet (.of_same rfl rfl)
      · exact taken
  | pingTimeout nonce =>
      refine of_quiet ?_ rfl rfl
      dsimp only
      split
      · exact taken.then_quiet (.of_same rfl rfl)
      · exact taken
  | connectivity =>
      refine of_quiet ?_ rfl rfl
      dsimp only
      split
      · exact .checkConnectivity turn
      · exact .refl turn
  | announceAddress =>
      dsimp only
      split
      · exact .silent _ (.send _ turn) (.inl rfl) rfl rfl
      · exact of_quiet (.refl turn) rfl rfl

theorem relayAddresses (addresses : List PeerAddress) (others : List (List PeerAddress))
    (link : Link) :
    Gossiped around agent (.relay addresses others) ⟨agent, link, []⟩
      (Agent.relayAddresses around addresses ⟨{ agent with relays := others }, link, []⟩) := by
  have begins : Shares around.now [] [] ⟨agent, link, []⟩
      ⟨{ agent with relays := others }, link, []⟩ := .of_same rfl rfl
  have sameRule : canRelay around { agent with relays := others } = canRelay around agent := rfl
  unfold Agent.relayAddresses
  dsimp only
  rw [sameRule]
  split
  · next early =>
      exact of_quiet begins rfl (if_neg fun composes => early composes.1)
  · next established =>
      rw [Classical.not_not] at established
      split
      · next nothing =>
          have empty : addresses.filter (canRelay around agent) = [] := List.isEmpty_iff.1 nothing
          exact of_quiet begins rfl (if_neg fun composes => composes.2 empty)
      · next something =>
          have nonempty : addresses.filter (canRelay around agent) ≠ [] :=
            fun empty => something (List.isEmpty_iff.2 empty)
          have composed : Task.gossip? around agent (.relay addresses others) =
              some (addresses.filter (canRelay around agent)) :=
            if_pos ⟨established, nonempty⟩
          have told := Shares.tell around.now (addresses.filter (canRelay around agent))
            ⟨{ agent with relays := others }, link, []⟩
          exact .told _ composed (begins.after_quiet told) rfl

theorem onVersion (version : Version) (others : List Message) (turn : Turn) :
    Gossiped around turn.agent (.message (.version version) others) turn
      (Agent.onVersion around version turn) := by
  unfold Agent.onVersion
  split
  · next received => exact of_quiet (.of_same rfl rfl) (if_pos received) rfl
  · next missing =>
      have cleared : Shares around.now [] [] turn (turn.clearAlarm .versionTimeout) :=
        .of_same rfl rfl
      have announced : Task.announced? turn.agent (.message (.version version) others) =
          some [version.peerAddress] := if_neg missing
      dsimp only
      split
      · exact .refused _ announced rfl (cleared.then_quiet (.of_same rfl rfl)) rfl
      · exact .heard _ announced (cleared.after_quiet (.acceptVersion version _)) rfl

theorem onMessage {message : Message} {others : List Message} (lasting : turn.link.closed = false) :
    Gossiped around turn.agent (.message message others) turn
      (Agent.onMessage around message turn) := by
  unfold Agent.onMessage
  rw [lasting, if_neg Bool.false_ne_true]
  split
  · next received =>
      cases message with
      | version version => exact onVersion version others turn
      | addresses addresses =>
          have announced : Task.announced? turn.agent (.message (.addresses addresses) others) =
              some addresses := if_pos received
          unfold onTalk onAddresses
          dsimp only
          split
          · exact .refused _ announced rfl (.of_same rfl rfl) rfl
          · exact .heard _ announced
              ((Shares.noteKnown addresses turn).then_quiet (.of_same rfl rfl)) rfl
      | getAddresses protocols services =>
          exact .told _ (if_pos received) (.tell around.now _ turn) rfl
      | ping nonce => exact of_quiet (.send_mute rfl turn) rfl rfl
      | pong nonce => exact of_quiet (.of_same rfl rfl) rfl rfl
      | signal signal => exact of_quiet (.of_same rfl rfl) rfl rfl
  · next missing =>
      cases message with
      | version version => exact onVersion version others turn
      | addresses addresses => exact of_quiet (.of_same rfl rfl) (if_neg missing) rfl
      | getAddresses protocols services =>
          exact of_quiet (.of_same rfl rfl) rfl (if_neg missing)
      | _ => exact of_quiet (.of_same rfl rfl) rfl rfl

/-- A task may begin with a change of what is still to be done. -/
theorem begun (gossiped : Gossiped around agent task middle after)
    (known : middle.agent.known = before.agent.known)
    (outbound : middle.link.outbound = before.link.outbound)
    (room : middle.link.canSend = before.link.canSend) :
    Gossiped around agent task before after := by
  have begins : Shares around.now [] [] before middle := .of_same known outbound
  cases gossiped with
  | silent told shares own unheard untold =>
      exact .silent told (begins.after_quiet shares) own unheard untold
  | heard addresses announced shares untold =>
      exact .heard addresses announced (begins.after_quiet shares) untold
  | refused addresses announced closed shares untold =>
      exact .refused addresses announced closed (begins.after_quiet shares) untold
  | told addresses composed shares unheard =>
      rw [room] at shares
      exact .told addresses composed (begins.after_quiet shares) unheard

theorem perform {agent : Agent} {link : Link} (next : nextTask? agent link = some task) :
    Gossiped around agent task ⟨agent, link, []⟩ (Agent.perform around task ⟨agent, link, []⟩) := by
  cases task with
  | start =>
      have begins : Shares around.now [] [] ⟨agent, link, []⟩
          ⟨{ agent with started := true }, link, []⟩ := .of_same rfl rfl
      exact of_quiet (begins.then_quiet (.handshake _)) rfl rfl
  | finish byRemote => exact of_quiet (.finish byRemote _) rfl rfl
  | alarm alarm others => exact (onAlarm alarm others _).begun rfl rfl rfl
  | relay addresses others => exact relayAddresses addresses others link
  | message message others =>
      have lasting : (Turn.mk agent { link with inbound := others } []).link.closed = false :=
        (nextTask?_eq_message next).1
      exact (onMessage lasting).begun rfl rfl rfl

end Gossiped

/-! ## Notices -/

/-- The addresses of a message between an agent and its peer. -/
structure Notice where
  time : Nat
  addresses : List PeerAddress
  /-- Whether the agent has told them; it has heard them otherwise. -/
  told : Bool
  deriving DecidableEq

namespace Record

/-- Since when the peer knows an endpoint, if it does. -/
def since? (record : Record) (endpoint : Endpoint) : Option Nat :=
  record.agent.known.get? endpoint

/-- The addresses of the message that an agent composes in a step, if it composes one. -/
def gossip? (record : Record) (step : Step) : Option (List PeerAddress) :=
  (record.task? step).bind fun task => task.gossip? step.around (record.agentAt step)

/-- The addresses of the messages that an agent queues in a task, unless it announces itself
again. -/
def toldIn (record : Record) (step : Step) (task : Task) : List (List PeerAddress) :=
  let queue := (perform step.around task (record.start step)).link.outbound
  if task.announcesAgain then []
  else (queue.drop (record.linkAt step).outbound.length).filterMap Message.addresses?

/-- What an agent hears and tells in a step. -/
def noticesIn (record : Record) (step : Step) : List Notice :=
  match record.task? step with
  | none => []
  | some task =>
      (task.announced? (record.agentAt step)).toList.map (Notice.mk step.around.now · false) ++
        (record.toldIn step task).map (Notice.mk step.around.now · true)

/-- What an agent hears and tells in some steps, in order. -/
def noticesAlong (record : Record) : List Step → List Notice
  | [] => []
  | step :: later => record.noticesIn step ++ (record.enter step).noticesAlong later

theorem noticesAlong_concat (record : Record) (steps : List Step) (step : Step) :
    record.noticesAlong (steps ++ [step]) =
      record.noticesAlong steps ++ (record.after steps).noticesIn step := by
  induction steps generalizing record with
  | nil => simp [noticesAlong, after]
  | cons first others hypothesis =>
      rw [List.cons_append, noticesAlong, hypothesis, noticesAlong, List.append_assoc]
      rfl

theorem time_of_mem_noticesIn {record : Record} {step : Step} {notice : Notice}
    (member : notice ∈ record.noticesIn step) : notice.time = step.around.now := by
  unfold noticesIn at member
  split at member
  · cases member
  · rcases List.mem_append.1 member with heard | told
    · obtain ⟨addresses, _, rfl⟩ := List.mem_map.1 heard
      rfl
    · obtain ⟨addresses, _, rfl⟩ := List.mem_map.1 told
      rfl

theorem toldIn_of_shares {record : Record} {step : Step} {task : Task} {noted : List Endpoint}
    {told : List (List PeerAddress)} (plain : task.announcesAgain = false)
    (shares : Shares step.around.now noted told (record.start step)
      (perform step.around task (record.start step))) :
    record.toldIn step task = told := by
  obtain ⟨said, queued, rfl⟩ := shares.outbound
  have appended : (perform step.around task (record.start step)).link.outbound =
      (record.linkAt step).outbound ++ said := queued
  unfold toldIn
  rw [plain, if_neg Bool.false_ne_true, appended, List.drop_left]

end Record

/-- Whether the peer knows some addresses since a step, and all others as before. -/
def Record.Learns (record : Record) (step : Step) (addresses : List PeerAddress) : Prop :=
  ∀ tested, (record.enter step).since? tested =
    if tested ∈ addresses.map PeerAddress.endpoint then some step.around.now
    else record.since? tested

/-- What becomes in a step of what the peer counts as knowing.  Addresses that it announces are
refused and the link closed, or they are exchanged, and so are those of a message that the agent
composes.  If there is no room for that message, they are lost. -/
inductive Noticed (record : Record) (step : Step) : Prop where
  | nothing
      (known : ∀ tested, (record.enter step).since? tested = record.since? tested)
      (notices : record.noticesIn step = []) (untold : record.gossip? step = none)
  | refused (addresses : List PeerAddress)
      (closed : (record.enter step).link.closed = true)
      (known : ∀ tested, (record.enter step).since? tested = record.since? tested)
      (notices : record.noticesIn step = [⟨step.around.now, addresses, false⟩])
      (untold : record.gossip? step = none)
  | exchanged (addresses : List PeerAddress) (told : Bool) (learns : record.Learns step addresses)
      (notices : record.noticesIn step = [⟨step.around.now, addresses, told⟩])
      (gossip : record.gossip? step = if told then some addresses else none)
      (room : told = true → (record.linkAt step).canSend = true)
  | lost (addresses : List PeerAddress) (composed : record.gossip? step = some addresses)
      (full : (record.linkAt step).canSend = false) (learns : record.Learns step addresses)
      (notices : record.noticesIn step = [])

theorem noticed (record : Record) (step : Step) : Noticed record step := by
  cases next : record.task? step with
  | none =>
      refine .nothing ?_ ?_ ?_
      · intro tested
        unfold Record.enter
        rw [next]
        rfl
      · simp [Record.noticesIn, next]
      · simp [Record.gossip?, next]
  | some task =>
      have composes : record.gossip? step = task.gossip? step.around (record.agentAt step) := by
        simp [Record.gossip?, next]
      have notes : record.noticesIn step =
          (task.announced? (record.agentAt step)).toList.map (Notice.mk step.around.now · false) ++
            (record.toldIn step task).map (Notice.mk step.around.now · true) := by
        simp [Record.noticesIn, next]
      have entered : record.enter step = record.note step task := Record.enter_of_task next
      have gossiped : Gossiped step.around (record.agentAt step) task (record.start step)
          (perform step.around task (record.start step)) := .perform next
      cases gossiped with
      | silent told shares own unheard untold =>
          have toldNothing : record.toldIn step task = [] := by
            by_cases again : task.announcesAgain = true
            · simp [Record.toldIn, again]
            · rw [Bool.not_eq_true] at again
              have nothing : told = [] := own.resolve_left (by simp [again])
              exact (Record.toldIn_of_shares again shares).trans nothing
          refine .nothing ?_ ?_ (composes.trans untold)
          · rw [entered]
            exact shares.since_same
          · rw [notes, unheard, toldNothing]
            rfl
      | heard addresses announced shares untold =>
          have toldNothing := Record.toldIn_of_shares (plain_of_announced? announced) shares
          refine .exchanged addresses false ?_ ?_ (composes.trans untold)
            fun told => absurd told Bool.false_ne_true
          · unfold Record.Learns
            rw [entered]
            exact shares.known
          · rw [notes, announced, toldNothing]
            rfl
      | refused addresses announced closed shares untold =>
          have toldNothing := Record.toldIn_of_shares (plain_of_announced? announced) shares
          refine .refused addresses ?_ ?_ ?_ (composes.trans untold)
          · rw [entered]
            exact closed
          · rw [entered]
            exact shares.since_same
          · rw [notes, announced, toldNothing]
            rfl
      | told addresses composed shares unheard =>
          have toldThese := Record.toldIn_of_shares (plain_of_gossip? composed) shares
          have learns : record.Learns step addresses := by
            unfold Record.Learns
            rw [entered]
            exact shares.known
          have queued : record.noticesIn step =
              (if (record.linkAt step).canSend then [addresses] else []).map
                (Notice.mk step.around.now · true) := by
            rw [notes, unheard, toldThese]
            rfl
          cases room : (record.linkAt step).canSend with
          | true =>
              rw [room] at queued
              exact .exchanged addresses true learns queued (composes.trans composed) fun _ => room
          | false =>
              rw [room] at queued
              exact .lost addresses (composes.trans composed) room learns queued

end Agent

end PeerOverlay
