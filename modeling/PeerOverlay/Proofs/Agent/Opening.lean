import PeerOverlay.Proofs.Agent.Course

/-!
# How an agent opens a conversation

An agent queues its version before anything else, unless there is no room for it at first and
the peer asks for an answer before there was another try.  Such an answer goes out ahead of the
version.
-/

namespace PeerOverlay

/-- Whether a message is answered by another one. -/
def Message.wantsAnswer : Message → Bool
  | .getAddresses _ _ => true
  | .ping _ => true
  | _ => false

namespace Agent

/-! ## Agents that are not announced -/

/-- Whether an agent has not queued its version yet, and neither keeps its link alive nor
announces itself again. -/
structure Unannounced (agent : Agent) : Prop where
  sent : agent.versionSent = false
  phase : agent.phase ≠ .established
  connectivity : agent.timers.isSet .connectivity = false
  announceAddress : agent.timers.isSet .announceAddress = false

theorem unannounced_new : Unannounced new :=
  ⟨rfl, by decide, rfl, rfl⟩

/-- Whether a turn has queued nothing and has left an agent that is not announced at that. -/
structure Still (before after : Turn) : Prop where
  outbound : after.link.outbound = before.link.outbound
  unannounced : Unannounced before.agent → Unannounced after.agent

namespace Still

variable {before middle after turn : Turn} {around : Surroundings}

theorem trans (first : Still before middle) (second : Still middle after) :
    Still before after where
  outbound := second.outbound.trans first.outbound
  unannounced := fun still => second.unannounced (first.unannounced still)

/-- Alarms that are cleared do not announce an agent, nor do those that are set for another
reason. -/
theorem of_timers (outbound : after.link.outbound = before.link.outbound)
    (sent : after.agent.versionSent = before.agent.versionSent)
    (phase : after.agent.phase = .established → before.agent.phase = .established)
    (timers : ∀ alarm, alarm = .connectivity ∨ alarm = .announceAddress →
      before.agent.timers.isSet alarm = false → after.agent.timers.isSet alarm = false) :
    Still before after where
  outbound := outbound
  unannounced := fun still =>
    { sent := sent.trans still.sent
      phase := fun established => still.phase (phase established)
      connectivity := timers .connectivity (.inl rfl) still.connectivity
      announceAddress := timers .announceAddress (.inr rfl) still.announceAddress }

theorem of_same (outbound : after.link.outbound = before.link.outbound)
    (sent : after.agent.versionSent = before.agent.versionSent)
    (phase : after.agent.phase = before.agent.phase)
    (timers : after.agent.timers = before.agent.timers) : Still before after := by
  refine of_timers outbound sent ?_ ?_
  · rw [phase]
    exact id
  · intro alarm _
    rw [timers]
    exact id

theorem refl (turn : Turn) : Still turn turn :=
  of_same rfl rfl rfl rfl

theorem clearAlarm (alarm : Alarm) (turn : Turn) : Still turn (turn.clearAlarm alarm) := by
  refine of_timers rfl rfl id ?_
  intro tested _ unset
  refine (turn.agent.timers.isSet_clear alarm tested).trans ?_
  rw [unset, Bool.and_false]

theorem takeAlarm (alarm : Alarm) (turn : Turn) : Still turn (turn.takeAlarm alarm).2 := by
  refine of_timers rfl rfl id ?_
  intro tested _ unset
  refine (turn.agent.timers.isSet_takeFired alarm tested).trans ?_
  rw [unset, Bool.and_false]

theorem setTimeout {alarm : Alarm} (other : alarm ≠ .connectivity ∧ alarm ≠ .announceAddress)
    (now delay : Nat) (turn : Turn) : Still turn (turn.setTimeout alarm now delay) := by
  refine of_timers rfl rfl id ?_
  intro tested isOwn unset
  refine (turn.agent.timers.isSet_set alarm now _ false alarm tested).trans ?_
  rw [unset, Bool.or_false, decide_eq_false_iff_not]
  rintro rfl
  exact isOwn.elim other.1 other.2

theorem close (reason : String) (turn : Turn) : Still turn (turn.close reason) :=
  of_same rfl rfl rfl rfl

theorem emit (event : Event) (turn : Turn) : Still turn (turn.emit event) :=
  of_same rfl rfl rfl rfl

theorem noteKnown (addresses : List PeerAddress) (now : Nat) (turn : Turn) :
    Still turn (turn.noteKnown addresses now) :=
  of_same rfl rfl rfl rfl

theorem discard (turn : Turn) : Still turn turn.discard :=
  of_same rfl rfl rfl rfl

theorem onVersion (unannounced : Unannounced turn.agent) (version : Version) :
    Still turn (Agent.onVersion around version turn) := by
  unfold Agent.onVersion
  split
  · exact discard turn
  · have cleared := clearAlarm .versionTimeout turn
    dsimp only
    split
    · exact cleared.trans (close _ _)
    · refine cleared.trans ?_
      have unsent := (cleared.unannounced unannounced).sent
      unfold acceptVersion
      dsimp only
      rw [if_neg]
      · exact of_same rfl rfl rfl rfl
      · exact fun sent => Bool.false_ne_true (unsent.symm.trans sent)

theorem onAddresses (addresses : List PeerAddress) (turn : Turn) :
    Still turn (Agent.onAddresses around addresses turn) := by
  unfold Agent.onAddresses
  split
  · exact (emit _ turn).trans (close _ _)
  · exact (noteKnown addresses around.now turn).trans (emit _ _)

theorem relayAddresses (unannounced : Unannounced turn.agent) (addresses : List PeerAddress) :
    Still turn (Agent.relayAddresses around addresses turn) := by
  unfold Agent.relayAddresses
  rw [if_pos unannounced.phase]
  exact refl turn

theorem finish (byRemote : Bool) (turn : Turn) : Still turn (Agent.finish byRemote turn) := by
  have ended (link : Link) (events : List Event) (outbound : link.outbound = turn.link.outbound) :
      Still turn
        { agent := { turn.agent with
            phase := .closed, timers := turn.agent.timers.clearAll, rung := [], relays := [] }
          link := link
          events := events } := by
    refine of_timers outbound rfl (fun established => by cases established) ?_
    intro alarm _ _
    exact turn.agent.timers.isSet_clearAll alarm
  unfold Agent.finish
  split
  · exact refl turn
  · cases byRemote with
    | false => exact ended _ _ rfl
    | true => exact ended _ _ rfl

end Still

/-! ## Steps of an agent that is not announced -/

/-- What a turn comes to that an agent takes which is not announced before: it is announced, or
it stays at that and answers a message at most. -/
inductive Opened (around : Surroundings) (answers : Prop) (before after : Turn) : Prop where
  | announced (sent : after.agent.versionSent = true) (unasked : ¬ answers)
      (rest : List Message)
      (queued : after.link.outbound =
        before.link.outbound ++ .version around.ownVersion :: rest)
  | unannounced (still : Unannounced after.agent) (said : List Message)
      (queued : after.link.outbound = before.link.outbound ++ said)
      (mute : said.filterMap Message.version? = []) (asked : said = [] ↔ ¬ answers)

/-- Whether a message is answered in a task. -/
def Task.Answers (agent : Agent) (link : Link) (task : Task) : Prop :=
  ∃ message others, task = .message message others ∧ message.wantsAnswer = true ∧
    agent.versionReceived = true ∧ link.canSend = true

namespace Opened

variable {around : Surroundings} {answers : Prop} {before middle after turn : Turn}

theorem begun (opened : Opened around answers middle after)
    (same : middle.link.outbound = before.link.outbound) : Opened around answers before after := by
  cases opened with
  | announced sent unasked rest queued =>
      rw [same] at queued
      exact .announced sent unasked rest queued
  | unannounced still said queued mute asked =>
      rw [same] at queued
      exact .unannounced still said queued mute asked

theorem of_still (unannounced : Unannounced before.agent) (unasked : ¬ answers)
    (still : Still before after) : Opened around answers before after := by
  refine .unannounced (still.unannounced unannounced) [] ?_ rfl (by simp [unasked])
  rw [still.outbound, List.append_nil]

theorem handshake (unannounced : Unannounced turn.agent) (unasked : ¬ answers) :
    Opened around answers turn (Agent.handshake around turn) := by
  unfold Agent.handshake
  split
  · exact of_still unannounced unasked (.refl turn)
  · by_cases room : turn.link.canSend
    · rw [send_of_canSend room]
      dsimp only
      rw [if_pos rfl]
      split
      · -- What is queued after the version is of no interest.
        have finished : Lasts around
            { turn with
              agent := { turn.agent with versionSent := true, phase := .handshakeInFlight }
              link := { turn.link with
                outbound := turn.link.outbound ++ [.version around.ownVersion] } } _ :=
          Lasts.finishHandshake _
        obtain ⟨rest, queued, _⟩ := finished.outbound
        refine .announced (finished.sent rfl) unasked rest (queued.trans ?_)
        exact List.append_assoc ..
      · exact .announced rfl unasked [] rfl
    · rw [send_of_not_canSend room]
      dsimp only
      rw [if_neg Bool.false_ne_true]
      have counted : Still turn (turn.update fun agent =>
          { agent with versionAttempts := agent.versionAttempts + 1 }) := .of_same rfl rfl rfl rfl
      apply of_still unannounced unasked
      split
      · exact counted.trans (.close _ _)
      · exact counted.trans (.setTimeout ⟨by decide, by decide⟩ _ _ _)

theorem answered (unannounced : Unannounced turn.agent) {message : Message}
    (mute : message.version? = none) (asked : answers ↔ turn.link.canSend = true) :
    Opened around answers turn (turn.sendIfRoom message) := by
  unfold Turn.sendIfRoom
  by_cases room : turn.link.canSend
  · rw [send_of_canSend room]
    refine .unannounced unannounced [message] rfl ?_ (by simp [asked, room])
    simp [mute]
  · rw [send_of_not_canSend room]
    refine of_still unannounced ?_ (.refl turn)
    exact fun answers => room (asked.1 answers)

theorem onAlarm (unannounced : Unannounced turn.agent) (unasked : ¬ answers) (alarm : Alarm) :
    Opened around answers turn (Agent.onAlarm around alarm turn) := by
  have taken : Still turn (turn.takeAlarm alarm).2 := .takeAlarm alarm turn
  unfold Agent.onAlarm
  cases alarm with
  | versionRetry =>
      dsimp only
      split
      · exact (handshake (taken.unannounced unannounced) unasked).begun taken.outbound
      · exact of_still unannounced unasked taken
  | connectivity =>
      dsimp only
      rw [unannounced.connectivity, if_neg Bool.false_ne_true]
      exact of_still unannounced unasked (.refl turn)
  | announceAddress =>
      dsimp only
      rw [unannounced.announceAddress, if_neg Bool.false_ne_true]
      exact of_still unannounced unasked (.refl turn)
  | versionTimeout =>
      apply of_still unannounced unasked
      dsimp only
      split
      · exact taken.trans (.close _ _)
      · exact taken
  | pingTimeout nonce =>
      apply of_still unannounced unasked
      dsimp only
      split
      · exact taken.trans (.close _ _)
      · exact taken

/-- A message is answered if the version of the peer was accepted before and there is room. -/
theorem onMessage (unannounced : Unannounced turn.agent) (lasting : turn.link.closed = false)
    (message : Message)
    (asked : answers ↔ message.wantsAnswer = true ∧ turn.agent.versionReceived = true ∧
      turn.link.canSend = true) :
    Opened around answers turn (Agent.onMessage around message turn) := by
  have unasked (plain : message.wantsAnswer = false) : ¬ answers := by
    rw [asked, plain]
    exact fun wanted => Bool.false_ne_true wanted.1
  unfold Agent.onMessage
  rw [lasting, if_neg Bool.false_ne_true]
  split
  · next received =>
      have noted (addresses : List PeerAddress) := Still.noteKnown addresses around.now turn
      cases message with
      | version version => exact of_still unannounced (unasked rfl) (.onVersion unannounced version)
      | addresses addresses =>
          exact of_still unannounced (unasked rfl) (.onAddresses addresses turn)
      | getAddresses protocols services =>
          have room : answers ↔ turn.link.canSend = true :=
            asked.trans ⟨fun wanted => wanted.2.2, fun room => ⟨rfl, received, room⟩⟩
          exact (answered ((noted _).unannounced unannounced) rfl room).begun rfl
      | ping nonce =>
          exact answered unannounced rfl
            (asked.trans ⟨fun wanted => wanted.2.2, fun room => ⟨rfl, received, room⟩⟩)
      | pong nonce => exact of_still unannounced (unasked rfl) (.clearAlarm _ turn)
      | signal signal => exact of_still unannounced (unasked rfl) (.emit _ turn)
  · next missing =>
      have unanswered : ¬ answers := by
        rw [asked]
        exact fun wanted => missing wanted.2.1
      cases message with
      | version version => exact of_still unannounced unanswered (.onVersion unannounced version)
      | _ => exact of_still unannounced unanswered (.discard turn)

theorem perform {agent : Agent} {link : Link} {task : Task}
    (next : nextTask? agent link = some task) (unannounced : Unannounced agent) :
    Opened around (task.Answers agent link) ⟨agent, link, []⟩
      (Agent.perform around task ⟨agent, link, []⟩) := by
  have begins : Still ⟨agent, link, []⟩ (task.begin ⟨agent, link, []⟩) := by
    cases task <;> exact .of_same rfl rfl rfl rfl
  have still := begins.unannounced unannounced
  have unasked (other : ∀ message others, task ≠ .message message others) :
      ¬ task.Answers agent link := by
    rintro ⟨message, others, same, _⟩
    exact other message others same
  refine Opened.begun ?_ begins.outbound
  cases task with
  | start => exact handshake still (unasked (by simp))
  | finish byRemote => exact of_still still (unasked (by simp)) (.finish byRemote _)
  | alarm alarm others => exact onAlarm still (unasked (by simp)) alarm
  | relay addresses others =>
      exact of_still still (unasked (by simp)) (.relayAddresses still addresses)
  | message message others =>
      refine onMessage still (nextTask?_eq_message next).1 message ?_
      constructor
      · rintro ⟨_, _, same, wanted⟩
        cases same
        exact wanted
      · exact fun wanted => ⟨message, others, rfl, wanted⟩

end Opened

/-! ## Along a run -/

/-- Whether an agent answers its peer in a step before it has queued its own version. -/
def Record.AnswersUnannounced (record : Record) (step : Step) : Prop :=
  record.agent.versionSent = false ∧
    ∃ task, record.task? step = some task ∧
      task.Answers (record.agentAt step) (record.linkAt step)

/-- What an agent has queued first in some steps. -/
inductive Opening (link : Link) (steps : List Step) (record : Record) : Prop where
  | unannounced (still : Unannounced record.agent)
      (mute : record.queued.filterMap Message.version? = [])
      (silent : record.queued = [] ↔ ¬ SomeStep link Record.AnswersUnannounced steps)
  | byVersion (sent : record.agent.versionSent = true) (step : Step) (taken : step ∈ steps)
      (rest : List Message) (queued : record.queued = .version step.around.ownVersion :: rest)
      (unasked : ¬ SomeStep link Record.AnswersUnannounced steps)
  | byAnswer (sent : record.agent.versionSent = true) (first : Message) (rest : List Message)
      (queued : record.queued = first :: rest) (mute : first.version? = none)
      (asked : SomeStep link Record.AnswersUnannounced steps)

namespace Record

variable {record : Record} {step : Step} {task : Task}

theorem unannounced_agentAt (still : Unannounced record.agent)
    (alarms : step.timers.registered = record.agent.timers.registered) :
    Unannounced (record.agentAt step) := by
  have unset {alarm : Alarm} (before : record.agent.timers.isSet alarm = false) :
      step.timers.isSet alarm = false := by
    unfold Timers.isSet
    rw [alarms]
    exact before
  exact ⟨still.sent, still.phase, unset still.connectivity, unset still.announceAddress⟩

theorem queued_note {said : List Message}
    (queued : (perform step.around task (record.start step)).link.outbound =
      (record.linkAt step).outbound ++ said) :
    (record.note step task).queued = record.queued ++ said := by
  show record.queued ++ (perform step.around task (record.start step)).link.outbound.drop
    (record.linkAt step).outbound.length = _
  rw [queued, List.drop_left]

/-- What an agent queues in a step comes after all that it has queued before. -/
theorem queued_enter (record : Record) (step : Step) :
    ∃ said, (record.enter step).queued = record.queued ++ said := by
  unfold Record.enter
  split
  · exact ⟨[], (List.append_nil _).symm⟩
  · exact ⟨_, rfl⟩

theorem sent_enter (sent : record.agent.versionSent = true) (step : Step) :
    (record.enter step).agent.versionSent = true := by
  unfold Record.enter
  split
  · exact sent
  · exact sent_perform step.around _ (record.agentAt step) (record.linkAt step) sent

theorem not_answersUnannounced_of_sent (sent : record.agent.versionSent = true) :
    ¬ record.AnswersUnannounced step := by
  rintro ⟨unsent, _⟩
  rw [sent] at unsent
  cases unsent

end Record

namespace Opening

variable {link : Link} {steps : List Step} {step : Step} {record : Record}

/-- A step of an agent that is not announced may queue the first message of the agent. -/
theorem enter_unannounced (recorded : (Record.fresh link).after steps = record)
    (alarms : step.timers.registered = record.agent.timers.registered)
    (still : Unannounced record.agent) (mute : record.queued.filterMap Message.version? = [])
    (silent : record.queued = [] ↔ ¬ SomeStep link Record.AnswersUnannounced steps) :
    Opening link (steps ++ [step]) (record.enter step) := by
  have asking : SomeStep link Record.AnswersUnannounced (steps ++ [step]) ↔
      SomeStep link Record.AnswersUnannounced steps ∨ record.AnswersUnannounced step := by
    rw [someStep_concat, recorded]
  have found := Record.unannounced_agentAt still alarms
  cases next : record.task? step with
  | none =>
      have idle : ¬ record.AnswersUnannounced step := by
        rintro ⟨_, task, some?, _⟩
        rw [next] at some?
        cases some?
      unfold Record.enter
      rw [next]
      exact .unannounced found mute (by simp [asking, silent, idle])
  | some task =>
      have answers : record.AnswersUnannounced step ↔
          task.Answers (record.agentAt step) (record.linkAt step) := by
        constructor
        · rintro ⟨_, known, some?, asked⟩
          rw [next] at some?
          cases some?
          exact asked
        · exact fun asked => ⟨still.sent, task, next, asked⟩
      rw [Record.enter_of_task next]
      have opened : Opened step.around (task.Answers (record.agentAt step) (record.linkAt step))
          (record.start step) (perform step.around task (record.start step)) :=
        .perform next found
      cases opened with
      | announced sent unasked rest queued =>
          have entered := Record.queued_note queued
          have same : SomeStep link Record.AnswersUnannounced (steps ++ [step]) ↔
              SomeStep link Record.AnswersUnannounced steps := by
            simp [asking, answers, unasked]
          cases earlier : record.queued with
          | nil =>
              rw [earlier] at entered
              refine .byVersion sent step (by simp) rest entered ?_
              rw [same]
              exact silent.1 earlier
          | cons first others =>
              rw [earlier] at entered mute silent
              refine .byAnswer sent first _ entered ?_ ?_
              · exact List.filterMap_eq_nil_iff.1 mute first List.mem_cons_self
              · rw [same]
                exact Classical.byContradiction fun never => by cases silent.2 never
      | unannounced after said queued quiet asked =>
          have entered := Record.queued_note queued
          refine .unannounced after ?_ ?_
          · rw [entered, List.filterMap_append, mute, quiet]
            rfl
          · rw [entered, List.append_eq_nil_iff, silent, asked, asking, not_or, answers]

theorem enter (opening : Opening link steps record)
    (recorded : (Record.fresh link).after steps = record)
    (alarms : step.timers.registered = record.agent.timers.registered) :
    Opening link (steps ++ [step]) (record.enter step) := by
  -- After the announcement nothing counts as an answer before it, and the first message stays.
  have asking (sent : record.agent.versionSent = true) :
      SomeStep link Record.AnswersUnannounced (steps ++ [step]) ↔
        SomeStep link Record.AnswersUnannounced steps := by
    rw [someStep_concat, recorded]
    exact or_iff_left (Record.not_answersUnannounced_of_sent sent)
  obtain ⟨said, later⟩ := record.queued_enter step
  cases opening with
  | unannounced still mute silent => exact enter_unannounced recorded alarms still mute silent
  | byVersion sent first taken rest queued unasked =>
      rw [queued] at later
      refine .byVersion (Record.sent_enter sent step) first (List.mem_append_left _ taken)
        _ later ?_
      rwa [asking sent]
  | byAnswer sent first rest queued mute asked =>
      rw [queued] at later
      refine .byAnswer (Record.sent_enter sent step) first _ later mute ?_
      rwa [asking sent]

theorem of_course {config : Config} (course : Course config link steps) :
    Opening link steps ((Record.fresh link).after steps) := by
  induction course with
  | nil =>
      refine .unannounced unannounced_new rfl ?_
      exact ⟨fun _ => not_someStep_nil, fun _ => rfl⟩
  | concat course sameConfig later alarms closed hypothesis =>
      rw [Record.after_concat]
      exact hypothesis.enter rfl alarms

end Opening

/-- Whatever waits on its link before, whatever comes, rings or is wanted, and however the
transport takes its messages: the first message that an agent queues is its own version, unless
it answers its peer before that version is queued. -/
theorem version_first_iff_not_answersUnannounced {config : Config} {link : Link}
    {steps : List Step} (course : Course config link steps) :
    (∀ first rest, ((Record.fresh link).after steps).queued = first :: rest →
      ∃ step ∈ steps, first = .version step.around.ownVersion) ↔
      ¬ SomeStep link Record.AnswersUnannounced steps := by
  cases Opening.of_course course with
  | unannounced still mute silent =>
      rw [← silent]
      constructor
      · intro byVersion
        cases queued : ((Record.fresh link).after steps).queued with
        | nil => rfl
        | cons first rest =>
            obtain ⟨step, _, same⟩ := byVersion first rest queued
            have unversioned := List.filterMap_eq_nil_iff.1 mute first (by simp [queued])
            rw [same] at unversioned
            cases unversioned
      · intro silent first rest queued
        rw [silent] at queued
        cases queued
  | byVersion sent step taken rest queued unasked =>
      refine ⟨fun _ => unasked, ?_⟩
      intro _ first others same
      rw [queued] at same
      injection same with same _
      exact ⟨step, taken, same.symm⟩
  | byAnswer sent first rest queued mute asked =>
      refine ⟨?_, fun unasked => absurd asked unasked⟩
      intro byVersion
      obtain ⟨step, _, same⟩ := byVersion first rest queued
      rw [same] at mute
      cases mute

/-- A host is dialed, and so much is queued on its link that there is no room for a version. -/
def crowdedStart : Step :=
  stepAtHost [] [] [] (List.replicate queueCapacity (.ping 0)) []

/-- The version of the host is heard while the link is still crowded. -/
def crowdedAtFirst : List Step :=
  [crowdedStart,
    stepAtHost [crowdedStart] [] [] (List.replicate queueCapacity (.ping 0))
      (hostAnnounced true []).link.inbound]

/-- Then there is room on the link, and something may have rung, before the host pings. -/
def pingedAfterCrowd (rung : List Alarm) : List Step :=
  crowdedAtFirst ++ [stepAtHost crowdedAtFirst rung [] [] [.ping 7]]

theorem visitsHost_pingedAfterCrowd (rung : List Alarm) :
    VisitsHost (pingedAfterCrowd rung) := by
  have start : VisitsHost [crowdedStart] := .concat .nil (by decide) rfl
  have crowded : VisitsHost crowdedAtFirst :=
    start.concat (by decide +kernel) (by decide +kernel)
  exact crowded.concat (by decide +kernel) (by decide +kernel)

/-- The alarm of the next attempt rings in time. -/
theorem version_first_triedAgain :
    VisitsHost (pingedAfterCrowd [.versionRetry]) ∧
      ((Record.fresh dialedLink).after (pingedAfterCrowd [.versionRetry])).queued.length = 2 ∧
      ¬ SomeStep dialedLink Record.AnswersUnannounced (pingedAfterCrowd [.versionRetry]) := by
  have course := visitsHost_pingedAfterCrowd [.versionRetry]
  have queued : ((Record.fresh dialedLink).after (pingedAfterCrowd [.versionRetry])).queued =
      [.version (hostAnnounced true []).around.ownVersion,
        .getAddresses (hostAnnounced true []).around.config.protocolMask
          (hostAnnounced true []).around.config.serviceMask] := by
    decide +kernel
  refine ⟨course, congrArg List.length queued,
    (version_first_iff_not_answersUnannounced course).1 ?_⟩
  intro first rest same
  rw [queued] at same
  injection same with same _
  exact ⟨_, List.mem_cons_self, same.symm⟩

/-- The host pings before the alarm rings, and the answer is the first message that this node
queues. -/
theorem pong_ahead_of_version :
    VisitsHost (pingedAfterCrowd []) ∧
      ((Record.fresh dialedLink).after (pingedAfterCrowd [])).queued = [.pong 7] :=
  ⟨visitsHost_pingedAfterCrowd [], by decide +kernel⟩

end Agent

end PeerOverlay
