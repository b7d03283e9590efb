import PeerOverlay.Proofs.Agent.Life

/-!
# What a task does to the alarms of an agent

What an agent waits for, how far it has come and whether its link is closed make up its watch.
A task does one of a few things to the watch, and which of them it does is said here once.
-/

namespace PeerOverlay.Agent

/-- Why the link is closed when an alarm is due that is still wanted. -/
def Alarm.reason? : Alarm → Option String
  | .versionTimeout => some "version timeout"
  | .pingTimeout _ => some "ping timeout"
  | _ => none

/-- Whether an alarm rings once and is given up when it is answered. -/
def Alarm.single : Alarm → Bool
  | .connectivity => false
  | .announceAddress => false
  | _ => true

/-- What decides how long the link of an agent lasts. -/
structure Watch where
  vigil : Vigil Alarm
  started : Bool
  phase : Phase
  sent : Bool
  received : Bool
  attempts : Nat
  closed : Bool
  reason : Option String
  /-- The pings that wait for the transport. -/
  pings : List UInt32

namespace Watch

def close (watch : Watch) (reason : String) : Watch :=
  { watch with closed := true, reason := some (watch.reason.getD reason) }

def wait (watch : Watch) (alarm : Alarm) (delay : Nat) : Watch :=
  { watch with vigil := watch.vigil.set alarm (min delay Timers.longestWait) false }

def beat (watch : Watch) (alarm : Alarm) (period : Nat) : Watch :=
  { watch with vigil := watch.vigil.set alarm period true }

def forget (watch : Watch) (alarm : Alarm) : Watch :=
  { watch with vigil := watch.vigil.forget alarm }

def skip (watch : Watch) : Watch :=
  { watch with vigil := watch.vigil.skip }

def answer (watch : Watch) (alarm : Alarm) : Watch :=
  { watch with vigil := watch.vigil.answer alarm }

/-- A ping is sent, and its answer waited for. -/
def ping (watch : Watch) (nonce : UInt32) (delay : Nat) : Watch :=
  { watch.skip with pings := watch.pings ++ [nonce] }.wait (.pingTimeout nonce) delay

/-- Both versions are exchanged. -/
def establish (watch : Watch) (config : Config) : Watch :=
  ({ watch with phase := .established }.beat .connectivity config.connectivityCheckInterval).beat
    .announceAddress config.announceAddrInterval

/-- The agent comes to its end. -/
def finish (watch : Watch) (byRemote : Bool) : Watch :=
  let ended := { watch with phase := .closed, vigil := watch.vigil.rest }
  if byRemote then ended.close "closed by remote" else ended

end Watch

/-- What an agent sees at a moment of a turn. -/
def Turn.watch (turn : Turn) (now : Nat) : Watch where
  vigil := ⟨now, turn.agent.timers, turn.agent.rung⟩
  started := turn.agent.started
  phase := turn.agent.phase
  sent := turn.agent.versionSent
  received := turn.agent.versionReceived
  attempts := turn.agent.versionAttempts
  closed := turn.link.closed
  reason := turn.link.reason
  pings := turn.link.outbound.filterMap Message.ping?

/-! ## What can come of a task -/

/-- What can come of an attempt to announce this node. -/
inductive Tried (config : Config) (before : Watch) : Watch → Prop where
  | idle (needless : before.sent = true ∨ before.phase = .closed) : Tried config before before
  | announced (unsent : before.sent = false) (going : before.phase ≠ .closed)
      (unheard : before.received = false) :
      Tried config before
        ({ before with sent := true, phase := .handshakeInFlight }.wait .versionTimeout
          config.handshakeTimeout)
  | established (unsent : before.sent = false) (going : before.phase ≠ .closed)
      (heard : before.received = true) :
      Tried config before ({ before with sent := true }.establish config)
  | gaveUp (unsent : before.sent = false) (going : before.phase ≠ .closed)
      (last : config.versionAttemptsMax ≤ before.attempts + 1) :
      Tried config before
        ({ before with attempts := before.attempts + 1 }.close
          "sending of version message failed")
  | again (unsent : before.sent = false) (going : before.phase ≠ .closed)
      (more : before.attempts + 1 < config.versionAttemptsMax) :
      Tried config before
        ({ before with attempts := before.attempts + 1 }.wait .versionRetry
          config.versionRetryDelay)

/-- What can come of a task that comes up. -/
inductive Turned (around : Surroundings) (before : Watch) : Task → Watch → Prop where
  | started {after : Watch} (unstarted : before.started = false)
      (tried : Tried around.config { before with started := true } after) :
      Turned around before .start after
  | finished (byRemote : Bool) : Turned around before (.finish byRemote) (before.finish byRemote)
  | stale {alarm : Alarm} {others : List Alarm} (single : alarm.single = true)
      (unwanted : before.vigil.timers.isSet alarm = false) :
      Turned around before (.alarm alarm others) (before.answer alarm)
  | retried {others : List Alarm} {after : Watch}
      (wanted : before.vigil.timers.isSet .versionRetry = true)
      (tried : Tried around.config (before.answer .versionRetry) after) :
      Turned around before (.alarm .versionRetry others) after
  | expired {alarm : Alarm} {others : List Alarm} {reason : String}
      (final : alarm.reason? = some reason)
      (wanted : before.vigil.timers.isSet alarm = true) :
      Turned around before (.alarm alarm others) ((before.answer alarm).close reason)
  | skipped {alarm : Alarm} {others : List Alarm} (periodic : alarm.single = false) :
      Turned around before (.alarm alarm others) before.skip
  | pinged {others : List Alarm} :
      Turned around before (.alarm .connectivity others)
        (before.ping around.nonce around.config.pingTimeout)
  | unpinged {others : List Alarm} :
      Turned around before (.alarm .connectivity others)
        (before.skip.close "sending ping message failed")
  | relayed {addresses : List PeerAddress} {others : List (List PeerAddress)} :
      Turned around before (.relay addresses others) before
  | ignored {message : Message} {others : List Message}
      (unheard : ∀ nonce, message = .pong nonce → before.received = false) :
      Turned around before (.message message others) before
  | answered {nonce : UInt32} {others : List Message} (heard : before.received = true) :
      Turned around before (.message (.pong nonce) others) (before.forget (.pingTimeout nonce))
  | banned {addresses : List PeerAddress} {others : List Message} :
      Turned around before (.message (.addresses addresses) others)
        (before.close "addr message too large")
  | refused {version : Version} {others : List Message} (refusal : Refusal)
      (unheard : before.received = false) :
      Turned around before (.message (.version version) others)
        ((before.forget .versionTimeout).close refusal.reason)
  | accepted {version : Version} {others : List Message} (unheard : before.received = false)
      (unsent : before.sent = false) :
      Turned around before (.message (.version version) others)
        { before.forget .versionTimeout with received := true }
  | met {version : Version} {others : List Message} (unheard : before.received = false)
      (sent : before.sent = true) :
      Turned around before (.message (.version version) others)
        ({ before.forget .versionTimeout with received := true }.establish around.config)

/-- What the watch shows when a task comes up. -/
structure Watch.Ready (before : Watch) (task : Task) : Prop where
  alarm : ∀ {alarm others}, task = .alarm alarm others → before.vigil.rung = alarm :: others
  message : ∀ {message others}, task = .message message others → before.vigil.rung = []
  started : before.started = true ↔ task ≠ .start
  going : task ≠ .start → before.phase ≠ .closed
  lasts : task ≠ .start → task.ends = false → before.closed = false
  finish : task = .finish false → before.closed = true

theorem Comes.ready {agent : Agent} {link : Link} {task : Task} (comes : Comes agent link task)
    (now : Nat) : ((⟨agent, link, []⟩ : Turn).watch now).Ready task := by
  constructor
  · rintro alarm others rfl
    cases comes with
    | alarm started going lasts rung => exact rung
  · rintro message others rfl
    cases comes with
    | message started going lasts rung relays inbound => exact rung
  · cases comes with
    | start unstarted => simp [Turn.watch, unstarted]
    | _ => simp_all [Turn.watch]
  · intro other
    cases comes with
    | start unstarted => exact absurd rfl other
    | _ => assumption
  · intro other goesOn
    cases comes with
    | start unstarted => exact absurd rfl other
    | finish started going closed => cases goesOn
    | exhausted started going lasts rung relays inbound gone => cases goesOn
    | _ => assumption
  · rintro rfl
    cases comes with
    | finish started going closed => exact closed

/-! ## Turns -/

variable {around : Surroundings} {turn : Turn}

/-- The watch takes no notice of messages other than pings. -/
theorem watch_send {message : Message} (quiet : message.ping? = none) (turn : Turn) (now : Nat) :
    (turn.send message).2.watch now = turn.watch now := by
  by_cases room : turn.link.canSend
  · rw [send_of_canSend room]
    simp [Turn.watch, List.filterMap_append, quiet]
  · rw [send_of_not_canSend room]

theorem watch_finishHandshake {peer : Peer} (known : turn.agent.peer = some peer) :
    (finishHandshake around turn).watch around.now =
      (turn.watch around.now).establish around.config := by
  unfold finishHandshake
  rw [known]
  exact watch_send rfl _ around.now

theorem tried_handshake (heard : turn.agent.versionReceived = true → turn.agent.peer.isSome) :
    Tried around.config (turn.watch around.now) ((handshake around turn).watch around.now) := by
  unfold handshake
  split
  · next needless =>
      have announced : turn.agent.versionSent = true ∨ turn.agent.phase = .closed := by
        simpa using needless
      exact .idle announced
  · next needed =>
      obtain ⟨unsent, going⟩ : turn.agent.versionSent = false ∧ turn.agent.phase ≠ .closed := by
        simpa using needed
      have same : (turn.send (.version around.ownVersion)).2.watch around.now =
          turn.watch around.now := watch_send rfl turn around.now
      have sameAgent : (turn.send (.version around.ownVersion)).2.agent = turn.agent := rfl
      generalize turn.send (.version around.ownVersion) = attempt at same sameAgent
      obtain ⟨queued, sent⟩ := attempt
      rw [← sameAgent] at heard unsent going
      rw [← same]
      dsimp only
      split
      · split
        · next received =>
            obtain ⟨peer, known⟩ := Option.isSome_iff_exists.1 (heard received)
            rw [watch_finishHandshake]
            · exact .established unsent going received
            · exact known
        · next unheard => exact .announced unsent going (eq_false_of_ne_true unheard)
      · split
        · next last => exact .gaveUp unsent going last
        · next more => exact .again unsent going (Nat.lt_of_not_le more)

theorem turned_onVersion {version : Version} {others : List Message} :
    Turned around (turn.watch around.now) (.message (.version version) others)
      ((onVersion around version turn).watch around.now) := by
  unfold onVersion
  split
  · exact .ignored fun _ other => by cases other
  · next missing =>
      have unheard : turn.agent.versionReceived = false := eq_false_of_ne_true missing
      dsimp only
      split
      · next refusal _ => exact .refused refusal unheard
      · unfold acceptVersion
        dsimp only
        split
        · next sent =>
            rw [watch_finishHandshake rfl]
            exact .met unheard sent
        · next unsent => exact .accepted unheard (eq_false_of_ne_true unsent)

theorem turned_checkConnectivity {before : Watch} {others : List Alarm}
    (skipped : turn.watch around.now = before.skip) :
    Turned around before (.alarm .connectivity others)
      ((checkConnectivity around turn).watch around.now) := by
  unfold checkConnectivity
  by_cases room : turn.link.canSend
  · rw [send_of_canSend room]
    dsimp only
    rw [if_pos rfl]
    have pinged : ({ turn with link := { turn.link with
        outbound := turn.link.outbound ++ [.ping around.nonce] } } : Turn).watch around.now =
        { before.skip with pings := before.pings ++ [around.nonce] } := by
      rw [← skipped]
      have same : before.pings = (turn.watch around.now).pings := by rw [skipped]; rfl
      rw [same]
      simp [Turn.watch, List.filterMap_append, Message.ping?]
    have turned : Turned around before (.alarm .connectivity others) _ := .pinged
    rw [Watch.ping, ← pinged] at turned
    exact turned
  · rw [send_of_not_canSend room]
    have unpinged : Turned around before (.alarm .connectivity others) _ := .unpinged
    rw [← skipped] at unpinged
    exact unpinged

theorem turned_onAlarm {alarm : Alarm} {others : List Alarm}
    (heard : turn.agent.versionReceived = true → turn.agent.peer.isSome)
    (rung : turn.agent.rung = alarm :: others) :
    Turned around (turn.watch around.now) (.alarm alarm others)
      ((onAlarm around alarm (turn.update fun agent => { agent with rung := others })).watch
        around.now) := by
  have skipped : (turn.update fun agent => { agent with rung := others }).watch around.now =
      (turn.watch around.now).skip := by
    simp [Turn.watch, Turn.update, Watch.skip, Vigil.skip, rung]
  have taken : ((turn.update fun agent => { agent with rung := others }).takeAlarm alarm).2.watch
      around.now = (turn.watch around.now).answer alarm := by
    simp [Turn.watch, Turn.update, Turn.takeAlarm, Watch.answer, Vigil.answer, rung]
  unfold onAlarm
  cases alarm with
  | versionRetry =>
      dsimp only
      split
      · next wanted =>
          refine .retried wanted ?_
          rw [← taken]
          exact tried_handshake heard
      · next unwanted =>
          rw [taken]
          exact .stale rfl (eq_false_of_ne_true unwanted)
  | versionTimeout =>
      dsimp only
      split
      · next wanted =>
          have expired : Turned around (turn.watch around.now)
              (.alarm .versionTimeout others) _ := .expired rfl wanted
          rw [← taken] at expired
          exact expired
      · next unwanted =>
          rw [taken]
          exact .stale rfl (eq_false_of_ne_true unwanted)
  | pingTimeout nonce =>
      dsimp only
      split
      · next wanted =>
          have expired : Turned around (turn.watch around.now)
              (.alarm (.pingTimeout nonce) others) _ := .expired rfl wanted
          rw [← taken] at expired
          exact expired
      · next unwanted =>
          rw [taken]
          exact .stale rfl (eq_false_of_ne_true unwanted)
  | connectivity =>
      dsimp only
      split
      · exact turned_checkConnectivity skipped
      · rw [skipped]
        exact .skipped rfl
  | announceAddress =>
      have same : ∀ message : Message, message.ping? = none →
          ((turn.update fun agent => { agent with rung := others }).sendIfRoom message).watch
            around.now = (turn.watch around.now).skip := fun message quiet =>
        (watch_send quiet _ around.now).trans skipped
      dsimp only
      split
      · unfold announceAddress
        rw [same _ rfl]
        exact .skipped rfl
      · rw [skipped]
        exact .skipped rfl

theorem turned_onTalk {message : Message} {others : List Message}
    (heard : turn.agent.versionReceived = true) :
    Turned around (turn.watch around.now) (.message message others)
      ((onTalk around message turn).watch around.now) := by
  have kept {after : Turn} (same : after.watch around.now = turn.watch around.now)
      (other : ∀ nonce, message ≠ .pong nonce) :
      Turned around (turn.watch around.now) (.message message others) (after.watch around.now) := by
    rw [same]
    exact .ignored fun nonce isPong => absurd isPong (other nonce)
  cases message with
  | version version => exact turned_onVersion
  | addresses addresses =>
      show Turned _ _ _ ((onAddresses around addresses turn).watch around.now)
      unfold onAddresses
      split
      · exact .banned
      · exact kept rfl fun nonce other => by cases other
  | getAddresses protocols services =>
      exact kept (watch_send rfl _ around.now) fun nonce other => by cases other
  | ping nonce => exact kept (watch_send rfl _ around.now) fun nonce other => by cases other
  | pong nonce => exact .answered heard
  | signal signal => exact kept rfl fun nonce other => by cases other

theorem turned_onMessage {message : Message} {others : List Message}
    (lasts : turn.link.closed = false) :
    Turned around (turn.watch around.now) (.message message others)
      ((onMessage around message turn).watch around.now) := by
  unfold onMessage
  rw [lasts, if_neg Bool.false_ne_true]
  split
  · next heard => exact turned_onTalk heard
  · next missing =>
      have unheard : turn.agent.versionReceived = false := eq_false_of_ne_true missing
      cases message with
      | version version => exact turned_onVersion
      | _ => exact .ignored fun _ _ => unheard

theorem watch_relayAddresses (addresses : List PeerAddress) (turn : Turn) (now : Nat) :
    (relayAddresses around addresses turn).watch now = turn.watch now := by
  unfold relayAddresses
  split
  · rfl
  · dsimp only
    split
    · rfl
    · exact watch_send rfl _ now

/-- What becomes of the watch in a task. -/
theorem turned_perform {agent : Agent} {link : Link} {task : Task}
    (next : nextTask? agent link = some task)
    (heard : agent.versionReceived = true → agent.peer.isSome) :
    Turned around ((⟨agent, link, []⟩ : Turn).watch around.now) task
      ((perform around task ⟨agent, link, []⟩).watch around.now) := by
  cases comes_of_next next with
  | start unstarted =>
      have tried : Tried around.config
          ((⟨{ agent with started := true }, link, []⟩ : Turn).watch around.now) _ :=
        tried_handshake heard
      exact .started unstarted tried
  | finish started going closed =>
      have ended : (finish false ⟨agent, link, []⟩).watch around.now =
          ((⟨agent, link, []⟩ : Turn).watch around.now).finish false := by
        unfold finish
        rw [if_neg going]
        rfl
      exact ended ▸ .finished false
  | exhausted started going lasts rung relays inbound gone =>
      have ended : (finish true ⟨agent, link, []⟩).watch around.now =
          ((⟨agent, link, []⟩ : Turn).watch around.now).finish true := by
        unfold finish
        rw [if_neg going]
        rfl
      exact ended ▸ .finished true
  | alarm started going lasts rung => exact turned_onAlarm heard rung
  | @relay addresses others started going lasts rung relays =>
      have quiet : (relayAddresses around addresses
          ⟨{ agent with relays := others }, link, []⟩).watch around.now =
            (⟨agent, link, []⟩ : Turn).watch around.now :=
        watch_relayAddresses addresses _ around.now
      exact quiet ▸ .relayed
  | @message message others started going lasts rung relays inbound =>
      have turned : Turned around
          ((⟨agent, { link with inbound := others }, []⟩ : Turn).watch around.now)
          (.message message others) _ := turned_onMessage lasts
      exact turned

/-! ## Moments -/

def Moment.watch (moment : Moment) : Watch :=
  (⟨moment.agent, moment.link, []⟩ : Turn).watch moment.now

/-- What becomes of the watch of an agent in its life. -/
theorem Life.turned {config : Config} {link : Link} {deeds : List Deed} {moment : Moment}
    {task : Task} (life : Life config link deeds moment) (sameTime : around.now = moment.now)
    (next : nextTask? moment.agent moment.link = some task) :
    Turned around moment.watch task (moment.after (moment.deed around task)).watch := by
  have turned : Turned around
      ((⟨moment.agent, moment.link, []⟩ : Turn).watch around.now) task _ :=
    turned_perform next life.peer_of_received
  rw [sameTime] at turned
  exact turned

/-- What an open link was before a task. -/
theorem Tried.of_lasts {config : Config} {before after : Watch} (tried : Tried config before after)
    (lasts : after.closed = false) :
    before.closed = false ∧ after.reason = before.reason := by
  cases tried with
  | gaveUp unsent going last => cases lasts
  | _ => exact ⟨lasts, rfl⟩

theorem Turned.of_lasts {before after : Watch} {task : Task}
    (turned : Turned around before task after) (lasts : after.closed = false) :
    before.closed = false ∧ after.reason = before.reason := by
  cases turned with
  | started unstarted tried => exact tried.of_lasts lasts
  | retried wanted tried => exact tried.of_lasts lasts
  | finished byRemote =>
      cases byRemote with
      | false => exact ⟨lasts, rfl⟩
      | true => cases lasts
  | expired final wanted => cases lasts
  | unpinged => cases lasts
  | banned => cases lasts
  | refused refusal unheard => cases lasts
  | _ => exact ⟨lasts, rfl⟩

/-- A link that lasts was never given a reason to be closed. -/
theorem Life.reason_of_lasts {config : Config} {link : Link} {deeds : List Deed}
    {moment : Moment} (life : Life config link deeds moment) :
    moment.link.closed = false → moment.link.reason = none := by
  induction life with
  | begin now unclosed => exact unclosed
  | act life around sameConfig sameTime next hypothesis =>
      intro lasts
      obtain ⟨before, same⟩ := (life.turned sameTime next).of_lasts lasts
      exact same.trans (hypothesis before)
  | ring life runs isDue hypothesis => exact hypothesis
  | meanwhile life relays released next found above may hypothesis =>
      exact fun lasts => (may.untouched lasts).trans (hypothesis (may.lasts lasts))
  | pass life later forward answered ahead hypothesis => exact hypothesis

/-- What was queued in a task comes behind what was waiting. -/
theorem pings_deed (moment : Moment) (around : Surroundings) (task : Task) :
    (moment.after (moment.deed around task)).watch.pings =
      moment.watch.pings ++ (moment.deed around task).pings := by
  have voiced : Voiced around (task.begin ⟨moment.agent, moment.link, []⟩) _ :=
    voiced_perform task _
  obtain ⟨queued, outbound, _⟩ := voiced.outbound
  have begun : (task.begin ⟨moment.agent, moment.link, []⟩).link.outbound =
      moment.link.outbound := by
    cases task <;> rfl
  rw [begun] at outbound
  have whole : (moment.deed around task).turn.link.outbound = moment.link.outbound ++ queued :=
    outbound
  have own : (moment.deed around task).queued = queued := by
    show List.drop moment.link.outbound.length (moment.deed around task).turn.link.outbound = _
    rw [whole, List.drop_left]
  show List.filterMap Message.ping? (moment.deed around task).turn.link.outbound =
    _ ++ List.filterMap Message.ping? (moment.deed around task).queued
  rw [own, whole, List.filterMap_append]
  rfl

end PeerOverlay.Agent
