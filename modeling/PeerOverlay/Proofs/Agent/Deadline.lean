import PeerOverlay.Proofs.Agent.Alarms

/-!
# The time that an exchange of versions may take

An agent tries to announce this node at fixed times, and at most so often.  When its last
attempt has failed, or the version of the peer does not come in time, it closes the link.
-/

namespace PeerOverlay.Agent

/-- How long an agent waits before it tries to announce this node again. -/
def retryWait (config : Config) : Nat :=
  min config.versionRetryDelay Timers.longestWait

/-- How long an agent that is announced waits for the version of the peer. -/
def versionWait (config : Config) : Nat :=
  min config.handshakeTimeout Timers.longestWait

def Alarm.OfVersion (alarm : Alarm) : Prop :=
  alarm = .versionRetry ∨ alarm = .versionTimeout

theorem Alarm.OfVersion.single {alarm : Alarm} (ofVersion : alarm.OfVersion) :
    alarm.single = true := by
  rcases ofVersion with rfl | rfl <;> rfl

/-! ## The plan of an agent -/

/-- Whether an agent that has started at a time keeps to its plan: as long as the link is open,
the next attempt is due in time, or the version of the peer is, or the link is established. -/
structure Watch.OnPlan (config : Config) (start : Nat) (watch : Watch) : Prop where
  few : watch.attempts ≤ config.versionAttemptsMax
  another : watch.closed = false ∨ watch.sent = true →
    watch.attempts < config.versionAttemptsMax
  unsent : watch.sent = false → watch.vigil.due? .versionTimeout = none
  retry : watch.closed = false → watch.sent = false →
    watch.vigil.due? .versionRetry = some (start + watch.attempts * retryWait config)
  timeout : watch.closed = false → watch.sent = true → watch.phase ≠ .established →
    watch.received = false ∧ watch.vigil.due? .versionTimeout =
      some (start + watch.attempts * retryWait config + versionWait config)

/-- Whether nothing was done about the exchange of versions yet. -/
structure Watch.Blank (watch : Watch) : Prop where
  phase : watch.phase = .awaitingHandshake
  sent : watch.sent = false
  attempts : watch.attempts = 0
  retry : watch.vigil.due? .versionRetry = none
  timeout : watch.vigil.due? .versionTimeout = none

/-- How many attempts were made, the one included that has succeeded. -/
def Watch.tries (watch : Watch) : Nat :=
  watch.attempts + watch.sent.toNat

/-- Whether an attempt was made in time, unless none was made. -/
def Watch.InTime (config : Config) (start : Nat) (before after : Watch) : Prop :=
  (after.attempts = before.attempts ∧ after.sent = before.sent) ∨
    before.sent = false ∧ before.vigil.now = start + before.attempts * retryWait config ∧
      after.tries = before.tries + 1

namespace Watch.OnPlan

variable {config : Config} {start : Nat} {before after : Watch}

/-- Nothing was done about the exchange of versions. -/
theorem of_same (onPlan : before.OnPlan config start) (attempts : after.attempts = before.attempts)
    (sent : after.sent = before.sent) (received : after.received = before.received)
    (phase : after.phase = before.phase)
    (closed : after.closed = false → before.closed = false)
    (retry : after.vigil.due? .versionRetry = before.vigil.due? .versionRetry)
    (timeout : after.vigil.due? .versionTimeout = before.vigil.due? .versionTimeout) :
    after.OnPlan config start := by
  constructor
  · rw [attempts]
    exact onPlan.few
  · rw [attempts, sent]
    exact fun either => onPlan.another (either.imp_left closed)
  · rw [sent, timeout]
    exact onPlan.unsent
  · rw [sent, retry, attempts]
    exact fun isOpen => onPlan.retry (closed isOpen)
  · rw [sent, received, phase, timeout, attempts]
    exact fun isOpen => onPlan.timeout (closed isOpen)

/-- The link was closed. -/
theorem of_closed (onPlan : before.OnPlan config start) (closed : after.closed = true)
    (attempts : after.attempts = before.attempts) (sent : after.sent = before.sent)
    (timeout : after.sent = false → after.vigil.due? .versionTimeout = none) :
    after.OnPlan config start := by
  have shut {goal : Prop} (isOpen : after.closed = false) : goal := by
    rw [closed] at isOpen
    cases isOpen
  constructor
  · rw [attempts]
    exact onPlan.few
  · rw [attempts, sent]
    exact fun either => onPlan.another (either.imp_left shut)
  · exact timeout
  · exact fun isOpen => shut isOpen
  · exact fun isOpen => shut isOpen

/-- An attempt that is made in time leaves the agent on its plan. -/
theorem of_tried (tidy : before.Tidy Alarm.OfVersion)
    (idle : before.sent = true ∨ before.phase = .closed → before.OnPlan config start)
    (another : before.attempts < config.versionAttemptsMax)
    (noTimeout : before.sent = false → before.vigil.due? .versionTimeout = none)
    (noRetry : before.vigil.due? .versionRetry = none)
    (inTime : before.sent = false →
      before.vigil.now = start + before.attempts * retryWait config)
    (tried : Tried config before after) :
    after.OnPlan config start ∧ Watch.InTime config start before after := by
  cases tried with
  | idle needless => exact ⟨idle needless, .inl ⟨rfl, rfl⟩⟩
  | announced unsent going unheard =>
      have begun : ({ before with sent := true, phase := .handshakeInFlight } : Watch).Tidy
          Alarm.OfVersion := tidy.of_same rfl nofun
      refine ⟨⟨Nat.le_of_lt another, fun _ => another, nofun, nofun, fun _ _ _ => ⟨unheard, ?_⟩⟩,
        .inr ⟨unsent, inTime unsent, ?_⟩⟩
      · rw [begun.due?_wait (fun _ => noTimeout unsent) (.inr rfl), if_pos rfl]
        show some (before.vigil.now + versionWait config) = _
        rw [inTime unsent]
        rfl
      · simp [Watch.tries, Watch.wait, unsent]
  | established unsent going heard =>
      refine ⟨⟨Nat.le_of_lt another, fun _ => another, nofun, nofun, fun _ _ other => ?_⟩,
        .inr ⟨unsent, inTime unsent, ?_⟩⟩
      · exact absurd rfl other
      · simp [Watch.tries, Watch.establish, Watch.beat, unsent]
  | gaveUp unsent going last =>
      refine ⟨⟨another, ?_, noTimeout, nofun, nofun⟩, .inr ⟨unsent, inTime unsent, ?_⟩⟩
      · rintro (isOpen | sent)
        · cases isOpen
        · rw [show before.sent = true from sent] at unsent
          cases unsent
      · simp [Watch.tries, Watch.close, unsent]
  | again unsent going more =>
      have counted : ({ before with attempts := before.attempts + 1 } : Watch).Tidy
          Alarm.OfVersion := tidy.of_same rfl id
      have fresh : Alarm.OfVersion .versionRetry →
          ({ before with attempts := before.attempts + 1 } : Watch).vigil.due? .versionRetry =
            none := fun _ => noRetry
      refine ⟨⟨another, fun _ => more, fun _ => ?_, fun _ _ => ?_, ?_⟩,
        .inr ⟨unsent, inTime unsent, ?_⟩⟩
      · rw [counted.due?_wait fresh (.inr rfl), if_neg nofun]
        exact noTimeout unsent
      · rw [counted.due?_wait fresh (.inl rfl), if_pos rfl]
        show some (before.vigil.now + retryWait config) =
          some (start + (before.attempts + 1) * retryWait config)
        rw [inTime unsent, Nat.add_mul, Nat.one_mul, Nat.add_assoc]
      · intro _ sent
        rw [show before.sent = true from sent] at unsent
        cases unsent
      · simp [Watch.tries, Watch.wait, unsent]

/-- The agent has started, and makes its first attempt. -/
theorem of_started (tidy : before.Tidy Alarm.OfVersion) (blank : before.Blank)
    (now : before.vigil.now = start) (atLeastOne : 1 ≤ config.versionAttemptsMax)
    (tried : Tried config { before with started := true } after) :
    after.OnPlan config start ∧ Watch.InTime config start before after := by
  have begun : ({ before with started := true } : Watch).Tidy Alarm.OfVersion :=
    tidy.of_same rfl id
  have first : before.attempts < config.versionAttemptsMax := by
    rw [blank.attempts]
    exact atLeastOne
  have inTime : before.sent = false →
      before.vigil.now = start + before.attempts * retryWait config := fun _ => by
    rw [blank.attempts, now, Nat.zero_mul, Nat.add_zero]
  have needed : before.sent = true ∨ before.phase = .closed →
      ({ before with started := true } : Watch).OnPlan config start := by
    rw [blank.sent, blank.phase]
    exact fun other => by rcases other with other | other <;> cases other
  have planned := of_tried begun needed first (fun _ => blank.timeout) blank.retry inTime tried
  exact planned

/-- The time for one more attempt has come. -/
theorem of_retried (onPlan : before.OnPlan config start) (tidy : before.Tidy Alarm.OfVersion)
    {others : List Alarm} (rung : before.vigil.rung = .versionRetry :: others)
    (lasts : before.closed = false) (going : before.phase ≠ .closed)
    (tried : Tried config (before.answer .versionRetry) after) :
    after.OnPlan config start ∧ Watch.InTime config start before after := by
  have noRetry : (before.answer .versionRetry).vigil.due? .versionRetry = none := by
    rw [tidy.due?_answer rung (.inl rfl), if_pos rfl]
  have timeout : (before.answer .versionRetry).vigil.due? .versionTimeout =
      before.vigil.due? .versionTimeout := by
    rw [tidy.due?_answer rung (.inr rfl), if_neg nofun]
  have isNow : before.vigil.due? .versionRetry = some before.vigil.now :=
    if_pos (by simp [rung])
  have needless : before.sent = true ∨ before.phase = .closed →
      (before.answer .versionRetry).OnPlan config start := by
    rintro (sent | closed)
    · have unsent {goal : Prop} (other : before.sent = false) : goal := by
        rw [sent] at other
        cases other
      refine ⟨onPlan.few, onPlan.another, fun other => unsent other,
        fun _ other => unsent other, ?_⟩
      rw [timeout]
      exact onPlan.timeout
    · exact absurd closed going
  have planned := of_tried (tidy.answer rung) needless (onPlan.another (.inl lasts))
    (fun unsent => timeout.trans (onPlan.unsent unsent)) noRetry
    (fun unsent => Option.some.inj (isNow.symm.trans (onPlan.retry lasts unsent))) tried
  exact planned

/-- The version of the peer has come before this node could announce itself. -/
theorem of_accepted (onPlan : before.OnPlan config start) (tidy : before.Tidy Alarm.OfVersion)
    (quiet : before.vigil.rung = []) (unsent : before.sent = false) :
    ({ before.forget .versionTimeout with received := true } : Watch).OnPlan config start := by
  refine ⟨onPlan.few, onPlan.another, fun _ => ?_, fun isOpen _ => ?_, fun _ sent => ?_⟩
  · exact (tidy.due?_forget quiet (.inr rfl)).trans (if_pos rfl)
  · refine (tidy.due?_forget quiet (.inl rfl)).trans ?_
    rw [if_neg nofun]
    exact onPlan.retry isOpen unsent
  · rw [show before.sent = true from sent] at unsent
    cases unsent

/-- The version of the peer has come after this node has announced itself. -/
theorem of_met (onPlan : before.OnPlan config start) (sent : before.sent = true) :
    ({ before.forget .versionTimeout with received := true }.establish config).OnPlan
      config start := by
  have announced {goal : Prop} (unsent : before.sent = false) : goal := by
    rw [sent] at unsent
    cases unsent
  exact ⟨onPlan.few, onPlan.another, fun unsent => announced unsent,
    fun _ unsent => announced unsent, fun _ _ other => absurd rfl other⟩

/-- No task leads the agent off its plan, and attempts are made in time. -/
theorem of_turned {around : Surroundings} {task : Task} (tidy : before.Tidy Alarm.OfVersion)
    (ready : before.Ready task)
    (blank : before.started = false → before.Blank ∧ before.vigil.now = start)
    (onPlan : before.started = true → before.OnPlan around.config start)
    (atLeastOne : 1 ≤ around.config.versionAttemptsMax)
    (turned : Turned around before task after) :
    after.OnPlan around.config start ∧ Watch.InTime around.config start before after := by
  have going (other : task ≠ .start) : before.OnPlan around.config start :=
    onPlan (ready.started.2 other)
  have single : ∀ key : Alarm, key.OfVersion → key.single = true := fun _ ofVersion =>
    ofVersion.single
  have unwatched : ¬Alarm.OfVersion .connectivity := Watch.Tidy.not_watched single rfl
  have notVersion (nonce : UInt32) {key : Alarm} (ofVersion : key.OfVersion) :
      key ≠ .pingTimeout nonce := by
    rintro rfl
    rcases ofVersion with other | other <;> cases other
  cases turned with
  | started unstarted tried =>
      obtain ⟨blank, now⟩ := blank unstarted
      exact of_started tidy blank now atLeastOne tried
  | finished byRemote =>
      cases byRemote with
      | false =>
          exact ⟨(going nofun).of_closed (ready.finish rfl) rfl rfl fun _ => rfl,
            .inl ⟨rfl, rfl⟩⟩
      | true => exact ⟨(going nofun).of_closed rfl rfl rfl fun _ => rfl, .inl ⟨rfl, rfl⟩⟩
  | stale isSingle unwanted =>
      have rung := ready.alarm rfl
      exact ⟨(going nofun).of_same rfl rfl rfl rfl id
        (tidy.due?_answer_of_unset rung unwanted (.inl rfl))
        (tidy.due?_answer_of_unset rung unwanted (.inr rfl)), .inl ⟨rfl, rfl⟩⟩
  | retried wanted tried =>
      exact (going nofun).of_retried tidy (ready.alarm rfl) (ready.lasts nofun rfl)
        (ready.going nofun) tried
  | expired final wanted =>
      refine ⟨(going nofun).of_closed rfl rfl rfl fun unsent => ?_, .inl ⟨rfl, rfl⟩⟩
      refine (tidy.due?_answer (ready.alarm rfl) (.inr rfl)).trans ?_
      rw [(going nofun).unsent unsent, ite_self]
  | skipped periodic =>
      have rung := ready.alarm rfl
      have unwatched := Watch.Tidy.not_watched single periodic
      exact ⟨(going nofun).of_same rfl rfl rfl rfl id
        (Vigil.Orderly.due?_skip rung unwatched (.inl rfl))
        (Vigil.Orderly.due?_skip rung unwatched (.inr rfl)), .inl ⟨rfl, rfl⟩⟩
  | pinged =>
      have kept {key : Alarm} (ofVersion : key.OfVersion) :
          (before.ping around.nonce around.config.pingTimeout).vigil.due? key =
            before.vigil.due? key :=
        (tidy.due?_ping (ready.alarm rfl) unwatched
          (fun other => absurd rfl (notVersion around.nonce other)) ofVersion).trans
          (if_neg (notVersion around.nonce ofVersion))
      exact ⟨(going nofun).of_same rfl rfl rfl rfl id (kept (.inl rfl)) (kept (.inr rfl)),
        .inl ⟨rfl, rfl⟩⟩
  | unpinged =>
      refine ⟨(going nofun).of_closed rfl rfl rfl fun unsent => ?_, .inl ⟨rfl, rfl⟩⟩
      exact (Vigil.Orderly.due?_skip (ready.alarm rfl) unwatched (.inr rfl)).trans
        ((going nofun).unsent unsent)
  | relayed => exact ⟨going nofun, .inl ⟨rfl, rfl⟩⟩
  | ignored unheard => exact ⟨going nofun, .inl ⟨rfl, rfl⟩⟩
  | @answered nonce others heard =>
      have kept {key : Alarm} (ofVersion : key.OfVersion) :
          (before.forget (.pingTimeout nonce)).vigil.due? key = before.vigil.due? key :=
        (tidy.due?_forget (ready.message rfl) ofVersion).trans
          (if_neg (notVersion nonce ofVersion))
      exact ⟨(going nofun).of_same rfl rfl rfl rfl id (kept (.inl rfl)) (kept (.inr rfl)),
        .inl ⟨rfl, rfl⟩⟩
  | banned =>
      exact ⟨(going nofun).of_closed rfl rfl rfl (going nofun).unsent, .inl ⟨rfl, rfl⟩⟩
  | refused refusal unheard =>
      refine ⟨(going nofun).of_closed rfl rfl rfl fun _ => ?_, .inl ⟨rfl, rfl⟩⟩
      exact (tidy.due?_forget (ready.message rfl) (.inr rfl)).trans (if_pos rfl)
  | accepted unheard unsent =>
      exact ⟨(going nofun).of_accepted tidy (ready.message rfl) unsent, .inl ⟨rfl, rfl⟩⟩
  | met unheard sent => exact ⟨(going nofun).of_met sent, .inl ⟨rfl, rfl⟩⟩

end Watch.OnPlan

/-! ## Lives -/

variable {config : Config} {link : Link} {deeds : List Deed} {moment : Moment}

/-- The times at which an agent has tried to announce this node. -/
def triedAt (deeds : List Deed) : List Nat :=
  (deeds.filter Deed.tries).map Deed.now

/-- The times of a number of attempts, the first of which was made at the start. -/
def plannedTries (config : Config) (start count : Nat) : List Nat :=
  (List.range count).map fun attempt => start + attempt * retryWait config

/-- Whether an agent keeps to the plan that has begun with its first deed. -/
structure Announcing (config : Config) (deeds : List Deed) (moment : Moment) : Prop where
  tidy : moment.watch.Tidy Alarm.OfVersion
  blank : moment.agent.started = false → moment.watch.Blank
  onPlan : ∀ first ∈ deeds.head?, moment.watch.OnPlan config first.now
  tries : ∀ first ∈ deeds.head?,
    triedAt deeds = plannedTries config first.now moment.watch.tries

namespace Announcing

theorem of_due? {after : Moment} (announcing : Announcing config deeds moment)
    (tidy : after.watch.Tidy Alarm.OfVersion)
    (agent : after.agent.phase = moment.agent.phase ∧
      after.agent.versionSent = moment.agent.versionSent ∧
      after.agent.versionReceived = moment.agent.versionReceived ∧
      after.agent.versionAttempts = moment.agent.versionAttempts ∧
      after.agent.started = moment.agent.started)
    (lasts : after.link.closed = false → moment.link.closed = false)
    (due : ∀ key : Alarm, key.OfVersion → after.vigil.due? key = moment.vigil.due? key) :
    Announcing config deeds after := by
  obtain ⟨phase, sent, received, attempts, started⟩ := agent
  refine ⟨tidy, ?_, ?_, ?_⟩
  · rw [started]
    intro unstarted
    have blank := announcing.blank unstarted
    exact ⟨phase.trans blank.phase, sent.trans blank.sent, attempts.trans blank.attempts,
      (due _ (.inl rfl)).trans blank.retry, (due _ (.inr rfl)).trans blank.timeout⟩
  · intro first member
    exact (announcing.onPlan first member).of_same attempts sent received phase lasts
      (due _ (.inl rfl)) (due _ (.inr rfl))
  · intro first member
    rw [announcing.tries first member]
    show _ = plannedTries config first.now
      (after.agent.versionAttempts + after.agent.versionSent.toNat)
    rw [attempts, sent]
    rfl

/-- What a deed adds to the attempts. -/
theorem tries_concat {deed : Deed} (before : Watch) {after : Watch} {start : Nat}
    (own : deed.tries =
      (decide (before.attempts < after.attempts) || !before.sent && after.sent))
    (sameTime : deed.now = before.vigil.now)
    (tries : triedAt deeds = plannedTries config start before.tries)
    (inTime : Watch.InTime config start before after) :
    triedAt (deeds ++ [deed]) = plannedTries config start after.tries := by
  unfold triedAt at tries ⊢
  rw [List.filter_append, List.map_append, tries]
  rcases inTime with ⟨attempts, sent⟩ | ⟨unsent, now, more⟩
  · have still : deed.tries = false := by
      rw [own, attempts, sent]
      simp
    rw [List.filter_singleton, still, Watch.tries, Watch.tries, attempts, sent]
    exact List.append_nil _
  · have count : before.tries = before.attempts := by
      rw [Watch.tries, unsent]
      rfl
    have tried : deed.tries = true := by
      rw [own, unsent]
      rw [count] at more
      unfold Watch.tries at more
      cases sent : after.sent with
      | true => simp
      | false =>
          rw [sent] at more
          simp only [Bool.toNat_false, Nat.add_zero] at more
          simp [more]
    rw [List.filter_singleton, tried, more, count, plannedTries, plannedTries, List.range_succ,
      List.map_append]
    congr 1
    show [deed.now] = [start + before.attempts * retryWait config]
    rw [sameTime, now]

section Act

variable {around : Surroundings} {task : Task} {first : Deed}
  (announcing : Announcing around.config deeds moment)
  (life : Life around.config link deeds moment) (sameTime : around.now = moment.now)

include announcing life

theorem tries_before (member : first ∈ (deeds ++ [moment.deed around task]).head?) :
    triedAt deeds = plannedTries around.config first.now moment.watch.tries := by
  cases deeds with
  | nil =>
      have blank := announcing.blank life.unstarted
      rw [Watch.tries, blank.attempts, blank.sent]
      rfl
  | cons earliest rest => exact announcing.tries first (by simpa using member)

include sameTime

/-- The agent starts with its first deed, and is on its plan before every other one. -/
theorem before_act (member : first ∈ (deeds ++ [moment.deed around task]).head?) :
    (moment.watch.started = false →
        moment.watch.Blank ∧ moment.watch.vigil.now = first.now) ∧
      (moment.watch.started = true → moment.watch.OnPlan around.config first.now) := by
  cases deeds with
  | nil =>
      have unstarted : moment.agent.started = false := life.unstarted
      obtain rfl : moment.deed around task = first := by simpa using member
      refine ⟨fun _ => ⟨announcing.blank unstarted, sameTime.symm⟩, fun started => ?_⟩
      rw [show moment.watch.started = false from unstarted] at started
      cases started
  | cons earliest rest =>
      have started : moment.agent.started = true := life.started_iff.2 (List.cons_ne_nil _ _)
      refine ⟨fun unstarted => ?_, fun _ => announcing.onPlan first (by simpa using member)⟩
      rw [show moment.watch.started = true from started] at unstarted
      cases unstarted

theorem act (atLeastOne : 1 ≤ around.config.versionAttemptsMax)
    (next : nextTask? moment.agent moment.link = some task) :
    Announcing around.config (deeds ++ [moment.deed around task])
      (moment.after (moment.deed around task)) := by
  have ready : moment.watch.Ready task := (comes_of_next next).ready moment.now
  have turned := life.turned sameTime next
  have planned {first : Deed} (member : first ∈ (deeds ++ [moment.deed around task]).head?) :
      (moment.after (moment.deed around task)).watch.OnPlan around.config first.now ∧
        Watch.InTime around.config first.now moment.watch
          (moment.after (moment.deed around task)).watch := by
    obtain ⟨blank, onPlan⟩ := announcing.before_act life sameTime member
    exact Watch.OnPlan.of_turned announcing.tidy ready blank onPlan atLeastOne turned
  constructor
  case tidy =>
    refine Watch.Tidy.turned (fun _ ofVersion => ofVersion.single) announcing.tidy ready
      ?_ ?_ ?_ turned
    · intro unsent _
      cases deeds with
      | nil => exact (announcing.blank life.unstarted).timeout
      | cons earliest rest => exact (announcing.onPlan earliest rfl).unsent unsent
    · exact fun unstarted _ => (announcing.blank unstarted).retry
    · rintro _ _ (other | other) <;> cases other
  case blank =>
    intro unstarted
    have started := (life.act around rfl sameTime next).started_iff.2 (by simp)
    rw [unstarted] at started
    cases started
  case onPlan => exact fun first member => (planned member).1
  case tries =>
    intro first member
    exact tries_concat moment.watch rfl sameTime (announcing.tries_before life member)
      (planned member).2

end Act

theorem of_life (life : Life config link deeds moment)
    (atLeastOne : 1 ≤ config.versionAttemptsMax) :
    Announcing config deeds moment := by
  induction life with
  | begin now unclosed =>
      refine ⟨⟨.empty now, nofun⟩, fun _ => ⟨rfl, rfl, rfl, rfl, rfl⟩, ?_, ?_⟩
      · exact fun first member => by cases member
      · exact fun first member => by cases member
  | act life around sameConfig sameTime next hypothesis =>
      subst sameConfig
      exact hypothesis.act life sameTime atLeastOne next
  | ring life runs isDue hypothesis =>
      exact hypothesis.of_due? (hypothesis.tidy.ring runs isDue) ⟨rfl, rfl, rfl, rfl, rfl⟩ id
        fun key ofVersion => hypothesis.tidy.orderly.due?_ring runs isDue ofVersion
  | meanwhile life relays released next found above may hypothesis =>
      exact hypothesis.of_due? (hypothesis.tidy.find above) ⟨rfl, rfl, rfl, rfl, rfl⟩ may.lasts
        fun key _ => rfl
  | pass life later forward answered ahead hypothesis =>
      exact hypothesis.of_due? (hypothesis.tidy.pass answered ahead) ⟨rfl, rfl, rfl, rfl, rfl⟩ id
        fun key ofVersion => hypothesis.tidy.due?_pass answered ofVersion

end Announcing

/-- On an open link that is not established, what is due next is due in time. -/
theorem Watch.OnPlan.now_le {start : Nat} {watch : Watch} (onPlan : watch.OnPlan config start)
    (tidy : watch.Tidy Alarm.OfVersion) (lasts : watch.closed = false)
    (waits : watch.phase ≠ .established) :
    watch.vigil.now ≤
      start + (config.versionAttemptsMax - 1) * config.versionRetryDelay +
        config.handshakeTimeout := by
  have few : watch.attempts ≤ config.versionAttemptsMax - 1 :=
    Nat.le_sub_one_of_lt (onPlan.another (.inl lasts))
  have tries : watch.attempts * retryWait config ≤
      (config.versionAttemptsMax - 1) * config.versionRetryDelay :=
    Nat.mul_le_mul few (Nat.min_le_left _ _)
  have wait : versionWait config ≤ config.handshakeTimeout := Nat.min_le_left _ _
  cases sent : watch.sent with
  | false =>
      have due := tidy.orderly.now_le (onPlan.retry lasts sent)
      omega
  | true =>
      have due := tidy.orderly.now_le (onPlan.timeout lasts sent waits).2
      omega

/-- Whatever the peer says and the transport takes: an agent tries to announce this node at most
as often as it is allowed to, after equal waits of its delay or thirty years.  When the time for
all attempts and for the version of the peer is over, its link is established or closed. -/
theorem announced_or_closed_in_time (life : Life config link deeds moment)
    (atLeastOne : 1 ≤ config.versionAttemptsMax) :
    ∀ first ∈ deeds.head?,
      triedAt deeds = plannedTries config first.now (triedAt deeds).length ∧
        (triedAt deeds).length ≤ config.versionAttemptsMax ∧
        (first.now + (config.versionAttemptsMax - 1) * config.versionRetryDelay +
            config.handshakeTimeout < moment.now →
          moment.agent.phase = .established ∨ moment.link.closed = true) := by
  intro first member
  have announcing := Announcing.of_life life atLeastOne
  have onPlan := announcing.onPlan first member
  have tries := announcing.tries first member
  have count : (triedAt deeds).length = moment.watch.tries := by
    rw [tries, plannedTries, List.length_map, List.length_range]
  refine ⟨?_, ?_, fun late => ?_⟩
  · rw [count]
    exact tries
  · rw [count, Watch.tries]
    cases sent : moment.watch.sent with
    | false => exact onPlan.few
    | true => exact onPlan.another (.inr sent)
  · by_contra neither
    obtain ⟨waits, lasts⟩ := not_or.1 neither
    have due := onPlan.now_le announcing.tidy (eq_false_of_ne_true lasts) waits
    exact absurd late (Nat.not_lt_of_le due)

/-! ## A transport that takes nothing -/

/-- A dialed host to which nothing gets through. -/
def mutedLink : Link :=
  { dialedLink with takes := false }

def patientWith (attempts retryDelay : Nat) : Surroundings :=
  let around := (hostAnnounced true []).around
  { around with
    config := { around.config with
      versionAttemptsMax := attempts
      versionRetryDelay := retryDelay } }

def threeTries : List Deed × Moment :=
  toldLife (patientWith 3 500) mutedLink
    [.act 0, .pass 500, .ring, .act 0, .pass 1000, .ring, .act 0, .act 0, .pass 5000]
    (by decide +kernel)

theorem announced_or_closed_in_time_threeTries :
    triedAt threeTries.1 = [0, 500, 1000] ∧ threeTries.2.link.closed = true := by
  have life : Life (patientWith 3 500).config mutedLink threeTries.1 threeTries.2 :=
    life_of_told (fun _ => rfl) _
  have first : threeTries.1.head?.map Deed.now = some 0 := by decide +kernel
  obtain ⟨deed, member, time⟩ := Option.map_eq_some_iff.1 first
  obtain ⟨planned, few, inTime⟩ := announced_or_closed_in_time life (by decide) deed member
  have count : (triedAt threeTries.1).length = 3 := by decide +kernel
  rw [count, time] at planned
  refine ⟨planned, (inTime ?_).resolve_left (by decide +kernel)⟩
  rw [time]
  decide +kernel

def patientForLong : List Deed × Moment :=
  toldLife (patientWith 2 (Timers.longestWait + 1)) mutedLink
    [.act 0, .pass 946080000000, .ring, .act 0] (by decide +kernel)

/-- An agent tries again after thirty years, even if it is told to wait longer. -/
theorem triedAt_patientForLong :
    ∃ config deeds moment, Life config mutedLink deeds moment ∧
      1 ≤ config.versionAttemptsMax ∧ deeds.head?.map Deed.now = some 0 ∧
      triedAt deeds ≠
        (List.range (triedAt deeds).length).map fun attempt =>
          attempt * config.versionRetryDelay := by
  refine ⟨(patientWith 2 (Timers.longestWait + 1)).config, patientForLong.1, patientForLong.2,
    life_of_told (fun _ => rfl) _, by decide, by decide +kernel, ?_⟩
  rw [show triedAt patientForLong.1 = [0, 946080000000] by decide +kernel]
  decide

end PeerOverlay.Agent
