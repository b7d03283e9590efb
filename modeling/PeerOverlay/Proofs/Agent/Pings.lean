import PeerOverlay.Proofs.Agent.Alarms

/-!
# Pings that are not answered

An agent waits for the answer to each of its pings on its own.  When the time for one of them is
over, the agent closes the link, and it does so for no other reason.
-/

namespace PeerOverlay.Agent

/-- Whether a ping was sent at a time and no answer to it was handled since. -/
def Unanswered (deeds : List Deed) (nonce : UInt32) (sent : Nat) : Prop :=
  ∃ earlier ping later, deeds = earlier ++ ping :: later ∧ nonce ∈ ping.pings ∧
    ping.now = sent ∧ ∀ deed ∈ later, ¬deed.Hears nonce

/-- How long an agent waits for the answer to a ping. -/
def pingWait (config : Config) : Nat :=
  min config.pingTimeout Timers.longestWait

section Unanswered

variable {deeds : List Deed} {deed : Deed} {nonce : UInt32} {sent : Nat}

theorem not_unanswered_nil : ¬Unanswered [] nonce sent := by
  rintro ⟨earlier, ping, later, split, _⟩
  simp at split

theorem unanswered_concat :
    Unanswered (deeds ++ [deed]) nonce sent ↔
      (nonce ∈ deed.pings ∧ deed.now = sent) ∨
        Unanswered deeds nonce sent ∧ ¬deed.Hears nonce := by
  constructor
  · rintro ⟨earlier, ping, later, split, sends, time, silent⟩
    rcases List.eq_nil_or_concat later with rfl | ⟨between, last, rfl⟩
    · obtain ⟨rfl, same⟩ := List.append_inj' split rfl
      rw [List.head_eq_of_cons_eq same]
      exact .inl ⟨sends, time⟩
    · rw [List.concat_eq_append, ← List.cons_append, ← List.append_assoc] at split
      obtain ⟨rfl, same⟩ := List.append_inj' split rfl
      rw [List.head_eq_of_cons_eq same]
      refine .inr ⟨⟨earlier, ping, between, rfl, sends, time, fun tested member => ?_⟩, ?_⟩
      · exact silent tested (by simp [member])
      · exact silent last (by simp)
  · rintro (⟨sends, time⟩ | ⟨⟨earlier, ping, later, rfl, sends, time, silent⟩, unheard⟩)
    · exact ⟨deeds, deed, [], rfl, sends, time, fun _ member => absurd member List.not_mem_nil⟩
    · refine ⟨earlier, ping, later ++ [deed], by simp, sends, time, fun tested member => ?_⟩
      rcases List.mem_append.1 member with before | last
      · exact silent tested before
      · rw [List.mem_singleton.1 last]
        exact unheard

theorem unanswered_concat_of_quiet (unsaid : nonce ∉ deed.pings) (unheard : ¬deed.Hears nonce) :
    Unanswered (deeds ++ [deed]) nonce sent ↔ Unanswered deeds nonce sent := by
  rw [unanswered_concat]
  exact ⟨fun either => (either.resolve_left fun now => unsaid now.1).1,
    fun before => .inr ⟨before, unheard⟩⟩

theorem Unanswered.mem_pings (unanswered : Unanswered deeds nonce sent) :
    nonce ∈ deeds.flatMap Deed.pings := by
  obtain ⟨earlier, ping, later, rfl, sends, _⟩ := unanswered
  exact List.mem_flatMap.2 ⟨ping, by simp, sends⟩

theorem Unanswered.mem_times (unanswered : Unanswered deeds nonce sent) :
    sent ∈ deeds.map Deed.now := by
  obtain ⟨earlier, ping, later, rfl, _, rfl, _⟩ := unanswered
  exact List.mem_map.2 ⟨ping, by simp, rfl⟩

end Unanswered

/-! ## Tasks -/

def Alarm.IsPingTimeout (alarm : Alarm) : Prop :=
  ∃ nonce, alarm = .pingTimeout nonce

theorem Alarm.IsPingTimeout.single {alarm : Alarm} (isPing : alarm.IsPingTimeout) :
    alarm.single = true := by
  obtain ⟨nonce, rfl⟩ := isPing
  rfl

/-- What can come of a task that leaves the link open: a ping is sent, the answer to one has
come, or neither. -/
inductive Pinged (config : Config) (before after : Vigil Alarm) (pings : List UInt32)
    (heard : UInt32 → Prop) : Prop where
  | kept (silent : pings = []) (unheard : ∀ nonce, ¬heard nonce)
      (due : ∀ nonce, after.due? (.pingTimeout nonce) = before.due? (.pingTimeout nonce))
  | sent (nonce : UInt32) (one : pings = [nonce]) (unheard : ∀ nonce, ¬heard nonce)
      (due : ∀ tested, after.due? (.pingTimeout tested) =
        if tested = nonce then some (before.now + pingWait config)
        else before.due? (.pingTimeout tested))
  | answered (nonce : UInt32) (silent : pings = [])
      (isHeard : ∀ tested, heard tested ↔ tested = nonce)
      (due : ∀ tested, after.due? (.pingTimeout tested) =
        if tested = nonce then none else before.due? (.pingTimeout tested))

section Turned

variable {around : Surroundings} {before after : Watch} {task : Task} {pings : List UInt32}

theorem pings_of_tried {config : Config} (tried : Tried config before after) :
    after.pings = before.pings := by
  cases tried <;> rfl

theorem pinged_of_turned (tidy : before.Tidy Alarm.IsPingTimeout) (ready : before.Ready task)
    (turned : Turned around before task after) (lasts : after.closed = false)
    (queued : after.pings = before.pings ++ pings)
    (fresh : around.nonce ∈ pings → before.vigil.due? (.pingTimeout around.nonce) = none) :
    Pinged around.config before.vigil after.vigil pings
      fun nonce => before.received = true ∧ ∃ others, task = .message (.pong nonce) others := by
  have single : ∀ key : Alarm, key.IsPingTimeout → key.single = true := fun _ isPing =>
    isPing.single
  have isPing (nonce : UInt32) : (Alarm.pingTimeout nonce).IsPingTimeout := ⟨nonce, rfl⟩
  have notRetry : ¬Alarm.IsPingTimeout .versionRetry := by simp [Alarm.IsPingTimeout]
  have notTimeout : ¬Alarm.IsPingTimeout .versionTimeout := by simp [Alarm.IsPingTimeout]
  have unsaid (same : after.pings = before.pings) : pings = [] := by
    rw [same] at queued
    exact List.self_eq_append_right.1 queued
  cases turned with
  | started unstarted tried =>
      have begun : ({ before with started := true } : Watch).Tidy Alarm.IsPingTimeout :=
        tidy.of_same rfl id
      have same := pings_of_tried tried
      refine .kept (unsaid same) (by simp) fun nonce => ?_
      have kept := begun.due?_tried single (fun _ isPing => absurd isPing notTimeout)
        (fun isPing => absurd isPing notRetry) tried (isPing nonce) (by simp)
      exact kept
  | finished byRemote =>
      cases byRemote with
      | false =>
          rw [show (before.finish false).closed = before.closed from rfl, ready.finish rfl] at lasts
          cases lasts
      | true => cases lasts
  | stale isSingle unwanted =>
      refine .kept (unsaid rfl) (by simp) fun nonce => ?_
      exact tidy.due?_answer_of_unset (ready.alarm rfl) unwanted (isPing nonce)
  | retried wanted tried =>
      have rung := ready.alarm rfl
      have same := pings_of_tried tried
      refine .kept (unsaid same) (by simp) fun nonce => ?_
      rw [(tidy.answer rung).due?_tried single (fun _ isPing => absurd isPing notTimeout)
          (fun isPing => absurd isPing notRetry) tried (isPing nonce) (by simp),
        tidy.due?_answer rung (isPing nonce), if_neg (by simp)]
  | expired final wanted => cases lasts
  | skipped periodic =>
      refine .kept (unsaid rfl) (by simp) fun nonce => ?_
      exact Vigil.Orderly.due?_skip (ready.alarm rfl) (Watch.Tidy.not_watched single periodic)
        (isPing nonce)
  | pinged =>
      have unwatched : ¬Alarm.IsPingTimeout .connectivity := Watch.Tidy.not_watched single rfl
      have said : pings = [around.nonce] := (List.append_cancel_left queued).symm
      have unused : before.vigil.due? (.pingTimeout around.nonce) = none := fresh (by simp [said])
      refine .sent around.nonce said (by simp) fun tested => ?_
      rw [tidy.due?_ping (ready.alarm rfl) unwatched (fun _ => unused) (isPing tested)]
      simp only [Alarm.pingTimeout.injEq, pingWait]
  | unpinged => cases lasts
  | relayed => exact .kept (unsaid rfl) (by simp) fun nonce => rfl
  | ignored unheard =>
      refine .kept (unsaid rfl) ?_ fun nonce => rfl
      rintro nonce ⟨heard, others, same⟩
      cases same
      rw [unheard nonce rfl] at heard
      cases heard
  | @answered nonce others heard =>
      refine .answered nonce (unsaid rfl) ?_ fun tested => ?_
      · intro tested
        constructor
        · rintro ⟨_, others, same⟩
          cases same
          rfl
        · rintro rfl
          exact ⟨heard, others, rfl⟩
      · rw [tidy.due?_forget (ready.message rfl) (isPing tested)]
        simp only [Alarm.pingTimeout.injEq]
  | banned => cases lasts
  | refused refusal unheard => cases lasts
  | accepted unheard unsent =>
      refine .kept (unsaid rfl) ?_ fun nonce => ?_
      · rintro nonce ⟨_, others, same⟩
        cases same
      · refine (tidy.due?_forget (ready.message rfl) (isPing nonce)).trans ?_
        rw [if_neg (by simp)]
  | met unheard sent =>
      have received : ({ before.forget .versionTimeout with received := true } : Watch).Tidy
          Alarm.IsPingTimeout := (tidy.forget (ready.message rfl)).of_same rfl id
      refine .kept (unsaid rfl) ?_ fun nonce => ?_
      · rintro nonce ⟨_, others, same⟩
        cases same
      · refine (received.due?_establish single _ (isPing nonce)).trans ?_
        refine (tidy.due?_forget (ready.message rfl) (isPing nonce)).trans ?_
        rw [if_neg (by simp)]

theorem append_ne_of_head? {first rest other : String} (letter : Char)
    (begins : first.toList.head? = some letter) (differs : other.toList.head? ≠ some letter) :
    first ++ rest ≠ other := by
  rintro rfl
  rw [String.toList_append, List.head?_append, begins] at differs
  exact differs rfl

/-- No refusal of a version is mistaken for a ping without an answer. -/
theorem reason_ne_pingTimeout (refusal : Refusal) : refusal.reason ≠ "ping timeout" := by
  unfold Refusal.reason
  cases refusal with
  | incompatible version =>
      dsimp only
      rw [String.append_assoc, String.append_assoc, String.append_assoc]
      generalize toString protocolVersion.toNat ++ _ = rest
      exact append_ne_of_head? 'i' (by decide) (by decide)
  | otherGenesis genesisHash =>
      dsimp only
      rw [String.append_assoc]
      exact append_ne_of_head? 'd' (by decide) (by decide)
  | unexpectedAddress => decide

/-- An open link is only closed for a ping without an answer when the time for one is over. -/
theorem alarm_of_pingTimeout (turned : Turned around before task after)
    (lasts : before.closed = false) (unreasoned : before.reason = none)
    (closed : after.closed = true) (reason : after.reason = some "ping timeout") :
    ∃ nonce others, task = .alarm (.pingTimeout nonce) others ∧
      before.vigil.timers.isSet (.pingTimeout nonce) = true := by
  have open_ (watch : Watch) (same : watch.closed = before.closed) (shut : watch.closed = true) :
      False := by
    rw [same, lasts] at shut
    cases shut
  have for_ (watch : Watch) {text : String} (same : watch.reason = before.reason)
      (given : (watch.close text).reason = some "ping timeout") : text = "ping timeout" := by
    rw [show (watch.close text).reason = some (watch.reason.getD text) from rfl, same,
      unreasoned] at given
    exact Option.some.inj given
  have tries {config : Config} {begun : Watch} (tried : Tried config begun after)
      (sameClosed : begun.closed = before.closed) (sameReason : begun.reason = before.reason) :
      False := by
    cases tried with
    | gaveUp unsent going last =>
        have text := for_ { begun with attempts := begun.attempts + 1 } sameReason reason
        simp at text
    | _ => exact open_ _ sameClosed closed
  cases turned with
  | started unstarted tried => exact (tries tried rfl rfl).elim
  | retried wanted tried => exact (tries tried rfl rfl).elim
  | finished byRemote =>
      cases byRemote with
      | false => exact (open_ (before.finish false) rfl closed).elim
      | true =>
          have text := for_ { before with phase := .closed, vigil := before.vigil.rest }
            rfl reason
          simp at text
  | @expired alarm others text final wanted =>
      have text := for_ (before.answer alarm) rfl reason
      subst text
      cases alarm with
      | pingTimeout nonce => exact ⟨nonce, others, rfl, wanted⟩
      | versionTimeout => simp [Alarm.reason?] at final
      | _ => cases final
  | unpinged =>
      have text := for_ before.skip rfl reason
      simp at text
  | banned =>
      have text := for_ before rfl reason
      simp at text
  | refused refusal unheard =>
      exact (reason_ne_pingTimeout refusal (for_ (before.forget .versionTimeout) rfl
        reason)).elim
  | _ => exact (open_ _ rfl closed).elim

end Turned

/-! ## Lives -/

variable {config : Config} {link : Link} {deeds : List Deed} {moment : Moment}

/-- Whether an agent waits for the answers to its pings, and for nothing else of the kind. -/
def Awaits (config : Config) (deeds : List Deed) (vigil : Vigil Alarm) : Prop :=
  ∀ nonce due, vigil.due? (.pingTimeout nonce) = some due ↔
    ∃ sent, Unanswered deeds nonce sent ∧ due = sent + pingWait config

theorem Awaits.of_pinged {before after : Vigil Alarm} {deed : Deed}
    (awaits : Awaits config deeds before) (sameTime : deed.now = before.now)
    (new : ∀ nonce ∈ deed.pings, nonce ∉ deeds.flatMap Deed.pings)
    (pinged : Pinged config before after deed.pings deed.Hears) :
    Awaits config (deeds ++ [deed]) after := by
  intro nonce due
  have kept (same : after.due? (.pingTimeout nonce) = before.due? (.pingTimeout nonce))
      (unsaid : nonce ∉ deed.pings) (unheard : ¬deed.Hears nonce) :
      after.due? (.pingTimeout nonce) = some due ↔
        ∃ sent, Unanswered (deeds ++ [deed]) nonce sent ∧ due = sent + pingWait config := by
    simp only [unanswered_concat_of_quiet unsaid unheard]
    rw [same]
    exact awaits nonce due
  cases pinged with
  | kept silent unheard same =>
      exact kept (same nonce) (by simp [silent]) (unheard nonce)
  | sent own one unheard same =>
      by_cases isOwn : nonce = own
      · subst isOwn
        have mine : nonce ∈ deed.pings := by simp [one]
        rw [same nonce, if_pos rfl, ← sameTime]
        constructor
        · intro expires
          exact ⟨deed.now, unanswered_concat.2 (.inl ⟨mine, rfl⟩), (Option.some.inj expires).symm⟩
        · rintro ⟨sent, unanswered, rfl⟩
          rcases unanswered_concat.1 unanswered with ⟨_, rfl⟩ | ⟨before, _⟩
          · rfl
          · exact absurd before.mem_pings (new nonce mine)
      · exact kept ((same nonce).trans (if_neg isOwn)) (by simp [one, isOwn]) (unheard nonce)
  | answered own silent isHeard same =>
      by_cases isOwn : nonce = own
      · rw [same nonce, if_pos isOwn]
        refine ⟨fun expires => absurd expires (Option.some_ne_none due).symm, ?_⟩
        rintro ⟨sent, unanswered, _⟩
        rcases unanswered_concat.1 unanswered with ⟨said, _⟩ | ⟨_, unheard⟩
        · simp [silent] at said
        · exact absurd ((isHeard nonce).2 isOwn) unheard
      · exact kept ((same nonce).trans (if_neg isOwn)) (by simp [silent])
          fun heard => isOwn ((isHeard nonce).1 heard)

/-- Whether the alarms of the pings are in order, and those of an open link are awaited. -/
structure PingsAwaited (config : Config) (deeds : List Deed) (moment : Moment) : Prop where
  tidy : moment.watch.Tidy Alarm.IsPingTimeout
  awaited : moment.link.closed = false → Awaits config deeds moment.vigil

namespace PingsAwaited

theorem of_due? {after : Moment} (awaits : PingsAwaited config deeds moment)
    (tidy : after.watch.Tidy Alarm.IsPingTimeout)
    (lasts : after.link.closed = false → moment.link.closed = false)
    (same : ∀ nonce, after.vigil.due? (.pingTimeout nonce) =
      moment.vigil.due? (.pingTimeout nonce)) : PingsAwaited config deeds after where
  tidy := tidy
  awaited := fun isOpen nonce => by
    rw [same]
    exact awaits.awaited (lasts isOpen) nonce

/-- A nonce of which no ping was sent is not waited for. -/
theorem due?_of_new (awaits : PingsAwaited config deeds moment)
    (lasts : moment.link.closed = false) {nonce : UInt32}
    (new : nonce ∉ deeds.flatMap Deed.pings) : moment.vigil.due? (.pingTimeout nonce) = none := by
  cases waits : moment.vigil.due? (.pingTimeout nonce) with
  | none => rfl
  | some due =>
      obtain ⟨sent, unanswered, _⟩ := (awaits.awaited lasts nonce due).1 waits
      exact absurd unanswered.mem_pings new

theorem act {around : Surroundings} {task : Task}
    (awaits : PingsAwaited around.config deeds moment)
    (life : Life around.config link deeds moment) (sameTime : around.now = moment.now)
    (next : nextTask? moment.agent moment.link = some task)
    (new : ∀ nonce ∈ (moment.deed around task).pings, nonce ∉ deeds.flatMap Deed.pings) :
    PingsAwaited around.config (deeds ++ [moment.deed around task])
      (moment.after (moment.deed around task)) := by
  have ready : moment.watch.Ready task := (comes_of_next next).ready moment.now
  have turned := life.turned sameTime next
  have queued := pings_deed moment around task
  constructor
  · refine Watch.Tidy.turned (fun _ isPing => isPing.single) awaits.tidy ready nofun nofun ?_ turned
    intro lasts said _
    refine awaits.due?_of_new lasts (new around.nonce ?_)
    rw [queued] at said
    rw [List.append_cancel_left said]
    exact List.mem_singleton_self _
  · intro isOpen
    have lasts := (turned.of_lasts isOpen).1
    exact (awaits.awaited lasts).of_pinged sameTime new
      (pinged_of_turned awaits.tidy ready turned isOpen queued
        fun mine => awaits.due?_of_new lasts (new around.nonce mine))

theorem of_life (life : Life config link deeds moment)
    (distinct : (deeds.flatMap Deed.pings).Nodup) : PingsAwaited config deeds moment := by
  induction life with
  | begin now unclosed =>
      refine ⟨⟨.empty now, nofun⟩, fun _ nonce due => ⟨nofun, ?_⟩⟩
      rintro ⟨sent, unanswered, _⟩
      exact absurd unanswered not_unanswered_nil
  | act life around sameConfig sameTime next hypothesis =>
      rw [List.flatMap_append, List.nodup_append] at distinct
      obtain ⟨before, _, apart⟩ := distinct
      subst sameConfig
      refine (hypothesis before).act life sameTime next ?_
      intro nonce mine other
      exact apart nonce other nonce (by simpa using mine) rfl
  | ring life runs isDue hypothesis =>
      have awaits := hypothesis distinct
      exact awaits.of_due? (awaits.tidy.ring runs isDue) id fun nonce =>
        awaits.tidy.orderly.due?_ring runs isDue ⟨nonce, rfl⟩
  | meanwhile life relays released next found above may hypothesis =>
      have awaits := hypothesis distinct
      exact awaits.of_due? (awaits.tidy.find above) may.lasts fun nonce => rfl
  | pass life later forward answered ahead hypothesis =>
      have awaits := hypothesis distinct
      exact awaits.of_due? (awaits.tidy.pass answered ahead) id fun nonce =>
        awaits.tidy.due?_pass answered ⟨nonce, rfl⟩

/-- The link is closed for a ping exactly when the time for its answer is over. -/
theorem closes_iff {around : Surroundings} {task : Task}
    (awaits : PingsAwaited around.config deeds moment)
    (life : Life around.config link deeds moment) (sameTime : around.now = moment.now)
    (next : nextTask? moment.agent moment.link = some task) :
    (moment.deed around task).Closes "ping timeout" ↔
      ∃ nonce others sent, task = .alarm (.pingTimeout nonce) others ∧
        Unanswered deeds nonce sent ∧ around.now = sent + pingWait around.config := by
  have ready : moment.watch.Ready task := (comes_of_next next).ready moment.now
  have turned := life.turned sameTime next
  have isNow {nonce : UInt32} {others : List Alarm}
      (same : task = .alarm (.pingTimeout nonce) others) :
      moment.vigil.due? (.pingTimeout nonce) = some moment.now := by
    have rung : moment.agent.rung = .pingTimeout nonce :: others := ready.alarm same
    exact if_pos (show Alarm.pingTimeout nonce ∈ moment.agent.rung by simp [rung])
  constructor
  · rintro ⟨lasts, closed, reason⟩
    obtain ⟨nonce, others, same, wanted⟩ :=
      alarm_of_pingTimeout turned lasts (life.reason_of_lasts lasts) closed reason
    obtain ⟨sent, unanswered, expires⟩ := (awaits.awaited lasts nonce _).1 (isNow same)
    exact ⟨nonce, others, sent, same, unanswered, sameTime.trans expires⟩
  · rintro ⟨nonce, others, sent, rfl, unanswered, expires⟩
    have lasts : moment.link.closed = false := ready.lasts nofun rfl
    have wanted : moment.watch.vigil.timers.isSet (.pingTimeout nonce) = true := by
      refine (awaits.tidy.orderly.held _ ⟨nonce, rfl⟩).trans ?_
      exact congrArg Option.isSome (isNow rfl)
    have unreasoned : moment.watch.reason = none := life.reason_of_lasts lasts
    refine ⟨lasts, ?_⟩
    show (moment.after (moment.deed around _)).watch.closed = true ∧
      (moment.after (moment.deed around _)).watch.reason = some "ping timeout"
    generalize (moment.after (moment.deed around _)).watch = after at turned
    cases turned with
    | stale single unwanted =>
        rw [wanted] at unwanted
        cases unwanted
    | expired final _ =>
        cases final
        refine ⟨rfl, ?_⟩
        show some (moment.watch.reason.getD "ping timeout") = _
        rw [unreasoned]
        rfl
    | skipped periodic => cases periodic

end PingsAwaited

/-- Whatever the peer says and however time passes: as long as no two pings have the same nonce,
the agent closes its link for a ping without an answer exactly when it is as old as the agent
waits, which is its time to wait or thirty years.  On an open link such a ping never gets older,
and until then its timer runs or has just rung. -/
theorem ping_timeout_iff_unanswered (life : Life config link deeds moment)
    (distinct : (deeds.flatMap Deed.pings).Nodup) :
    EachDeed
        (fun earlier deed => deed.Closes "ping timeout" ↔
          ∃ nonce others sent, deed.task = .alarm (.pingTimeout nonce) others ∧
            Unanswered earlier nonce sent ∧ deed.now = sent + pingWait config)
        deeds ∧
      ∀ nonce sent, Unanswered deeds nonce sent → moment.link.closed = false →
        moment.now ≤ sent + pingWait config ∧
          ((.pingTimeout nonce ∈ moment.agent.rung ∧ moment.now = sent + pingWait config) ∨
            ∃ timer ∈ moment.agent.timers.running,
              timer.event = .pingTimeout nonce ∧ timer.due = sent + pingWait config) := by
  constructor
  · induction life with
    | begin now unclosed => exact eachDeed_nil
    | act life around sameConfig sameTime next hypothesis =>
        rw [List.flatMap_append, List.nodup_append] at distinct
        subst sameConfig
        exact eachDeed_concat.2 ⟨hypothesis distinct.1,
          (PingsAwaited.of_life life distinct.1).closes_iff life sameTime next⟩
    | ring life runs isDue hypothesis => exact hypothesis distinct
    | meanwhile life relays released next found above may hypothesis => exact hypothesis distinct
    | pass life later forward answered ahead hypothesis => exact hypothesis distinct
  · intro nonce sent unanswered lasts
    have awaits := PingsAwaited.of_life life distinct
    have orderly := awaits.tidy.orderly
    have waits : moment.vigil.due? (.pingTimeout nonce) = some (sent + pingWait config) :=
      (awaits.awaited lasts nonce _).2 ⟨sent, unanswered, rfl⟩
    refine ⟨orderly.now_le waits, ?_⟩
    unfold Vigil.due? at waits
    split at waits
    · next rings => exact .inl ⟨rings, Option.some.inj waits⟩
    · obtain ⟨timer, found, due⟩ := Option.map_eq_some_iff.1 waits
      exact .inr ⟨timer, orderly.mem_running found, orderly.event _ timer found, due⟩

/-! ## A host that does not answer -/

/-- A dialed host, with other times to wait. -/
def hostWith (pingTimeout connectivityCheckInterval announceAddrInterval : Nat) : Surroundings :=
  let around := (hostAnnounced true []).around
  { around with
    config := { around.config with
      pingTimeout := pingTimeout
      connectivityCheckInterval := connectivityCheckInterval
      announceAddrInterval := announceAddrInterval } }

/-- The first ping is answered in time, but then another answer comes again. -/
def hostStopsAnswering : List Happening :=
  hostGreets ++ [.pass 60000, .ring, .act 1, .deliver (.pong 1), .act 0,
    .pass 120000, .ring, .act 2, .deliver (.pong 1), .act 0, .pass 130000, .ring, .act 0]

def answersOnce : List Deed × Moment :=
  toldLife (hostWith 10000 60000 600000) dialedLink hostStopsAnswering (by decide +kernel)

theorem answersOnce_ne_nil : answersOnce.1 ≠ [] := by
  decide +kernel

theorem ping_timeout_hostStopsAnswering :
    answersOnce.1.flatMap Deed.pings = [1, 2] ∧
      ∃ nonce sent, Unanswered answersOnce.1.dropLast nonce sent ∧ 130000 = sent + 10000 := by
  have life : Life (hostWith 10000 60000 600000).config dialedLink answersOnce.1 answersOnce.2 :=
    life_of_told (fun _ => rfl) _
  have pings : answersOnce.1.flatMap Deed.pings = [1, 2] := by decide +kernel
  have distinct : (answersOnce.1.flatMap Deed.pings).Nodup := by
    rw [pings]
    decide
  have closes : (answersOnce.1.getLast answersOnce_ne_nil).Closes "ping timeout" := by
    decide +kernel
  have time : (answersOnce.1.getLast answersOnce_ne_nil).now = 130000 := by decide +kernel
  obtain ⟨nonce, others, sent, _, unanswered, expires⟩ :=
    ((ping_timeout_iff_unanswered life distinct).1.getLast answersOnce_ne_nil).1 closes
  exact ⟨pings, nonce, sent, unanswered, time.symm.trans expires⟩

/-- Two pings are sent, and then more than thirty years pass without an answer. -/
def hostIsGone : List Happening :=
  hostGreets ++ [.pass 900000000000, .ring, .act 1, .pass 1800000000000, .ring, .act 2,
    .pass 1846080000000, .ring, .act 0]

def waitsLong : List Deed × Moment :=
  toldLife (hostWith (Timers.longestWait + 1) 900000000000 (4 * Timers.longestWait)) dialedLink
    hostIsGone (by decide +kernel)

theorem waitsLong_ne_nil : waitsLong.1 ≠ [] := by
  decide +kernel

/-- An agent does not wait longer than thirty years for the answer to a ping, even if it is told
to. -/
theorem ping_timeout_waitsLong :
    ∃ config deeds moment, Life config dialedLink deeds moment ∧
      (deeds.flatMap Deed.pings).Nodup ∧
      ¬EachDeed
        (fun earlier deed => deed.Closes "ping timeout" ↔
          ∃ nonce others sent, deed.task = .alarm (.pingTimeout nonce) others ∧
            Unanswered earlier nonce sent ∧ deed.now = sent + config.pingTimeout)
        deeds := by
  have life : Life (hostWith (Timers.longestWait + 1) 900000000000
      (4 * Timers.longestWait)).config dialedLink waitsLong.1 waitsLong.2 :=
    life_of_told (fun _ => rfl) _
  refine ⟨_, waitsLong.1, waitsLong.2, life, ?_, fun each => ?_⟩
  · rw [show waitsLong.1.flatMap Deed.pings = [1, 2] by decide +kernel]
    decide
  · have closes : (waitsLong.1.getLast waitsLong_ne_nil).Closes "ping timeout" := by
      decide +kernel
    have time : (waitsLong.1.getLast waitsLong_ne_nil).now = 1846080000000 := by decide +kernel
    have times : 899999999999 ∉ waitsLong.1.dropLast.map Deed.now := by decide +kernel
    obtain ⟨nonce, others, sent, _, unanswered, expires⟩ :=
      (each.getLast waitsLong_ne_nil).1 closes
    have wait : (hostWith (Timers.longestWait + 1) 900000000000
        (4 * Timers.longestWait)).config.pingTimeout = 946080000001 := rfl
    rw [time, wait] at expires
    obtain rfl : sent = 899999999999 := by omega
    exact times unanswered.mem_times

end PeerOverlay.Agent
