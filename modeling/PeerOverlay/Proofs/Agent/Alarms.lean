import PeerOverlay.Proofs.Agent.Watch

/-!
# The alarms of an agent are in order

As long as an agent does not set an alarm that it waits for already, its alarms ring once and
are answered when they are due.  This is told of some watched alarms, so that what is said of
some of them does not depend on the others.
-/

namespace PeerOverlay.Agent

variable {watched : Alarm → Prop} {before after : Watch} {alarm tested : Alarm}

namespace Watch

/-- Whether the watched alarms are in order, and nobody waits for one in the end. -/
structure Tidy (watched : Alarm → Prop) (watch : Watch) : Prop where
  orderly : watch.vigil.Orderly watched
  resting : watch.phase = .closed → ∀ key, watched key → watch.vigil.due? key = none

namespace Tidy

/-! ## Single acts -/

theorem of_same (tidy : before.Tidy watched) (vigil : after.vigil = before.vigil)
    (phase : after.phase = .closed → before.phase = .closed) : after.Tidy watched where
  orderly := by
    rw [vigil]
    exact tidy.orderly
  resting := fun closed key isWatched => by
    rw [vigil]
    exact tidy.resting (phase closed) key isWatched

theorem close (tidy : before.Tidy watched) (reason : String) : (before.close reason).Tidy watched :=
  tidy.of_same rfl id

theorem wait (tidy : before.Tidy watched) {delay : Nat} (going : before.phase ≠ .closed)
    (fresh : watched alarm → before.vigil.due? alarm = none) :
    (before.wait alarm delay).Tidy watched where
  orderly := tidy.orderly.set fun isWatched => ⟨rfl, fresh isWatched⟩
  resting := fun closed => absurd closed going

theorem due?_wait (tidy : before.Tidy watched) {delay : Nat}
    (fresh : watched alarm → before.vigil.due? alarm = none) (isWatched : watched tested) :
    (before.wait alarm delay).vigil.due? tested =
      if tested = alarm then some (before.vigil.now + min delay Timers.longestWait)
      else before.vigil.due? tested :=
  tidy.orderly.due?_set (fun isWatched => ⟨rfl, fresh isWatched⟩) isWatched

theorem due?_beat (tidy : before.Tidy watched) {period : Nat} (unwatched : ¬watched alarm)
    (isWatched : watched tested) :
    (before.beat alarm period).vigil.due? tested = before.vigil.due? tested := by
  have other : tested ≠ alarm := by
    rintro rfl
    exact unwatched isWatched
  refine (tidy.orderly.due?_set (fun hit => absurd hit unwatched) isWatched).trans ?_
  rw [if_neg other]

theorem beat (tidy : before.Tidy watched) {period : Nat} (unwatched : ¬watched alarm) :
    (before.beat alarm period).Tidy watched where
  orderly := tidy.orderly.set fun hit => absurd hit unwatched
  resting := fun closed key isWatched =>
    (tidy.due?_beat unwatched isWatched).trans (tidy.resting closed key isWatched)

theorem due?_forget (tidy : before.Tidy watched) (quiet : before.vigil.rung = [])
    (isWatched : watched tested) :
    (before.forget alarm).vigil.due? tested =
      if tested = alarm then none else before.vigil.due? tested := by
  refine tidy.orderly.due?_forget (fun _ => ?_) isWatched
  rw [quiet]
  exact List.not_mem_nil

theorem forget (tidy : before.Tidy watched) (quiet : before.vigil.rung = []) :
    (before.forget alarm).Tidy watched where
  orderly := tidy.orderly.forget fun _ => by
    rw [quiet]
    exact List.not_mem_nil
  resting := fun closed key isWatched => by
    rw [tidy.due?_forget quiet isWatched, tidy.resting closed key isWatched, ite_self]

theorem due?_answer (tidy : before.Tidy watched) {others : List Alarm}
    (first : before.vigil.rung = alarm :: others) (isWatched : watched tested) :
    (before.answer alarm).vigil.due? tested =
      if tested = alarm then none else before.vigil.due? tested :=
  tidy.orderly.due?_answer first isWatched

theorem answer (tidy : before.Tidy watched) {others : List Alarm}
    (first : before.vigil.rung = alarm :: others) : (before.answer alarm).Tidy watched where
  orderly := tidy.orderly.answer first
  resting := fun closed key isWatched => by
    rw [tidy.due?_answer first isWatched, tidy.resting closed key isWatched, ite_self]

/-- An alarm that is not wanted any more is not waited for. -/
theorem due?_answer_of_unset (tidy : before.Tidy watched) {others : List Alarm}
    (first : before.vigil.rung = alarm :: others)
    (unset : before.vigil.timers.isSet alarm = false) (isWatched : watched tested) :
    (before.answer alarm).vigil.due? tested = before.vigil.due? tested := by
  rw [tidy.due?_answer first isWatched]
  split
  · next same =>
      subst same
      have held := tidy.orderly.held tested isWatched
      rw [unset] at held
      exact (Option.isNone_iff_eq_none.1 (Option.isSome_eq_false_iff.1 held.symm)).symm
  · rfl

theorem skip (tidy : before.Tidy watched) {others : List Alarm}
    (first : before.vigil.rung = alarm :: others) (unwatched : ¬watched alarm) :
    before.skip.Tidy watched where
  orderly := tidy.orderly.skip first unwatched
  resting := fun closed key isWatched =>
    (Vigil.Orderly.due?_skip first unwatched isWatched).trans (tidy.resting closed key isWatched)

section Ping

variable {others : List Alarm} {nonce : UInt32} {delay : Nat}
  (tidy : before.Tidy watched) (first : before.vigil.rung = alarm :: others)
  (unwatched : ¬watched alarm)
  (fresh : watched (.pingTimeout nonce) → before.vigil.due? (.pingTimeout nonce) = none)

include tidy first unwatched fresh

/-- When an unwatched alarm has rung, a ping is sent. -/
theorem ping (going : before.phase ≠ .closed) :
    (before.ping nonce delay).Tidy watched := by
  have skipped : ({ before.skip with pings := before.pings ++ [nonce] } : Watch).Tidy watched :=
    (tidy.skip first unwatched).of_same rfl id
  refine skipped.wait going fun isWatched => ?_
  exact (Vigil.Orderly.due?_skip first unwatched isWatched).trans (fresh isWatched)

theorem due?_ping (isWatched : watched tested) :
    (before.ping nonce delay).vigil.due? tested =
      if tested = .pingTimeout nonce then some (before.vigil.now + min delay Timers.longestWait)
      else before.vigil.due? tested := by
  have skipped : ({ before.skip with pings := before.pings ++ [nonce] } : Watch).Tidy watched :=
    (tidy.skip first unwatched).of_same rfl id
  have kept {key : Alarm} (isWatched : watched key) :
      before.skip.vigil.due? key = before.vigil.due? key :=
    Vigil.Orderly.due?_skip first unwatched isWatched
  have unused (isWatched : watched (.pingTimeout nonce)) :
      before.skip.vigil.due? (.pingTimeout nonce) = none :=
    (kept isWatched).trans (fresh isWatched)
  rw [Watch.ping, skipped.due?_wait unused isWatched, ← kept isWatched]
  rfl

end Ping

theorem finish (tidy : before.Tidy watched) (byRemote : Bool) :
    (before.finish byRemote).Tidy watched := by
  have vigil : (before.finish byRemote).vigil = before.vigil.rest := by
    unfold Watch.finish
    cases byRemote <;> rfl
  constructor
  · rw [vigil]
    exact tidy.orderly.rest
  · intro _ key _
    rw [vigil]
    exact Vigil.Orderly.due?_rest before.vigil key

section Single

variable (single : ∀ key, watched key → key.single = true)

include single

theorem not_watched (periodic : alarm.single = false) : ¬watched alarm := fun isWatched => by
  rw [single alarm isWatched] at periodic
  cases periodic

theorem establish (tidy : before.Tidy watched) (config : Config) :
    (before.establish config).Tidy watched := by
  have begun : ({ before with phase := .established } : Watch).Tidy watched :=
    tidy.of_same rfl fun other => by cases other
  exact (begun.beat (not_watched single rfl)).beat (not_watched single rfl)

theorem due?_establish (tidy : before.Tidy watched) (config : Config)
    (isWatched : watched tested) :
    (before.establish config).vigil.due? tested = before.vigil.due? tested := by
  have begun : ({ before with phase := .established } : Watch).Tidy watched :=
    tidy.of_same rfl fun other => by cases other
  refine ((begun.beat (not_watched single rfl)).due?_beat (not_watched single rfl)
    isWatched).trans ?_
  exact begun.due?_beat (not_watched single rfl) isWatched

/-! ## Tasks -/

theorem tried {config : Config} (tidy : before.Tidy watched)
    (timeout : before.sent = false → watched .versionTimeout →
      before.vigil.due? .versionTimeout = none)
    (retry : watched .versionRetry → before.vigil.due? .versionRetry = none)
    (tried : Tried config before after) : after.Tidy watched := by
  cases tried with
  | idle needless => exact tidy
  | announced unsent going unheard =>
      have begun : ({ before with sent := true, phase := .handshakeInFlight } : Watch).Tidy
          watched := tidy.of_same rfl fun other => by cases other
      exact begun.wait (fun other => by cases other) (timeout unsent)
  | established unsent going heard =>
      have announced : ({ before with sent := true } : Watch).Tidy watched := tidy.of_same rfl id
      exact establish single announced config
  | gaveUp unsent going last =>
      have counted : ({ before with attempts := before.attempts + 1 } : Watch).Tidy watched :=
        tidy.of_same rfl id
      exact counted.close _
  | again unsent going more =>
      have counted : ({ before with attempts := before.attempts + 1 } : Watch).Tidy watched :=
        tidy.of_same rfl id
      exact counted.wait going retry

/-- An attempt to announce this node sets no alarms but its own. -/
theorem due?_tried {config : Config} (tidy : before.Tidy watched)
    (timeout : before.sent = false → watched .versionTimeout →
      before.vigil.due? .versionTimeout = none)
    (retry : watched .versionRetry → before.vigil.due? .versionRetry = none)
    (tried : Tried config before after) (isWatched : watched tested)
    (other : tested ≠ .versionTimeout ∧ tested ≠ .versionRetry) :
    after.vigil.due? tested = before.vigil.due? tested := by
  cases tried with
  | idle needless => rfl
  | announced unsent going unheard =>
      have begun : ({ before with sent := true, phase := .handshakeInFlight } : Watch).Tidy
          watched := tidy.of_same rfl fun other => by cases other
      rw [begun.due?_wait (timeout unsent) isWatched, if_neg other.1]
  | established unsent going heard =>
      have announced : ({ before with sent := true } : Watch).Tidy watched := tidy.of_same rfl id
      exact due?_establish single announced config isWatched
  | gaveUp unsent going last => rfl
  | again unsent going more =>
      have counted : ({ before with attempts := before.attempts + 1 } : Watch).Tidy watched :=
        tidy.of_same rfl id
      rw [counted.due?_wait retry isWatched, if_neg other.2]

/-- Alarms stay in order in a task if it sets none that somebody waits for. -/
theorem turned {around : Surroundings} {task : Task} (tidy : before.Tidy watched)
    (ready : before.Ready task)
    (timeout : before.sent = false → watched .versionTimeout →
      before.vigil.due? .versionTimeout = none)
    (retry : before.started = false → watched .versionRetry →
      before.vigil.due? .versionRetry = none)
    (unused : before.closed = false → after.pings = before.pings ++ [around.nonce] →
      watched (.pingTimeout around.nonce) →
        before.vigil.due? (.pingTimeout around.nonce) = none)
    (turned : Turned around before task after) : after.Tidy watched := by
  cases turned with
  | started unstarted tried =>
      have begun : ({ before with started := true } : Watch).Tidy watched := tidy.of_same rfl id
      exact Tidy.tried single begun timeout (retry unstarted) tried
  | finished byRemote => exact tidy.finish byRemote
  | stale isSingle unwanted => exact tidy.answer (ready.alarm rfl)
  | retried wanted tried =>
      have rung := ready.alarm rfl
      refine Tidy.tried single (tidy.answer rung) ?_ ?_ tried
      · intro unsent isWatched
        rw [tidy.due?_answer rung isWatched, if_neg (by decide)]
        exact timeout unsent isWatched
      · intro isWatched
        rw [tidy.due?_answer rung isWatched, if_pos rfl]
  | expired final wanted => exact (tidy.answer (ready.alarm rfl)).close _
  | skipped periodic => exact tidy.skip (ready.alarm rfl) (not_watched single periodic)
  | pinged =>
      exact tidy.ping (ready.alarm rfl) (not_watched single rfl)
        (unused (ready.lasts nofun rfl) rfl) (ready.going nofun)
  | unpinged => exact (tidy.skip (ready.alarm rfl) (not_watched single rfl)).close _
  | relayed => exact tidy
  | ignored unheard => exact tidy
  | answered heard => exact tidy.forget (ready.message rfl)
  | banned => exact tidy.close _
  | refused refusal unheard => exact (tidy.forget (ready.message rfl)).close _
  | accepted unheard unsent =>
      have forgotten : (before.forget .versionTimeout).Tidy watched :=
        tidy.forget (ready.message rfl)
      exact forgotten.of_same rfl id
  | met unheard sent =>
      have received : ({ before.forget .versionTimeout with received := true } : Watch).Tidy
          watched := (tidy.forget (ready.message rfl)).of_same rfl id
      exact establish single received _

end Single

/-! ## Time and others -/

variable {moment : Moment}

theorem ring {timer : PeerOverlay.Alarm Alarm} (tidy : moment.watch.Tidy watched)
    (runs : timer ∈ moment.agent.timers.running) (isDue : timer.due ≤ moment.now) :
    (moment.ring timer.number).watch.Tidy watched where
  orderly := tidy.orderly.ring runs isDue
  resting := fun closed key isWatched =>
    (tidy.orderly.due?_ring runs isDue isWatched).trans (tidy.resting closed key isWatched)

theorem find {relays : List (List PeerAddress)} {released : Bool} {next : Nat} {found : Link}
    (tidy : moment.watch.Tidy watched) (above : moment.agent.timers.next ≤ next) :
    (moment.find relays released next found).watch.Tidy watched where
  orderly := tidy.orderly.skipNumbers above
  resting := tidy.resting

/-- When time passes, no watched alarm waits to be answered. -/
theorem not_mem_rung (tidy : moment.watch.Tidy watched)
    (answered : moment.agent.phase ≠ .closed → moment.agent.rung = [])
    (isWatched : watched tested) : tested ∉ moment.agent.rung := by
  by_cases closed : moment.agent.phase = .closed
  · exact (Vigil.Orderly.due?_eq_none_iff.1 (tidy.resting closed tested isWatched)).1
  · rw [answered closed]
    exact List.not_mem_nil

theorem due?_pass {later : Nat} (tidy : moment.watch.Tidy watched)
    (answered : moment.agent.phase ≠ .closed → moment.agent.rung = [])
    (isWatched : watched tested) :
    ({ moment with now := later } : Moment).vigil.due? tested = moment.vigil.due? tested := by
  have same : (moment.vigil.passTo later).due? tested = moment.vigil.due? tested :=
    Vigil.Orderly.due?_passTo (tidy.not_mem_rung answered isWatched)
  exact same

theorem pass {later : Nat} (tidy : moment.watch.Tidy watched)
    (answered : moment.agent.phase ≠ .closed → moment.agent.rung = [])
    (ahead : ∀ timer ∈ moment.agent.timers.running, later ≤ timer.due) :
    ({ moment with now := later } : Moment).watch.Tidy watched where
  orderly := tidy.orderly.passTo (fun _ isWatched => tidy.not_mem_rung answered isWatched) ahead
  resting := fun closed key isWatched =>
    (tidy.due?_pass answered isWatched).trans (tidy.resting closed key isWatched)

end Tidy

end Watch

end PeerOverlay.Agent
