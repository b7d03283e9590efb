import Mathlib.Data.List.Perm.Basic
import Mathlib.Tactic.Common
import PeerOverlay.Proofs.Timers.Running

/-!
# Timers while time passes

When time passes, the timers that are due next ring, then those that are due next after that, until
none is due any more.  What a timer delivers in the long run is told by the moment at which it is
due and by the time after which it rings again.  Of this, the passing of time delivers just what is
due before its end, and leaves the rest to the timers that run on.
-/

namespace PeerOverlay

open Timers (longestWait)

/-- The moments before a horizon at which something happens that happens at a first moment, and
again after every wait from then on. -/
def moments (first : Nat) (wait? : Option Nat) (horizon : Nat) : List Nat :=
  (List.range horizon).filter fun moment =>
    match wait? with
    | none => moment = first
    | some wait => first ≤ moment ∧ wait ∣ moment - first

/-- What a timer delivers before a horizon, if nothing stops it. -/
def Alarm.deliveries {ε : Type} (alarm : Alarm ε) (horizon : Nat) : List (Nat × ε) :=
  (moments alarm.due (alarm.period.map (min · longestWait)) horizon).map fun moment =>
    (moment, alarm.event)

variable {first horizon : Nat} {wait? : Option Nat}

/-! ## Moments -/

theorem mem_moments_none {moment : Nat} :
    moment ∈ moments first none horizon ↔ moment = first ∧ moment < horizon := by
  simp [moments, and_comm]

theorem mem_moments_some {wait moment : Nat} :
    moment ∈ moments first (some wait) horizon ↔
      moment < horizon ∧ first ≤ moment ∧ wait ∣ moment - first := by
  simp [moments]

theorem nodup_moments (first : Nat) (wait? : Option Nat) (horizon : Nat) :
    (moments first wait? horizon).Nodup :=
  List.nodup_range.filter _

theorem moments_eq_nil (beyond : horizon ≤ first) : moments first wait? horizon = [] := by
  rw [List.eq_nil_iff_forall_not_mem]
  intro moment member
  cases wait? with
  | none =>
      rw [mem_moments_none] at member
      omega
  | some wait =>
      rw [mem_moments_some] at member
      omega

/-- What is earlier than the first moment makes no difference to the horizon. -/
theorem moments_max {bound : Nat} (early : bound ≤ first) :
    moments first wait? (max bound horizon) = moments first wait? horizon := by
  rcases Nat.le_total bound horizon with less | more
  · rw [Nat.max_eq_right less]
  · rw [Nat.max_eq_left more, moments_eq_nil early, moments_eq_nil (Nat.le_trans more early)]

/-- The first moment, and the moments that follow one wait after it. -/
theorem moments_perm (ahead : first < horizon) (waits : ∀ wait ∈ wait?, 0 < wait) :
    (moments first wait? horizon).Perm
      (first :: wait?.toList.flatMap fun wait => moments (first + wait) wait? horizon) := by
  have distinct : (first ::
      wait?.toList.flatMap fun wait => moments (first + wait) wait? horizon).Nodup := by
    cases wait? with
    | none => exact List.nodup_singleton first
    | some wait =>
        have positive := waits wait rfl
        simp only [Option.toList_some, List.flatMap_singleton, List.nodup_cons]
        refine ⟨fun member => ?_, nodup_moments _ _ _⟩
        rw [mem_moments_some] at member
        omega
  refine (List.perm_ext_iff_of_nodup (nodup_moments _ _ _) distinct).2 fun moment => ?_
  cases wait? with
  | none =>
      rw [mem_moments_none]
      simp only [Option.toList_none, List.flatMap_nil, List.mem_singleton]
      omega
  | some wait =>
      have positive := waits wait rfl
      simp only [Option.toList_some, List.flatMap_singleton, List.mem_cons, mem_moments_some]
      constructor
      · rintro ⟨near, notBefore, rounds, apart⟩
        cases rounds with
        | zero =>
            left
            omega
        | succ rounds =>
            rw [Nat.mul_succ] at apart
            exact .inr ⟨near, by omega, rounds, by omega⟩
      · rintro (rfl | ⟨near, notBefore, rounds, apart⟩)
        · exact ⟨ahead, Nat.le_refl _, by simp⟩
        · refine ⟨near, by omega, rounds + 1, ?_⟩
          rw [Nat.mul_succ]
          omega

namespace Timers

variable {κ ε : Type} [DecidableEq κ] {timers before between after : Timers κ ε}
  {alarm other : Alarm ε} {events later : List (Nat × ε)} {alarms : List (Alarm ε)}
  {now since until_ due : Nat}

/-! ## Timers in time -/

/-- Whether no timer is late, and none that rings again does so at once. -/
structure Timely (timers : Timers κ ε) (now : Nat) : Prop where
  sound : timers.Sound
  ahead : ∀ alarm ∈ timers.running, now ≤ alarm.due
  waits : ∀ alarm ∈ timers.running, ∀ period ∈ alarm.period, 0 < period

theorem timely_empty (now : Nat) : (empty : Timers κ ε).Timely now where
  sound := sound_empty
  ahead := fun _ member => absurd member List.not_mem_nil
  waits := fun _ member => absurd member List.not_mem_nil

omit [DecidableEq κ] in
/-- What the running timers deliver, each before a horizon that is told by its number. -/
def future (timers : Timers κ ε) (horizon : Nat → Nat) : List (Nat × ε) :=
  timers.running.flatMap fun alarm => alarm.deliveries (horizon alarm.number)

omit [DecidableEq κ] in
/-- A timer delivers its event when it is due, and then what it delivers as it runs on. -/
theorem deliveries_perm (timers : Timers κ ε) (ahead : alarm.due < horizon)
    (waits : ∀ period ∈ alarm.period, 0 < period) :
    (alarm.deliveries horizon).Perm ((alarm.due, alarm.event) ::
      (timers.again? alarm alarm.due).toList.flatMap fun again => again.deliveries horizon) := by
  have bounded : ∀ wait ∈ alarm.period.map (min · longestWait), 0 < wait := by
    intro wait member
    obtain ⟨period, periodic, rfl⟩ := Option.map_eq_some_iff.1 member
    exact Nat.lt_min.2 ⟨waits period periodic, by decide⟩
  refine ((moments_perm ahead bounded).map _).trans (List.Perm.of_eq ?_)
  rw [List.map_cons]
  congr 1
  unfold again? Alarm.deliveries
  cases periodic : alarm.period with
  | none => rfl
  | some period => simp

namespace Sound

/-- The timer with a number, and all others. -/
theorem running_perm (sound : timers.Sound) (member : alarm ∈ timers.running) :
    timers.running.Perm (alarm :: timers.running.filter (·.number ≠ alarm.number)) := by
  have distinct : timers.running.Nodup := sound.numbers.of_map
  refine (List.perm_ext_iff_of_nodup distinct ?_).2 fun other => ?_
  · rw [List.nodup_cons]
    exact ⟨by simp, distinct.filter _⟩
  · rw [List.mem_cons, List.mem_filter, decide_eq_true_eq]
    constructor
    · intro runs
      by_cases same : other.number = alarm.number
      · exact .inl (List.inj_on_of_nodup_map sound.numbers runs member same)
      · exact .inr ⟨runs, same⟩
    · rintro (rfl | ⟨runs, -⟩)
      · exact member
      · exact runs

end Sound

/-! ## Ringing at one moment -/

/-- What has become of timers after some of them have rung at a moment. -/
structure Rings (before after : Timers κ ε) (events : List (Nat × ε)) (now : Nat)
    (alarms : List (Alarm ε)) : Prop where
  timely : after.Timely now
  registered : after.registered = before.registered
  times : ∀ event ∈ events, event.1 = now
  silent : ∀ alarm ∈ after.running,
    now < alarm.due ∨ alarm ∈ before.running ∧ alarm.number ∉ alarms.map Alarm.number
  delivered : ∀ horizon : Nat → Nat, (∀ number, now < horizon number) →
    (events ++ after.future horizon).Perm (before.future horizon)

namespace Timely

/-- What runs when a timer has rung are the others and the timer itself, if it rings again. -/
theorem mem_running_ring (timely : timers.Timely now) (member : alarm ∈ timers.running) :
    other ∈ (timers.ring alarm.number now).2.running ↔
      (other ∈ timers.running ∧ other.number ≠ alarm.number) ∨
        other ∈ timers.again? alarm now := by
  rw [timely.sound.ring_eq member, List.mem_append, List.mem_filter, decide_eq_true_eq,
    Option.mem_toList, Option.mem_def]

/-- A timer that rings again does so later. -/
theorem lt_of_again (timely : timers.Timely now) (member : alarm ∈ timers.running)
    (again : other ∈ timers.again? alarm now) : now < other.due := by
  obtain ⟨period, periodic, rfl⟩ := Option.map_eq_some_iff.1 again
  have positive := timely.waits alarm member period periodic
  have long : 0 < longestWait := by decide
  show now < now + min period longestWait
  omega

theorem ring (timely : timers.Timely now) (member : alarm ∈ timers.running) :
    (timers.ring alarm.number now).2.Timely now where
  sound := timely.sound.ring member now
  ahead := by
    intro other rings
    rcases (timely.mem_running_ring member).1 rings with ⟨runs, -⟩ | again
    · exact timely.ahead other runs
    · exact Nat.le_of_lt (timely.lt_of_again member again)
  waits := by
    intro other rings period periodic
    rcases (timely.mem_running_ring member).1 rings with ⟨runs, -⟩ | again
    · exact timely.waits other runs period periodic
    · obtain ⟨_, _, rfl⟩ := Option.map_eq_some_iff.1 again
      exact timely.waits alarm member period periodic

/-- A timer that is due delivers its event and runs on as it is said to. -/
theorem rings (timely : timers.Timely now) (member : alarm ∈ timers.running)
    (isDue : alarm.due = now) :
    Rings timers (timers.ring alarm.number now).2 [(now, alarm.event)] now [alarm] where
  timely := timely.ring member
  registered := by rw [timely.sound.ring_eq member]
  times := by simp
  silent := by
    intro other runs
    rcases (timely.mem_running_ring member).1 runs with ⟨runs, different⟩ | again
    · exact .inr ⟨runs, by simpa using different⟩
    · exact .inl (timely.lt_of_again member again)
  delivered := by
    intro horizon ahead
    subst isDue
    have number : ∀ again ∈ (timers.again? alarm alarm.due).toList,
        again.number = alarm.number := fun again rings =>
      (of_mem_again? (Option.mem_toList.1 rings)).1
    have own := deliveries_perm timers (ahead alarm.number) (timely.waits alarm member)
    have parts := (timely.sound.running_perm member).flatMap_right
      fun other => other.deliveries (horizon other.number)
    rw [List.flatMap_cons] at parts
    refine List.Perm.trans ?_ ((own.symm.append_right _).trans parts.symm)
    rw [timely.sound.ring_eq member]
    unfold future
    dsimp only
    rw [List.flatMap_append, List.singleton_append, List.cons_append]
    refine List.Perm.cons _ (List.perm_append_comm.trans (List.Perm.append_right _ ?_))
    refine List.Perm.of_eq (List.flatMap_congr fun again rings => ?_)
    rw [number again rings]

end Timely

/-- Timers that ring one after another. -/
theorem Rings.trans {others : List (Alarm ε)} (one : Rings before between events now alarms)
    (rest : Rings between after later now others) :
    Rings before after (events ++ later) now (alarms ++ others) where
  timely := rest.timely
  registered := rest.registered.trans one.registered
  times := by
    intro event member
    rcases List.mem_append.1 member with early | late
    · exact one.times event early
    · exact rest.times event late
  silent := by
    intro alarm runs
    rw [List.map_append, List.mem_append, not_or]
    rcases rest.silent alarm runs with ahead | ⟨ran, absent⟩
    · exact .inl ahead
    · rcases one.silent alarm ran with ahead | ⟨runs, unheard⟩
      · exact .inl ahead
      · exact .inr ⟨runs, unheard, absent⟩
  delivered := by
    intro horizon ahead
    rw [List.append_assoc]
    exact ((rest.delivered horizon ahead).append_left _).trans (one.delivered horizon ahead)

theorem rings_ringAll (timely : timers.Timely now)
    (due : ∀ alarm ∈ alarms, alarm ∈ timers.running ∧ alarm.due = now)
    (distinct : (alarms.map Alarm.number).Nodup) :
    Rings timers (timers.ringAll now alarms).2 (timers.ringAll now alarms).1 now alarms := by
  induction alarms generalizing timers with
  | nil =>
      exact ⟨timely, rfl, fun _ member => absurd member List.not_mem_nil,
        fun _ runs => .inr ⟨runs, List.not_mem_nil⟩, fun _ _ => List.Perm.refl _⟩
  | cons alarm rest hypothesis =>
      rw [List.map_cons, List.nodup_cons] at distinct
      obtain ⟨member, isDue⟩ := due alarm List.mem_cons_self
      -- The timers that are still to ring have not been touched.
      have others : ∀ other ∈ rest,
          other ∈ (timers.ring alarm.number now).2.running ∧ other.due = now := by
        intro other waits
        obtain ⟨runs, same⟩ := due other (List.mem_cons_of_mem _ waits)
        refine ⟨(timely.mem_running_ring member).2 (.inl ⟨runs, fun shared => ?_⟩), same⟩
        exact distinct.1 (shared ▸ List.mem_map_of_mem waits)
      have one := timely.rings member isDue
      have all := one.trans (hypothesis one.timely others distinct.2)
      have event : (timers.ring alarm.number now).1 = some alarm.event := by
        rw [timely.sound.ring_eq member]
      simpa [ringAll, event] using all

/-! ## What is due next -/

omit [DecidableEq κ] in
theorem nextDue?_eq_min? (timers : Timers κ ε) :
    timers.nextDue? = (timers.running.map Alarm.due).min? := by
  have step (running : List (Alarm ε)) (earliest : Nat) :
      running.foldl (fun earliest alarm => some (earliest.elim alarm.due (min alarm.due)))
        (some earliest) = some ((running.map Alarm.due).foldl min earliest) := by
    induction running generalizing earliest with
    | nil => rfl
    | cons alarm rest hypothesis =>
        rw [List.foldl_cons, Option.elim_some, hypothesis, List.map_cons, List.foldl_cons,
          Nat.min_comm]
  unfold nextDue?
  cases timers.running with
  | nil => rfl
  | cons alarm rest =>
      rw [List.foldl_cons, Option.elim_none, step]
      rfl

omit [DecidableEq κ] in
theorem nextDue?_eq_none (silent : timers.nextDue? = none) : timers.running = [] := by
  rw [nextDue?_eq_min?, List.min?_eq_none_iff, List.map_eq_nil_iff] at silent
  exact silent

omit [DecidableEq κ] in
theorem nextDue?_eq_some (next : timers.nextDue? = some due) :
    (∃ alarm ∈ timers.running, alarm.due = due) ∧ ∀ alarm ∈ timers.running, due ≤ alarm.due := by
  rw [nextDue?_eq_min?, List.min?_eq_some_iff] at next
  exact ⟨List.mem_map.1 next.1, fun alarm runs => next.2 _ (List.mem_map_of_mem runs)⟩

omit [DecidableEq κ] in
theorem dueAlarms_perm (timers : Timers κ ε) (now : Nat) :
    (timers.dueAlarms now).Perm (timers.running.filter (·.due ≤ now)) :=
  List.mergeSort_perm ..

/-! ## Time -/

/-- What has become of timers when time has passed from one moment up to just before another. -/
structure Elapses (before after : Timers κ ε) (events : List (Nat × ε)) (since until_ : Nat) :
    Prop where
  order : since ≤ until_
  timely : after.Timely until_
  registered : after.registered = before.registered
  times : ∀ event ∈ events, since ≤ event.1 ∧ event.1 < until_
  sorted : events.Pairwise fun earlier later => earlier.1 ≤ later.1
  delivered : ∀ horizon : Nat → Nat, (∀ number, until_ ≤ horizon number) →
    (events ++ after.future horizon).Perm (before.future horizon)

namespace Elapses

/-- Nothing happens as long as no timer is due. -/
theorem idle (timely : timers.Timely until_) (order : since ≤ until_) :
    Elapses timers timers [] since until_ :=
  ⟨order, timely, rfl, fun _ member => absurd member List.not_mem_nil, List.Pairwise.nil,
    fun _ _ => List.Perm.refl _⟩

theorem trans {middle : Nat} (one : Elapses before between events since middle)
    (rest : Elapses between after later middle until_) :
    Elapses before after (events ++ later) since until_ where
  order := Nat.le_trans one.order rest.order
  timely := rest.timely
  registered := rest.registered.trans one.registered
  times := by
    intro event member
    have early := one.order
    have late := rest.order
    rcases List.mem_append.1 member with first | second
    · have within := one.times event first
      omega
    · have within := rest.times event second
      omega
  sorted := by
    refine List.pairwise_append.2 ⟨one.sorted, rest.sorted, fun event first other second => ?_⟩
    have early := one.times event first
    have late := rest.times other second
    omega
  delivered := by
    intro horizon ahead
    rw [List.append_assoc]
    refine ((rest.delivered horizon ahead).append_left _).trans (one.delivered horizon ?_)
    exact fun number => Nat.le_trans rest.order (ahead number)

end Elapses

namespace Timely

theorem of_ahead {moment : Nat} (timely : timers.Timely now)
    (ahead : ∀ alarm ∈ timers.running, moment ≤ alarm.due) : timers.Timely moment :=
  { timely with ahead := ahead }

/-- In one round, all timers ring that are due. -/
theorem elapses_round (timely : timers.Timely now) :
    Elapses timers (timers.ringAll now (timers.dueAlarms now)).2
      (timers.ringAll now (timers.dueAlarms now)).1 now (now + 1) := by
  have due : ∀ alarm, alarm ∈ timers.dueAlarms now ↔
      alarm ∈ timers.running ∧ alarm.due ≤ now := by
    intro alarm
    rw [(timers.dueAlarms_perm now).mem_iff, List.mem_filter, decide_eq_true_eq]
  have distinct : ((timers.dueAlarms now).map Alarm.number).Nodup := by
    rw [((timers.dueAlarms_perm now).map _).nodup_iff]
    exact timely.sound.numbers.sublist (List.filter_sublist.map _)
  have all := rings_ringAll timely
    (fun alarm rings => ⟨((due alarm).1 rings).1,
      Nat.le_antisymm ((due alarm).1 rings).2 (timely.ahead alarm ((due alarm).1 rings).1)⟩)
    distinct
  refine ⟨Nat.le_succ now, all.timely.of_ahead ?_, all.registered, ?_, ?_, all.delivered⟩
  · intro alarm runs
    rcases all.silent alarm runs with ahead | ⟨ran, unheard⟩
    · exact ahead
    · by_contra late
      exact unheard (List.mem_map_of_mem ((due alarm).2 ⟨ran, by omega⟩))
  · intro event member
    rw [all.times event member]
    omega
  · refine List.pairwise_of_forall_mem_list fun event first other second => ?_
    exact Nat.le_of_eq ((all.times event first).trans (all.times other second).symm)

/-- As many rounds as there are moments are enough for all timers that are due. -/
theorem elapses_advance {rounds : Nat} (timely : timers.Timely now) (ahead : now ≤ until_ + 1)
    (enough : until_ + 1 ≤ now + rounds) :
    Elapses timers (timers.advance until_ rounds).2 (timers.advance until_ rounds).1 now
      (until_ + 1) := by
  induction rounds generalizing timers now with
  | zero =>
      obtain rfl : now = until_ + 1 := by omega
      exact Elapses.idle timely (Nat.le_refl _)
  | succ rounds hypothesis =>
      unfold advance
      split
      · next silent =>
          refine Elapses.idle (timely.of_ahead ?_) ahead
          rw [nextDue?_eq_none silent]
          exact fun _ member => absurd member List.not_mem_nil
      · next due next =>
          obtain ⟨⟨first, runs, isDue⟩, earliest⟩ := nextDue?_eq_some next
          have notLate : now ≤ due := isDue ▸ timely.ahead first runs
          have atDue : timers.Timely due := timely.of_ahead earliest
          split
          · next near =>
              have round := (Elapses.idle atDue notLate).trans atDue.elapses_round
              exact round.trans (hypothesis round.timely (by omega) (by omega))
          · next far =>
              refine Elapses.idle (timely.of_ahead fun alarm runs => ?_) ahead
              have later := earliest alarm runs
              omega

/-- What passes is the time up to the end, and the moment at the end with it. -/
theorem elapses_pass (timely : timers.Timely now) (duration : Nat) :
    Elapses timers (timers.pass now duration).2 (timers.pass now duration).1 now
      (now + duration + 1) :=
  timely.elapses_advance (by omega) (by omega)

end Timely

end Timers

end PeerOverlay
