import PeerOverlay.Proofs.Timers.Uses

/-!
# What timers deliver

What timers deliver can be read off what was done with them, without looking at the timers: every
timer that was set delivers its event whenever it is due, as long as it runs.  It runs until its
key is cleared or set anew, but for good if its key is taken before that.
-/

namespace PeerOverlay.Timers

variable {κ ε : Type} [DecidableEq κ]

/-- What is done while a timer runs that was set under a key. -/
def lifetime (key : κ) : List (Use κ ε) → List (Use κ ε)
  | [] => []
  | use :: later =>
      if use.stops key then []
      else if use.takes key then use :: later
      else use :: lifetime key later

omit [DecidableEq κ] in
/-- The first moment that has not come yet after some uses.  Time that passes brings all moments up
to its end. -/
def horizon (now : Nat) : List (Use κ ε) → Nat
  | [] => now
  | .pass duration :: later => max (now + duration + 1) (horizon (now + duration) later)
  | _ :: later => horizon now later

/-- A timer that is set: when it is due first, and how long it waits before it is due again. -/
structure Setting (κ ε : Type) where
  key : κ
  first : Nat
  wait? : Option Nat
  event : ε

omit [DecidableEq κ] in
/-- The timer that a use sets, if timers that are told to wait for some time wait for another time.
A periodic timer whose period is zero is none. -/
def Use.setting? (wait : Nat → Nat) (now : Nat) : Use κ ε → Option (Setting κ ε)
  | .setTimeout key delay event => some ⟨key, now + wait delay, none, event⟩
  | .setInterval key period event =>
      if period = 0 then none else some ⟨key, now + period, some (wait period), event⟩
  | _ => none

omit [DecidableEq κ] in
def Setting.deliveries (setting : Setting κ ε) (horizon : Nat) : List (Nat × ε) :=
  (moments setting.first setting.wait? horizon).map fun moment => (moment, setting.event)

/-- What is due while some things are done: each timer that is set delivers what is due in its
lifetime. -/
def deliveries (wait : Nat → Nat) (now : Nat) : List (Use κ ε) → List (Nat × ε)
  | [] => []
  | use :: later =>
      ((use.setting? wait now).toList.flatMap fun setting =>
          setting.deliveries (horizon now (lifetime setting.key later))) ++
        deliveries wait (now + use.duration) later

variable {timers : Timers κ ε} {clocked : Clocked κ ε} {alarm : Alarm ε} {key : κ}
  {use : Use κ ε} {uses later : List (Use κ ε)} {now number : Nat}

/-! ## The keys of timers -/

/-- The key that stands for a timer. -/
def owner? (timers : Timers κ ε) (number : Nat) : Option κ :=
  (timers.registered.rows.find? fun row => row.2 = number).map Prod.fst

theorem Sound.owner?_eq_some_iff (sound : timers.Sound) :
    timers.owner? number = some key ↔ timers.registered.get? key = some number := by
  rw [owner?, Option.map_eq_some_iff]
  constructor
  · rintro ⟨⟨name, stored⟩, found, rfl⟩
    have same : stored = number := by simpa using List.find?_some found
    exact (Table.mem_rows_iff _ _ _).1 (same ▸ List.mem_of_find?_eq_some found)
  · intro registered
    have member := (Table.mem_rows_iff _ _ _).2 registered
    cases found : timers.registered.rows.find? fun row => row.2 = number with
    | none => simpa using List.find?_eq_none.1 found _ member
    | some row =>
        obtain ⟨name, stored⟩ := row
        have same : stored = number := by simpa using List.find?_some found
        have listed := (Table.mem_rows_iff _ _ _).1 (List.mem_of_find?_eq_some found)
        exact ⟨_, rfl, sound.apart name key number (same ▸ listed) registered⟩

/-- A key that is touched no longer stands for a timer that was set before. -/
theorem Clocked.owner?_use (timely : clocked.Timely) (use : Use κ ε)
    (known : number < clocked.timers.next) :
    (clocked.use use).timers.owner? number =
      (clocked.timers.owner? number).filter fun key => !use.touches key := by
  have other : clocked.timers.next ≠ number := Nat.ne_of_gt known
  refine Option.ext fun key => ?_
  rw [(timely.use use).sound.owner?_eq_some_iff, Clocked.get?_use timely use key,
    Option.filter_eq_some_iff, timely.sound.owner?_eq_some_iff]
  cases use.touches key with
  | false => simp
  | true => cases use.sets key <;> simp [other]

/-! ## Timers that run on -/

/-- Clearing a key stops the timer that it stands for. -/
theorem Sound.running_clear (sound : timers.Sound) (key : κ) :
    (timers.clear key).running =
      timers.running.filter fun alarm => !(timers.owner? alarm.number).any (key = ·) := by
  have own (number : Nat) : (timers.owner? number).any (key = ·) = true ↔
      timers.registered.get? key = some number := by
    rw [← sound.owner?_eq_some_iff, Option.any_eq_true]
    simp
  unfold Timers.clear
  split
  · next absent =>
      refine (List.filter_eq_self.2 fun alarm _ => ?_).symm
      rw [Bool.not_eq_true', ← Bool.not_eq_true, own, absent]
      exact Option.some_ne_none _ ∘ Eq.symm
  · next number registered =>
      refine List.filter_congr fun alarm _ => ?_
      rw [Bool.eq_iff_iff, Bool.not_eq_true', ← Bool.not_eq_true (Option.any _ _), own, registered,
        decide_eq_true_iff, Option.some.injEq, ne_comm]

omit [DecidableEq κ] in
/-- The timer that starts to run when it is set. -/
def Use.alarm? (now number : Nat) : Use κ ε → Option (Alarm ε)
  | .setTimeout _ delay event =>
      some ⟨number, number, now + min delay longestWait, none, event⟩
  | .setInterval _ period event =>
      if period = 0 then none else some ⟨number, number, now + period, some period, event⟩
  | _ => none

omit [DecidableEq κ] in
theorem Use.deliveries_alarm? (use : Use κ ε) (now number horizon : Nat) :
    ((use.alarm? now number).toList.flatMap fun alarm => alarm.deliveries horizon) =
      (use.setting? (min · longestWait) now).toList.flatMap fun setting =>
        setting.deliveries horizon := by
  cases use with
  | setInterval key period event =>
      by_cases zero : period = 0
      · simp [alarm?, setting?, zero]
      · simp [alarm?, setting?, zero, Alarm.deliveries, Setting.deliveries]
  | _ => rfl

omit [DecidableEq κ] in
theorem Use.number_of_alarm? (member : alarm ∈ use.alarm? now number) : alarm.number = number := by
  cases use with
  | setTimeout key delay event => cases member; rfl
  | setInterval key period event =>
      by_cases zero : period = 0
      · simp [alarm?, zero] at member
      · simp only [alarm?, if_neg zero] at member
        cases member
        rfl
  | _ => cases member

omit [DecidableEq κ] in
theorem Use.eq_pass_or_still (use : Use κ ε) :
    (∃ duration, use = .pass duration) ∨ ∀ duration, use ≠ .pass duration := by
  cases use with
  | pass duration => exact .inl ⟨duration, rfl⟩
  | _ => exact .inr fun _ => nofun

/-- Nothing is delivered as long as no time passes. -/
theorem Clocked.use_of_still (clocked : Clocked κ ε) (still : ∀ duration, use ≠ .pass duration) :
    (clocked.use use).now = clocked.now ∧ (clocked.use use).delivered = clocked.delivered ∧
      use.duration = 0 := by
  cases use with
  | pass duration => exact absurd rfl (still duration)
  | _ => exact ⟨rfl, rfl, rfl⟩

/-- What runs after a use, time apart: the timers that are not stopped, and the one that is set. -/
theorem Clocked.running_use (timely : clocked.Timely)
    (still : ∀ duration, use ≠ .pass duration) :
    (clocked.use use).timers.running =
      (clocked.timers.running.filter fun alarm =>
        !(clocked.timers.owner? alarm.number).any use.stops) ++
        (use.alarm? clocked.now clocked.timers.next).toList := by
  cases use with
  | setTimeout key delay event =>
      rw [Clocked.use, setTimeout, running_set, timely.sound.running_clear]
      rfl
  | setInterval key period event =>
      rw [Clocked.use, setInterval, running_set, timely.sound.running_clear, Use.alarm?]
      by_cases zero : period = 0
      · rw [if_pos ⟨rfl, zero⟩, if_pos zero]
        exact (List.append_nil _).symm
      · rw [if_neg fun silent => zero silent.2, if_neg zero]
        rfl
  | clear key =>
      rw [Clocked.use, timely.sound.running_clear]
      exact (List.append_nil _).symm
  | takeFired key =>
      have none_ : (Use.takeFired key : Use κ ε).stops = fun _ => false := rfl
      simp [Clocked.use, Timers.takeFired, none_, Use.alarm?]
  | clearAll =>
      have all : (Use.clearAll : Use κ ε).stops = fun _ => true := rfl
      have owned (number : Nat) : clocked.timers.registered.values.contains number =
          (clocked.timers.owner? number).any fun _ => true := by
        rw [Bool.eq_iff_iff]
        simp [Table.values, Timers.owner?, List.find?_isSome]
      simp only [Clocked.use, Timers.clearAll, all, owned]
      exact (List.append_nil _).symm
  | pass duration => exact absurd rfl (still duration)

theorem Use.sets_of_setting? {wait : Nat → Nat} {setting : Setting κ ε}
    (found : use.setting? wait now = some setting) : use.sets setting.key = true := by
  cases use with
  | setTimeout key delay event =>
      cases found
      exact decide_eq_true rfl
  | setInterval key period event =>
      by_cases zero : period = 0
      · simp [setting?, zero] at found
      · simp only [setting?, if_neg zero] at found
        cases found
        exact decide_eq_true rfl
  | _ => cases found

/-- The key under which a timer is set stands for it. -/
theorem Clocked.owner?_of_setting? {wait : Nat → Nat} {setting : Setting κ ε}
    (timely : clocked.Timely) (found : use.setting? wait now = some setting) :
    (clocked.use use).timers.owner? clocked.timers.next = some setting.key := by
  have sets := Use.sets_of_setting? found
  rw [(timely.use use).sound.owner?_eq_some_iff, Clocked.get?_use timely use,
    if_pos (Use.touches_of_sets sets), if_pos sets]

/-! ## What the running timers are about to deliver -/

/-- The first moment that does not come while a running timer lasts. -/
def horizonOf (timers : Timers κ ε) (now : Nat) (uses : List (Use κ ε)) (number : Nat) : Nat :=
  horizon now ((timers.owner? number).elim uses fun key => lifetime key uses)

omit [DecidableEq κ] in
theorem horizon_cons_of_still (still : ∀ duration, use ≠ .pass duration) :
    horizon now (use :: later) = horizon now later := by
  cases use with
  | pass duration => exact absurd rfl (still duration)
  | _ => rfl

/-- A timer that is stopped delivers nothing any more. -/
theorem horizonOf_cons_of_stopped
    (stopped : (timers.owner? number).any use.stops = true) :
    timers.horizonOf now (use :: later) number = now := by
  obtain ⟨key, owner, stops⟩ := (Option.any_eq_true _ _).1 stopped
  rw [horizonOf, owner, Option.elim_some, lifetime, if_pos stops, horizon]

/-- A use that does not stop a timer makes no difference to it. -/
theorem Clocked.horizonOf_use (timely : clocked.Timely) (still : ∀ duration, use ≠ .pass duration)
    (known : number < clocked.timers.next)
    (runs : (clocked.timers.owner? number).any use.stops = false) :
    (clocked.use use).timers.horizonOf now later number =
      clocked.timers.horizonOf now (use :: later) number := by
  unfold horizonOf
  rw [Clocked.owner?_use timely use known]
  cases owner : clocked.timers.owner? number with
  | none => exact (horizon_cons_of_still still).symm
  | some key =>
      rw [owner, Option.any_some] at runs
      cases taken : use.takes key with
      | true =>
          simp only [Option.filter_some, Option.elim_some, Use.touches, lifetime, runs, taken]
          exact (horizon_cons_of_still still).symm
      | false =>
          simp only [Option.filter_some, Option.elim_some, Use.touches, lifetime, runs, taken]
          exact (horizon_cons_of_still still).symm

theorem horizonOf_pass (timers : Timers κ ε) (duration : Nat) :
    timers.horizonOf now (.pass duration :: later) number =
      max (now + duration + 1) (timers.horizonOf (now + duration) later number) := by
  unfold horizonOf
  cases timers.owner? number <;> rfl

omit [DecidableEq κ] in
theorem deliveries_eq_nil {horizon : Nat} (beyond : horizon ≤ alarm.due) :
    alarm.deliveries horizon = [] := by
  rw [Alarm.deliveries, moments_eq_nil beyond, List.map_nil]

theorem flatMap_filter_eq {α β : Type} {values : List α} {keep : α → Bool} {some_ all : α → List β}
    (kept : ∀ value ∈ values, keep value = true → some_ value = all value)
    (dropped : ∀ value ∈ values, keep value = false → all value = []) :
    (values.filter keep).flatMap some_ = values.flatMap all := by
  induction values with
  | nil => rfl
  | cons value rest hypothesis =>
      have others := hypothesis (fun other member => kept other (List.mem_cons_of_mem _ member))
        (fun other member => dropped other (List.mem_cons_of_mem _ member))
      cases keeps : keep value with
      | true =>
          rw [List.filter_cons_of_pos keeps, List.flatMap_cons, List.flatMap_cons, others,
            kept value List.mem_cons_self keeps]
      | false =>
          rw [List.filter_cons_of_neg (Bool.not_eq_true _ ▸ keeps), others, List.flatMap_cons,
            dropped value List.mem_cons_self keeps, List.nil_append]

/-- What is due after a use, time apart, was due before, or is delivered by the timer that is
set. -/
theorem Clocked.future_use (timely : clocked.Timely) (still : ∀ duration, use ≠ .pass duration) :
    (clocked.use use).timers.future ((clocked.use use).timers.horizonOf clocked.now later) =
      clocked.timers.future (clocked.timers.horizonOf clocked.now (use :: later)) ++
        (use.setting? (min · longestWait) clocked.now).toList.flatMap fun setting =>
          setting.deliveries (horizon clocked.now (lifetime setting.key later)) := by
  unfold future
  rw [Clocked.running_use timely still, List.flatMap_append]
  congr 1
  · refine flatMap_filter_eq (fun alarm runs goesOn => ?_) (fun alarm runs stopped => ?_)
    · rw [Clocked.horizonOf_use timely still (timely.sound.below alarm runs)
        (Bool.not_eq_true' _ ▸ goesOn)]
    · refine deliveries_eq_nil ?_
      rw [horizonOf_cons_of_stopped (by simpa using stopped)]
      exact timely.ahead alarm runs
  · trans (use.alarm? clocked.now clocked.timers.next).toList.flatMap fun alarm =>
      alarm.deliveries ((clocked.use use).timers.horizonOf clocked.now later clocked.timers.next)
    · refine List.flatMap_congr fun alarm new => ?_
      rw [Use.number_of_alarm? (Option.mem_toList.1 new)]
    · rw [Use.deliveries_alarm?]
      refine List.flatMap_congr fun setting sets => ?_
      rw [horizonOf, Clocked.owner?_of_setting? timely (Option.mem_toList.1 sets),
        Option.elim_some]

/-- Time that passes delivers what is due before its end, and leaves the rest. -/
theorem Clocked.future_pass (timely : clocked.Timely) (duration : Nat) (later : List (Use κ ε)) :
    ((clocked.timers.pass clocked.now duration).1 ++
      (clocked.use (.pass duration)).timers.future
        ((clocked.use (.pass duration)).timers.horizonOf (clocked.now + duration) later)).Perm
      (clocked.timers.future (clocked.timers.horizonOf clocked.now (.pass duration :: later))) := by
  have passed := Timers.Timely.elapses_pass timely duration
  refine List.Perm.trans (List.Perm.of_eq ?_) (passed.delivered _ fun number => ?_)
  · congr 1
    refine List.flatMap_congr fun alarm runs => ?_
    rw [horizonOf_pass, Alarm.deliveries, Alarm.deliveries,
      moments_max (passed.timely.ahead alarm runs)]
    unfold horizonOf owner?
    rw [Clocked.use, passed.registered]
  · rw [horizonOf_pass]
    exact Nat.le_max_left _ _

/-! ## Everything that is delivered -/

/-- What is delivered in the end was delivered before, is delivered by the timers that run, or by
timers that are set later. -/
theorem Clocked.delivered_perm (timely : clocked.Timely) (uses : List (Use κ ε)) :
    (clocked.useAll uses).delivered.Perm (clocked.delivered ++
      (clocked.timers.future (clocked.timers.horizonOf clocked.now uses) ++
        deliveries (min · longestWait) clocked.now uses)) := by
  induction uses generalizing clocked with
  | nil =>
      have none_ : clocked.timers.future (clocked.timers.horizonOf clocked.now []) = [] := by
        refine List.flatMap_eq_nil_iff.2 fun alarm runs => deliveries_eq_nil ?_
        rw [horizonOf]
        cases clocked.timers.owner? alarm.number <;> exact timely.ahead alarm runs
      rw [none_, deliveries, List.append_nil, List.append_nil]
      exact List.Perm.refl _
  | cons use later hypothesis =>
      refine (hypothesis (timely.use use)).trans ?_
      rcases use.eq_pass_or_still with ⟨duration, rfl⟩ | still
      · have parts := (Clocked.future_pass timely duration later).append_right
          (deliveries (min · longestWait) (clocked.now + duration) later)
        rw [List.append_assoc] at parts
        show (clocked.delivered ++ _ ++ _).Perm _
        rw [List.append_assoc]
        exact parts.append_left _
      · obtain ⟨now, delivered, duration⟩ := clocked.use_of_still still
        rw [now, delivered, Clocked.future_use timely still, deliveries, duration, Nat.add_zero,
          List.append_assoc]

/-- Events are delivered in the order of their times. -/
theorem Clocked.sorted_delivered (start : Nat) (uses : List (Use κ ε)) :
    let clocked := (Clocked.start start).useAll uses
    clocked.delivered.Pairwise (fun earlier later => earlier.1 ≤ later.1) ∧
      ∀ event ∈ clocked.delivered, event.1 ≤ clocked.now := by
  induction uses using List.reverseRecOn with
  | nil => exact ⟨List.Pairwise.nil, fun _ member => absurd member List.not_mem_nil⟩
  | append_singleton earlier last hypothesis =>
      obtain ⟨sorted, past⟩ := hypothesis
      rw [Clocked.useAll_concat]
      rcases last.eq_pass_or_still with ⟨duration, rfl⟩ | still
      · have timely := (Clocked.timely_start start).useAll earlier
        have passed := Timers.Timely.elapses_pass timely duration
        constructor
        · refine List.pairwise_append.2 ⟨sorted, passed.sorted, fun event old other new => ?_⟩
          exact Nat.le_trans (past event old) (passed.times other new).1
        · intro event member
          rcases List.mem_append.1 member with old | new
          · exact Nat.le_trans (past event old) (Nat.le_add_right _ _)
          · exact Nat.le_of_lt_succ (passed.times event new).2
      · obtain ⟨now, delivered, -⟩ := ((Clocked.start start).useAll earlier).use_of_still still
        dsimp only
        rw [now, delivered]
        exact ⟨sorted, past⟩

/-- Timers deliver exactly what is due, in order of time: a timer that is set at some moment with a
delay delivers its event once after the delay, one that is set with a period delivers it after one
period and again and again after that, up to the moment at which the timer is stopped, and no timer
waits for longer than the longest wait once it has begun to wait.  A key is set from the moment at
which a timer is set under it until it is cleared or taken. -/
theorem delivered_perm_deliveries (start : Nat) (uses : List (Use κ ε)) :
    let clocked := (Clocked.start start).useAll uses
    clocked.delivered.Perm (deliveries (min · longestWait) start uses) ∧
      clocked.delivered.Pairwise (fun earlier later => earlier.1 ≤ later.1) ∧
      (∀ key, clocked.timers.isSet key = isRegistered key uses) ∧
      ∃ keys : List κ, keys.Nodup ∧ (∀ key, key ∈ keys ↔ isRegistered key uses = true) ∧
        clocked.timers.size = keys.length := by
  intro clocked
  refine ⟨Clocked.delivered_perm (Clocked.timely_start start) uses,
    (Clocked.sorted_delivered start uses).1, isSet_useAll start uses,
    clocked.timers.registered.keys, clocked.timers.registered.distinct, fun key => ?_, ?_⟩
  · rw [← isSet_useAll start uses key]
    exact (Table.contains_iff _ _).symm
  · exact (List.length_map Prod.fst).symm

/-- A timer rings after thirty years, even if it is told to wait longer. -/
theorem delivered_after_thirty_years :
    let uses : List (Use Unit Unit) :=
      [.setTimeout () (longestWait + 1) (), .pass (longestWait + 1)]
    ((Clocked.start 0).useAll uses).delivered = [(longestWait, ())] ∧
      ¬ ((Clocked.start 0).useAll uses).delivered.Perm (deliveries id 0 uses) := by
  have rung : ((Clocked.start 0).useAll [Use.setTimeout () (longestWait + 1) (),
      .pass (longestWait + 1)]).delivered = [(longestWait, ())] := by decide +kernel
  refine ⟨rung, fun same => ?_⟩
  rw [rung] at same
  have due : (longestWait, ()) ∈ deliveries id 0 [Use.setTimeout () (longestWait + 1) (),
      .pass (longestWait + 1)] := same.subset (List.mem_singleton_self _)
  simp [deliveries, Use.setting?, Setting.deliveries, mem_moments_none] at due

end PeerOverlay.Timers
