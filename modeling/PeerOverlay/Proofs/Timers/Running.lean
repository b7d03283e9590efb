import Mathlib.Data.List.Nodup
import PeerOverlay.Timers

/-!
# Running timers

The running timer that a key stands for is told by its number.  As long as numbers are not
shared, what is done under one key leaves the timers of all other keys alone.
-/

namespace PeerOverlay.Timers

variable {κ ε : Type} [DecidableEq κ] {timers : Timers κ ε} {key tested : κ} {alarm : Alarm ε}
  {number : Nat}

/-- The running timer that a key stands for, if there is one. -/
def alarm? (timers : Timers κ ε) (key : κ) : Option (Alarm ε) :=
  (timers.registered.get? key).bind fun number =>
    timers.running.find? fun alarm => alarm.number = number

/-- Whether numbers tell timers from each other, and keys as well. -/
structure Sound (timers : Timers κ ε) : Prop where
  numbers : (timers.running.map Alarm.number).Nodup
  below : ∀ alarm ∈ timers.running, alarm.number < timers.next
  known : ∀ key number, timers.registered.get? key = some number → number < timers.next
  apart : ∀ key other number, timers.registered.get? key = some number →
    timers.registered.get? other = some number → key = other

theorem sound_empty : (empty : Timers κ ε).Sound where
  numbers := List.nodup_nil
  below := fun _ member => absurd member List.not_mem_nil
  known := fun _ _ found => by cases found
  apart := fun _ _ _ found _ => by cases found

/-! ## Running timers and their numbers -/

omit [DecidableEq κ] in
/-- Stopping one timer leaves every timer with another number. -/
theorem find?_stop {running : List (Alarm ε)} {stopped : Nat} (other : number ≠ stopped) :
    ((running.filter fun alarm => alarm.number ≠ stopped).find? fun alarm =>
        alarm.number = number) =
      running.find? fun alarm => alarm.number = number := by
  rw [List.find?_filter]
  congr 1
  funext alarm
  by_cases same : alarm.number = number
  · simp [same, other]
  · simp [same]

omit [DecidableEq κ] in
theorem find?_unused {running : List (Alarm ε)}
    (below : ∀ alarm ∈ running, alarm.number < number) :
    (running.find? fun alarm => alarm.number = number) = none := by
  rw [List.find?_eq_none]
  intro alarm member
  have smaller := below alarm member
  simp only [decide_eq_true_eq]
  omega

namespace Sound

theorem find?_of_mem (sound : timers.Sound) (member : alarm ∈ timers.running) :
    (timers.running.find? fun other => other.number = alarm.number) = some alarm := by
  cases found : timers.running.find? fun other => other.number = alarm.number with
  | none =>
      have absent := List.find?_eq_none.1 found alarm member
      simp at absent
  | some other =>
      have same : other.number = alarm.number := by simpa using List.find?_some found
      rw [List.inj_on_of_nodup_map sound.numbers (List.mem_of_find?_eq_some found) member same]

/-- A timer runs under a key if the key stands for its number. -/
theorem alarm?_eq_some_iff (sound : timers.Sound) :
    timers.alarm? key = some alarm ↔
      alarm ∈ timers.running ∧ timers.registered.get? key = some alarm.number := by
  rw [alarm?, Option.bind_eq_some_iff]
  constructor
  · rintro ⟨number, registered, found⟩
    have same : alarm.number = number := by simpa using List.find?_some found
    exact ⟨List.mem_of_find?_eq_some found, by rw [registered, same]⟩
  · rintro ⟨member, registered⟩
    exact ⟨alarm.number, registered, sound.find?_of_mem member⟩

/-- Timers that run on, with the keys that they have. -/
theorem of_fewer {after : Timers κ ε} (sound : timers.Sound)
    (running : after.running.Sublist timers.running)
    (registered : ∀ key number, after.registered.get? key = some number →
      timers.registered.get? key = some number)
    (next : timers.next ≤ after.next) : after.Sound where
  numbers := sound.numbers.sublist (running.map Alarm.number)
  below := fun alarm member =>
    Nat.lt_of_lt_of_le (sound.below alarm (running.subset member)) next
  known := fun key number found =>
    Nat.lt_of_lt_of_le (sound.known key number (registered key number found)) next
  apart := fun key other number first second =>
    sound.apart key other number (registered key number first) (registered other number second)

end Sound

/-! ## What is done under one key -/

/-- The timers other than the one of a key. -/
theorem mem_running_clear :
    alarm ∈ (timers.clear key).running ↔
      alarm ∈ timers.running ∧ timers.registered.get? key ≠ some alarm.number := by
  unfold clear
  split
  · next absent => simp [absent]
  · next number registered =>
      rw [registered, stop, List.mem_filter, decide_eq_true_iff, ne_comm, ne_eq, ne_eq,
        Option.some.injEq]

theorem find?_running_clear (other : timers.registered.get? key ≠ some number) :
    ((timers.clear key).running.find? fun alarm => alarm.number = number) =
      timers.running.find? fun alarm => alarm.number = number := by
  unfold clear
  split
  · rfl
  · next stopped registered =>
      refine find?_stop ?_
      rintro rfl
      exact other registered

theorem get?_clear (timers : Timers κ ε) (key tested : κ) :
    (timers.clear key).registered.get? tested =
      if tested = key then none else timers.registered.get? tested := by
  unfold clear
  split
  · next absent =>
      split
      · next same => rw [same, absent]
      · rfl
  · simp only [Table.get?_erase, eq_comm (a := key)]

theorem next_clear (timers : Timers κ ε) (key : κ) : (timers.clear key).next = timers.next := by
  unfold clear
  split <;> rfl

/-- Setting a timer clears its key first. -/
theorem running_set (timers : Timers κ ε) (key : κ) (now delay : Nat) (periodic : Bool)
    (event : ε) :
    (timers.set key now delay periodic event).running =
      if periodic ∧ delay = 0 then (timers.clear key).running
      else (timers.clear key).running ++
        [⟨timers.next, timers.next, now + delay,
          if periodic then some delay else none, event⟩] := by
  unfold set clear
  cases timers.registered.get? key <;> rfl

theorem get?_set (timers : Timers κ ε) (key : κ) (now delay : Nat) (periodic : Bool) (event : ε)
    (tested : κ) :
    (timers.set key now delay periodic event).registered.get? tested =
      if tested = key then some timers.next else timers.registered.get? tested := by
  simp only [set, Table.get?_insert, eq_comm (a := key)]

theorem get?_takeFired (timers : Timers κ ε) (key tested : κ) :
    (timers.takeFired key).2.registered.get? tested =
      if tested = key then none else timers.registered.get? tested := by
  simp only [takeFired, Table.get?_erase, eq_comm (a := key)]

theorem alarm?_takeFired (timers : Timers κ ε) (key tested : κ) :
    (timers.takeFired key).2.alarm? tested =
      if tested = key then none else timers.alarm? tested := by
  unfold alarm?
  rw [get?_takeFired]
  split <;> rfl

/-- What runs on when all keys are cleared are timers without a key. -/
theorem mem_running_clearAll :
    alarm ∈ timers.clearAll.running ↔
      alarm ∈ timers.running ∧ ∀ key, timers.registered.get? key ≠ some alarm.number := by
  have values : alarm.number ∈ timers.registered.values ↔
      ∃ key, timers.registered.get? key = some alarm.number := by
    constructor
    · intro member
      obtain ⟨⟨key, number⟩, row, rfl⟩ := List.mem_map.1 member
      exact ⟨key, (Table.mem_rows_iff _ _ _).1 row⟩
    · rintro ⟨key, registered⟩
      exact List.mem_map.2 ⟨(key, alarm.number), (Table.mem_rows_iff _ _ _).2 registered, rfl⟩
  simp [clearAll, values]

namespace Sound

theorem alarm?_clear (sound : timers.Sound) (key tested : κ) :
    (timers.clear key).alarm? tested = if tested = key then none else timers.alarm? tested := by
  unfold alarm?
  rw [get?_clear]
  split
  · rfl
  · next other =>
      cases registered : timers.registered.get? tested with
      | none => rfl
      | some number =>
          refine find?_running_clear fun same => other ?_
          exact sound.apart tested key number registered same

theorem alarm?_set (sound : timers.Sound) (key : κ) (now delay : Nat) (periodic : Bool)
    (event : ε) (tested : κ) :
    (timers.set key now delay periodic event).alarm? tested =
      if tested = key then
        if periodic ∧ delay = 0 then none
        else some ⟨timers.next, timers.next, now + delay, if periodic then some delay else none,
          event⟩
      else timers.alarm? tested := by
  have below : ∀ alarm ∈ (timers.clear key).running, alarm.number < timers.next :=
    fun alarm member => sound.below alarm (mem_running_clear.1 member).1
  unfold alarm?
  rw [get?_set, running_set]
  by_cases same : tested = key
  · rw [if_pos same, if_pos same, Option.bind_some]
    split
    · exact find?_unused below
    · rw [List.find?_append, find?_unused below]
      simp
  · rw [if_neg same, if_neg same]
    cases registered : timers.registered.get? tested with
    | none => rfl
    | some number =>
        have earlier : number < timers.next := sound.known tested number registered
        have kept : ((timers.clear key).running.find? fun alarm => alarm.number = number) =
            timers.running.find? fun alarm => alarm.number = number :=
          find?_running_clear fun shared =>
            same (sound.apart tested key number registered shared)
        rw [Option.bind_some, Option.bind_some]
        split
        · exact kept
        · rw [List.find?_append, kept, List.find?_singleton]
          simp [Nat.ne_of_gt earlier]

theorem clear (sound : timers.Sound) (key : κ) : (timers.clear key).Sound := by
  refine sound.of_fewer ?_ ?_ (Nat.le_of_eq (next_clear timers key).symm)
  · unfold Timers.clear
    split
    · exact List.Sublist.refl _
    · exact List.filter_sublist
  · intro tested number found
    rw [get?_clear] at found
    split at found
    · cases found
    · exact found

theorem set (sound : timers.Sound) (key : κ) (now delay : Nat) (periodic : Bool) (event : ε) :
    (timers.set key now delay periodic event).Sound := by
  have below : ∀ alarm ∈ (timers.clear key).running, alarm.number < timers.next :=
    fun alarm member => sound.below alarm (mem_running_clear.1 member).1
  constructor
  · rw [running_set]
    split
    · exact (sound.clear key).numbers
    · rw [List.map_append, List.nodup_append]
      refine ⟨(sound.clear key).numbers, List.nodup_singleton _, ?_⟩
      intro number old other new same
      obtain ⟨alarm, member, rfl⟩ := List.mem_map.1 old
      have smaller := below alarm member
      rw [same, List.mem_singleton.1 new] at smaller
      exact Nat.lt_irrefl _ smaller
  · intro alarm member
    show alarm.number < timers.next + 1
    rw [running_set] at member
    split at member
    · exact Nat.lt_succ_of_lt (below alarm member)
    · rcases List.mem_append.1 member with old | new
      · exact Nat.lt_succ_of_lt (below alarm old)
      · rw [List.mem_singleton.1 new]
        exact Nat.lt_succ_self _
  · intro tested number found
    show number < timers.next + 1
    rw [get?_set] at found
    split at found
    · cases found
      exact Nat.lt_succ_self _
    · exact Nat.lt_succ_of_lt (sound.known tested number found)
  · intro first second number atFirst atSecond
    rw [get?_set] at atFirst atSecond
    split at atFirst <;> split at atSecond
    · next here there => rw [here, there]
    · cases atFirst
      exact absurd (sound.known second _ atSecond) (Nat.lt_irrefl _)
    · cases atSecond
      exact absurd (sound.known first _ atFirst) (Nat.lt_irrefl _)
    · exact sound.apart first second number atFirst atSecond

theorem takeFired (sound : timers.Sound) (key : κ) : (timers.takeFired key).2.Sound := by
  refine sound.of_fewer (List.Sublist.refl _) ?_ (Nat.le_refl _)
  intro tested number found
  rw [get?_takeFired] at found
  split at found
  · cases found
  · exact found

theorem clearAll (sound : timers.Sound) : timers.clearAll.Sound :=
  sound.of_fewer List.filter_sublist (fun _ _ found => by cases found) (Nat.le_refl _)

end Sound

/-! ## Ringing -/

omit [DecidableEq κ] in
/-- A timer as it runs on after it has rung at a moment. -/
def again? (timers : Timers κ ε) (alarm : Alarm ε) (now : Nat) : Option (Alarm ε) :=
  alarm.period.map fun period =>
    { alarm with due := now + min period longestWait, rank := timers.next }

omit [DecidableEq κ] in
theorem of_mem_again? {again : Alarm ε} {now : Nat} (member : again ∈ timers.again? alarm now) :
    again.number = alarm.number ∧ again.event = alarm.event ∧ now ≤ again.due := by
  obtain ⟨period, waits, rfl⟩ := Option.map_eq_some_iff.1 member
  exact ⟨rfl, rfl, Nat.le_add_right _ _⟩

namespace Sound

/-- What a running timer delivers when it rings, and what is left of it. -/
theorem ring_eq (sound : timers.Sound) (member : alarm ∈ timers.running) (now : Nat) :
    timers.ring alarm.number now =
      (some alarm.event,
        { timers with
          running := timers.running.filter (·.number ≠ alarm.number) ++
            (timers.again? alarm now).toList
          next := timers.next + (timers.again? alarm now).toList.length }) := by
  unfold Timers.ring again?
  rw [sound.find?_of_mem member]
  cases waits : alarm.period <;> simp [waits]

/-- Only the key that stands for a timer finds out that it has rung. -/
theorem alarm?_ring (sound : timers.Sound) (member : alarm ∈ timers.running) (now : Nat)
    (tested : κ) :
    (timers.ring alarm.number now).2.alarm? tested =
      if timers.registered.get? tested = some alarm.number then timers.again? alarm now
      else timers.alarm? tested := by
  rw [sound.ring_eq member]
  unfold alarm?
  cases registered : timers.registered.get? tested with
  | none => rfl
  | some number =>
      rw [Option.bind_some, Option.bind_some, List.find?_append]
      by_cases same : number = alarm.number
      · have stopped : ((timers.running.filter fun other => other.number ≠ alarm.number).find?
            fun other => other.number = alarm.number) = none := by
          rw [List.find?_eq_none]
          intro other remains
          simpa using (List.mem_filter.1 remains).2
        rw [same, if_pos rfl, stopped, Option.none_or]
        cases rings : timers.again? alarm now with
        | none => rfl
        | some again => simp [(of_mem_again? rings).1]
      · have silent : ((timers.again? alarm now).toList.find? fun again =>
            again.number = number) = none := by
          rw [List.find?_eq_none]
          intro again rings
          rw [(of_mem_again? (Option.mem_toList.1 rings)).1]
          simpa using Ne.symm same
        rw [if_neg (fun hit => same (Option.some.inj hit)), find?_stop same, silent,
          Option.or_none]

theorem ring (sound : timers.Sound) (member : alarm ∈ timers.running) (now : Nat) :
    (timers.ring alarm.number now).2.Sound := by
  have one : ((timers.again? alarm now).toList.map Alarm.number).Nodup := by
    cases timers.again? alarm now with
    | none => exact List.nodup_nil
    | some again => exact List.nodup_singleton _
  rw [sound.ring_eq member]
  constructor
  · rw [List.map_append, List.nodup_append]
    refine ⟨sound.numbers.sublist (List.filter_sublist.map _), one, ?_⟩
    intro first old second new same
    obtain ⟨other, remains, rfl⟩ := List.mem_map.1 old
    obtain ⟨again, rings, rfl⟩ := List.mem_map.1 new
    have different := (List.mem_filter.1 remains).2
    rw [same, (of_mem_again? (Option.mem_toList.1 rings)).1] at different
    simp at different
  · intro tested rings
    refine Nat.lt_of_lt_of_le ?_ (Nat.le_add_right _ _)
    rcases List.mem_append.1 rings with old | new
    · exact sound.below tested (List.mem_filter.1 old).1
    · rw [(of_mem_again? (Option.mem_toList.1 new)).1]
      exact sound.below alarm member
  · intro key number found
    exact Nat.lt_of_lt_of_le (sound.known key number found) (Nat.le_add_right _ _)
  · exact sound.apart

end Sound

end PeerOverlay.Timers
