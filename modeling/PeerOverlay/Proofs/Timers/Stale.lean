import PeerOverlay.Proofs.Timers.Deliveries

/-!
# Stale events

A timer that is stopped may have delivered its event before, so that the event is received later.
Whoever receives an event takes its key to find out whether the event still counts.  This works as
long as the key has not been set again: what is asked for is the key, not the timer that has
delivered the event.
-/

namespace PeerOverlay.Timers

variable {κ ε : Type} [DecidableEq κ]

/-- The events that are delivered when time passes. -/
def Clocked.heard (clocked : Clocked κ ε) (duration : Nat) : List ε :=
  (clocked.timers.pass clocked.now duration).1.map Prod.snd

/-- What is done with timers that ring once, and the events that wait to be received after that.
The event of a timer tells its key and the place of the use that has set it.  A key is taken only
when an event of it is received; which one of those that wait is received next, and whether its key
is taken then, is left open. -/
inductive Attended (start : Nat) : List (Use κ (κ × Nat)) → List (κ × Nat) → Prop
  | begin : Attended start [] []
  | set {uses waiting} (key : κ) (delay : Nat) : Attended start uses waiting →
      Attended start (uses ++ [.setTimeout key delay (key, uses.length)]) waiting
  | clear {uses waiting} (key : κ) : Attended start uses waiting →
      Attended start (uses ++ [.clear key]) waiting
  | clearAll {uses waiting} : Attended start uses waiting →
      Attended start (uses ++ [.clearAll]) waiting
  | pass {uses waiting} (duration : Nat) : Attended start uses waiting →
      Attended start (uses ++ [.pass duration])
        (waiting ++ ((Clocked.start start).useAll uses).heard duration)
  | take {uses waiting} {key : κ} {number : Nat} : Attended start uses waiting →
      (key, number) ∈ waiting →
        Attended start (uses ++ [.takeFired key]) (waiting.erase (key, number))
  | ignore {uses waiting} {event : κ × Nat} : Attended start uses waiting → event ∈ waiting →
      Attended start uses (waiting.erase event)

/-- Whether a timer that was set under a key before some uses is stopped in the course of them: the
first of them that touches the key clears it or sets it anew. -/
def isStopped (key : κ) (later : List (Use κ ε)) : Bool :=
  (later.find? fun use => use.touches key).any fun use => use.stops key

variable {start : Nat} {uses : List (Use κ (κ × Nat))} {waiting : List (κ × Nat)} {key : κ}
  {number : Nat}

/-! ## The timer of an event -/

omit [DecidableEq κ] in
/-- Whether each timer rings once and tells its key and its place. -/
def Numbered (uses : List (Use κ (κ × Nat))) : Prop :=
  ∀ (place : Nat) (use : Use κ (κ × Nat)) (wait : Nat → Nat) (now : Nat)
    (setting : Setting κ (κ × Nat)), uses[place]? = some use →
      use.setting? wait now = some setting →
        ∃ key delay, use = .setTimeout key delay (key, place) ∧ setting.event = (key, place)

omit [DecidableEq κ] in
theorem Numbered.concat (numbered : Numbered uses) {last : Use κ (κ × Nat)}
    (own : ∀ wait now setting, last.setting? wait now = some setting →
      ∃ key delay, last = .setTimeout key delay (key, uses.length)) :
    Numbered (uses ++ [last]) := by
  intro place use wait now setting found sets
  rcases Nat.lt_trichotomy place uses.length with before | same | beyond
  · rw [List.getElem?_append_left before] at found
    exact numbered place use wait now setting found sets
  · subst same
    rw [List.getElem?_concat_length] at found
    cases found
    obtain ⟨key, delay, rfl⟩ := own wait now setting sets
    cases sets
    exact ⟨key, delay, rfl, rfl⟩
  · rw [List.getElem?_eq_none (by simp; omega)] at found
    cases found

theorem mem_deliveries {wait : Nat → Nat} {now moment : Nat} {event : ε} {uses : List (Use κ ε)}
    (due : (moment, event) ∈ deliveries wait now uses) :
    ∃ (place : Nat) (use : Use κ ε) (began : Nat) (setting : Setting κ ε),
      uses[place]? = some use ∧ use.setting? wait began = some setting ∧
        setting.event = event := by
  induction uses generalizing now with
  | nil => cases due
  | cons use later hypothesis =>
      rcases List.mem_append.1 due with own | others
      · obtain ⟨setting, sets, member⟩ := List.mem_flatMap.1 own
        obtain ⟨_, _, same⟩ := List.mem_map.1 member
        exact ⟨0, use, now, setting, rfl, Option.mem_toList.1 sets, congrArg Prod.snd same⟩
      · obtain ⟨place, other, began, setting, found, rest⟩ := hypothesis others
        exact ⟨place + 1, other, began, setting, found, rest⟩

namespace Attended

theorem numbered (attended : Attended start uses waiting) : Numbered uses := by
  induction attended with
  | begin =>
      intro place use wait now setting found
      cases found
  | set key delay _ hypothesis => exact hypothesis.concat fun _ _ _ _ => ⟨key, delay, rfl⟩
  | ignore _ _ hypothesis => exact hypothesis
  | _ =>
      rename_i hypothesis
      exact hypothesis.concat fun _ _ _ sets => by cases sets

/-- What waits was delivered. -/
theorem exists_delivered (attended : Attended start uses waiting) :
    ∀ event ∈ waiting, ∃ moment,
      (moment, event) ∈ ((Clocked.start start).useAll uses).delivered := by
  induction attended with
  | begin => exact fun _ member => absurd member List.not_mem_nil
  | pass duration _ hypothesis =>
      intro event member
      rw [Clocked.useAll_concat]
      rcases List.mem_append.1 member with old | new
      · obtain ⟨moment, delivered⟩ := hypothesis event old
        exact ⟨moment, List.mem_append_left _ delivered⟩
      · obtain ⟨⟨moment, _⟩, delivered, rfl⟩ := List.mem_map.1 new
        exact ⟨moment, List.mem_append_right _ delivered⟩
  | take _ _ hypothesis =>
      intro event member
      rw [Clocked.useAll_concat]
      exact hypothesis event (List.mem_of_mem_erase member)
  | ignore _ _ hypothesis =>
      exact fun event member => hypothesis event (List.mem_of_mem_erase member)
  | _ =>
      rename_i hypothesis
      intro event member
      rw [Clocked.useAll_concat]
      exact hypothesis event member

/-- What waits is the event of a timer that was set. -/
theorem exists_set (attended : Attended start uses waiting) (waits : (key, number) ∈ waiting) :
    ∃ delay, uses[number]? = some (.setTimeout key delay (key, number)) := by
  obtain ⟨moment, delivered⟩ := attended.exists_delivered (key, number) waits
  have due := (Clocked.delivered_perm (Clocked.timely_start start) uses).mem_iff.1 delivered
  obtain ⟨place, use, began, setting, found, sets, same⟩ := mem_deliveries due
  obtain ⟨name, delay, rfl, event⟩ := attended.numbered place use _ _ setting found sets
  rw [same] at event
  cases event
  exact ⟨delay, found⟩

end Attended

/-! ## Taking the key of an event -/

/-- A key is taken with success if no use has touched it since the timer of the event was set, or
if it was set again.  So success means that the timer was neither cleared nor replaced, unless it
was and the key has been set again since, and neither cleared nor taken after that. -/
theorem takeFired_of_waiting_iff (attended : Attended start uses waiting)
    (waits : (key, number) ∈ waiting) :
    let taken := (((Clocked.start start).useAll uses).timers.takeFired key).1
    let later := uses.drop (number + 1)
    (∃ delay, uses[number]? = some (.setTimeout key delay (key, number))) ∧
      (taken = true ↔
        (∀ use ∈ later, use.touches key = false) ∨ isRegistered key later = true) ∧
      ((taken = true → isStopped key later = false) ↔
        ¬ (isStopped key later = true ∧ isRegistered key later = true)) := by
  intro taken later
  obtain ⟨delay, found⟩ := attended.exists_set waits
  have split : uses = uses.take number ++ .setTimeout key delay (key, number) :: later := by
    obtain ⟨inside, here⟩ := List.getElem?_eq_some_iff.1 found
    rw [← here, ← List.drop_eq_getElem_cons inside, List.take_append_drop]
  have success : taken = true ↔
      (∀ use ∈ later, use.touches key = false) ∨ isRegistered key later = true := by
    have known : taken = isRegistered key uses := isSet_useAll start uses key
    rw [known, split]
    exact isRegistered_append_cons (decide_eq_true rfl)
  refine ⟨⟨delay, found⟩, success, ?_⟩
  have touched (untouched : ∀ use ∈ later, use.touches key = false) :
      isStopped key later = false := by
    rw [isStopped, List.find?_eq_none.2 fun use member => by simp [untouched use member]]
    rfl
  rw [success]
  cases stopped : isStopped key later with
  | false => simp
  | true =>
      have again : ¬ ∀ use ∈ later, use.touches key = false := fun untouched =>
        Bool.noConfusion (stopped.symm.trans (touched untouched))
      simp [again]

/-- Two timers ring, and the first one is cleared before its event is received. -/
def clearedInTime : List (Use Nat (Nat × Nat)) :=
  [.setTimeout 1 1000 (1, 0), .setTimeout 2 2000 (2, 1), .pass 2000, .clear 1]

theorem attended_clearedInTime : Attended 0 clearedInTime [(1, 0), (2, 1)] := by
  have run : Attended 0 clearedInTime _ :=
    (((Attended.begin.set 1 1000).set 2 2000).pass 2000).clear 1
  rwa [show [] ++ Clocked.heard _ 2000 = [(1, 0), (2, 1)] by decide +kernel] at run

theorem takeFired_of_waiting_clearedInTime :
    let clocked := (Clocked.start 0).useAll clearedInTime
    Attended 0 clearedInTime [(1, 0), (2, 1)] ∧
      (clocked.timers.takeFired 1).1 = false ∧ (clocked.timers.takeFired 2).1 = true := by
  obtain ⟨-, stale, -⟩ := takeFired_of_waiting_iff attended_clearedInTime
    (by decide : (1, 0) ∈ [(1, 0), (2, 1)])
  obtain ⟨-, fresh, -⟩ := takeFired_of_waiting_iff attended_clearedInTime
    (by decide : (2, 1) ∈ [(1, 0), (2, 1)])
  refine ⟨attended_clearedInTime, ?_, fresh.2 (by decide)⟩
  rw [← Bool.not_eq_true, stale]
  decide

/-- A timer rings and is cleared, and its key is set again, before its event is received. -/
def setAgain : List (Use Nat (Nat × Nat)) :=
  [.setTimeout 1 1000 (1, 0), .pass 1000, .clear 1, .setTimeout 1 5000 (1, 3)]

/-- The event of a timer that was cleared is taken for one of the timer that was set after it. -/
theorem stale_event_taken :
    ∃ waiting, Attended 0 setAgain waiting ∧ (1, 0) ∈ waiting ∧
      setAgain[0]? = some (.setTimeout 1 1000 (1, 0)) ∧
      isStopped 1 (setAgain.drop 1) = true ∧
      (((Clocked.start 0).useAll setAgain).timers.takeFired 1).1 = true :=
  ⟨_, (((Attended.begin.set 1 1000).pass 1000).clear 1).set 1 5000, by decide +kernel, rfl,
    by decide, by decide +kernel⟩

end PeerOverlay.Timers
