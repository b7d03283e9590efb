import PeerOverlay.Proofs.Timers.Running

/-!
# Waiting for alarms

Whoever has set an alarm waits for it until it is due, and from the moment at which it rings
until it is answered.  Time does not pass by an alarm that is due or has rung.  What is told here
holds of some watched alarms that ring once, whatever is done with the others.
-/

namespace PeerOverlay

/-- A moment, the timers that run and the alarms that have rung and wait to be answered. -/
structure Vigil (κ : Type) where
  now : Nat
  timers : Timers κ κ
  rung : List κ

namespace Vigil

variable {κ : Type} [DecidableEq κ]

/-- When an alarm that somebody waits for is due. -/
def due? (vigil : Vigil κ) (key : κ) : Option Nat :=
  if key ∈ vigil.rung then some vigil.now else (vigil.timers.alarm? key).map Alarm.due

def set (vigil : Vigil κ) (key : κ) (delay : Nat) (periodic : Bool) : Vigil κ :=
  { vigil with timers := vigil.timers.set key vigil.now delay periodic key }

def forget (vigil : Vigil κ) (key : κ) : Vigil κ :=
  { vigil with timers := vigil.timers.clear key }

/-- The first alarm that has rung is passed over. -/
def skip (vigil : Vigil κ) : Vigil κ :=
  { vigil with rung := vigil.rung.tail }

/-- The first alarm that has rung is answered. -/
def answer (vigil : Vigil κ) (key : κ) : Vigil κ :=
  { vigil with timers := (vigil.timers.takeFired key).2, rung := vigil.rung.tail }

/-- Nothing is waited for any more. -/
def rest (vigil : Vigil κ) : Vigil κ :=
  { vigil with timers := vigil.timers.clearAll, rung := [] }

def ring (vigil : Vigil κ) (number : Nat) : Vigil κ :=
  { vigil with
    timers := (vigil.timers.ring number vigil.now).2
    rung := vigil.rung ++ (vigil.timers.ring number vigil.now).1.toList }

/-- The numbers up to another one are in use elsewhere. -/
def skipNumbers (vigil : Vigil κ) (next : Nat) : Vigil κ :=
  { vigil with timers := { vigil.timers with next := next } }

def passTo (vigil : Vigil κ) (later : Nat) : Vigil κ :=
  { vigil with now := later }

/-- Whether the watched alarms ring once, are not late, and are set as long as somebody waits
for them. -/
structure Orderly (watched : κ → Prop) (vigil : Vigil κ) : Prop where
  sound : vigil.timers.Sound
  ahead : ∀ timer ∈ vigil.timers.running, vigil.now ≤ timer.due
  event : ∀ key timer, vigil.timers.alarm? key = some timer → timer.event = key
  owned : ∀ timer ∈ vigil.timers.running, watched timer.event →
    vigil.timers.alarm? timer.event = some timer
  single : ∀ timer ∈ vigil.timers.running, watched timer.event → timer.period = none
  once : ∀ key, watched key →
    vigil.rung.count key + (vigil.timers.alarm? key).toList.length ≤ 1
  held : ∀ key, watched key → vigil.timers.isSet key = (vigil.due? key).isSome

namespace Orderly

variable {watched : κ → Prop} {vigil : Vigil κ} {key tested : κ}

theorem empty (now : Nat) : Orderly watched ⟨now, .empty, []⟩ where
  sound := Timers.sound_empty
  ahead := fun _ member => absurd member List.not_mem_nil
  event := fun _ _ found => by cases found
  owned := fun _ member => absurd member List.not_mem_nil
  single := fun _ member => absurd member List.not_mem_nil
  once := fun _ _ => Nat.zero_le 1
  held := fun _ _ => rfl

/-! ## Deadlines -/

theorem mem_running (orderly : vigil.Orderly watched) {timer : Alarm κ}
    (found : vigil.timers.alarm? key = some timer) : timer ∈ vigil.timers.running :=
  (orderly.sound.alarm?_eq_some_iff.1 found).1

/-- Nobody waits for what was due before. -/
theorem now_le (orderly : vigil.Orderly watched) {due : Nat} (waits : vigil.due? key = some due) :
    vigil.now ≤ due := by
  unfold due? at waits
  split at waits
  · cases waits
    exact Nat.le_refl _
  · obtain ⟨timer, found, rfl⟩ := Option.map_eq_some_iff.1 waits
    exact orderly.ahead timer (orderly.mem_running found)

theorem due?_eq_none_iff :
    vigil.due? key = none ↔ key ∉ vigil.rung ∧ vigil.timers.alarm? key = none := by
  unfold due?
  split
  · next rings => simp [rings]
  · next silent => simp [silent]

/-- An alarm that has rung is not about to ring. -/
theorem alarm?_of_rung (orderly : vigil.Orderly watched) (isWatched : watched key)
    (rings : key ∈ vigil.rung) : vigil.timers.alarm? key = none := by
  have once := orderly.once key isWatched
  have some_ := List.count_pos_iff.2 rings
  cases found : vigil.timers.alarm? key with
  | none => rfl
  | some timer =>
      rw [found] at once
      have one : (some timer).toList.length = 1 := rfl
      omega

/-! ## Alarms that are set -/

theorem due?_set (orderly : vigil.Orderly watched) {delay : Nat} {periodic : Bool}
    (fresh : watched key → periodic = false ∧ vigil.due? key = none)
    (isWatched : watched tested) :
    (vigil.set key delay periodic).due? tested =
      if tested = key then some (vigil.now + delay) else vigil.due? tested := by
  unfold due? set
  dsimp only
  rw [orderly.sound.alarm?_set]
  by_cases same : tested = key
  · subst same
    obtain ⟨rfl, unused⟩ := fresh isWatched
    rw [if_pos rfl, if_neg (due?_eq_none_iff.1 unused).1]
    simp
  · rw [if_neg same, if_neg same]

/-- What runs after an alarm was set ran before under another key, or is the new timer. -/
theorem mem_running_set {delay : Nat} {periodic : Bool} {timer : Alarm κ}
    (member : timer ∈ (vigil.set key delay periodic).timers.running) :
    (timer ∈ vigil.timers.running ∧ vigil.timers.registered.get? key ≠ some timer.number) ∨
      ¬(periodic ∧ delay = 0) ∧ timer = ⟨vigil.timers.next, vigil.timers.next,
        vigil.now + delay, if periodic then some delay else none, key⟩ := by
  unfold Vigil.set at member
  rw [Timers.running_set] at member
  split at member
  · exact .inl (Timers.mem_running_clear.1 member)
  · next rings =>
      rcases List.mem_append.1 member with old | new
      · exact .inl (Timers.mem_running_clear.1 old)
      · exact .inr ⟨rings, List.mem_singleton.1 new⟩

theorem set (orderly : vigil.Orderly watched) {delay : Nat} {periodic : Bool}
    (fresh : watched key → periodic = false ∧ vigil.due? key = none) :
    (vigil.set key delay periodic).Orderly watched := by
  have alarm? := orderly.sound.alarm?_set key vigil.now delay periodic key
  constructor
  case sound => exact orderly.sound.set key vigil.now delay periodic key
  case ahead =>
    intro timer member
    rcases mem_running_set member with old | ⟨_, rfl⟩
    · exact orderly.ahead timer old.1
    · exact Nat.le_add_right _ _
  case event =>
    intro tested timer found
    have found := (alarm? tested).symm.trans found
    split at found
    · next same =>
        split at found
        · cases found
        · cases found
          exact same.symm
    · exact orderly.event tested timer found
  case owned =>
    intro timer member isWatched
    refine (alarm? timer.event).trans ?_
    rcases mem_running_set member with ⟨old, other⟩ | ⟨rings, rfl⟩
    · have own := orderly.owned timer old isWatched
      rw [if_neg, own]
      intro same
      rw [same] at own
      exact other (orderly.sound.alarm?_eq_some_iff.1 own).2
    · rw [if_pos rfl, if_neg rings]
  case single =>
    intro timer member isWatched
    rcases mem_running_set member with old | ⟨_, rfl⟩
    · exact orderly.single timer old.1 isWatched
    · rw [(fresh isWatched).1]
      rfl
  case once =>
    intro tested isWatched
    show vigil.rung.count tested +
      ((vigil.timers.set key vigil.now delay periodic key).alarm? tested).toList.length ≤ 1
    rw [alarm?]
    by_cases same : tested = key
    · subst same
      have silent := (due?_eq_none_iff.1 (fresh isWatched).2).1
      rw [if_pos rfl, List.count_eq_zero.2 silent]
      split <;> simp
    · rw [if_neg same]
      exact orderly.once tested isWatched
  case held =>
    intro tested isWatched
    rw [orderly.due?_set fresh isWatched]
    refine (vigil.timers.isSet_set key vigil.now delay periodic key tested).trans ?_
    rw [orderly.held tested isWatched]
    by_cases same : tested = key <;> simp [same]

/-! ## Alarms that are given up -/

theorem due?_forget (orderly : vigil.Orderly watched) (quiet : watched key → key ∉ vigil.rung)
    (isWatched : watched tested) :
    (vigil.forget key).due? tested = if tested = key then none else vigil.due? tested := by
  unfold due? forget
  dsimp only
  rw [orderly.sound.alarm?_clear]
  by_cases same : tested = key
  · subst same
    rw [if_pos rfl, if_neg (quiet isWatched)]
    simp
  · rw [if_neg same, if_neg same]

theorem forget (orderly : vigil.Orderly watched) (quiet : watched key → key ∉ vigil.rung) :
    (vigil.forget key).Orderly watched := by
  have alarm? := orderly.sound.alarm?_clear key
  constructor
  case sound => exact orderly.sound.clear key
  case ahead =>
    intro timer member
    exact orderly.ahead timer (Timers.mem_running_clear.1 member).1
  case event =>
    intro tested timer found
    have found := (alarm? tested).symm.trans found
    split at found
    · cases found
    · exact orderly.event tested timer found
  case owned =>
    intro timer member isWatched
    obtain ⟨runs, other⟩ := Timers.mem_running_clear.1 member
    have own := orderly.owned timer runs isWatched
    refine (alarm? timer.event).trans ?_
    rw [if_neg, own]
    intro same
    rw [same] at own
    exact other (orderly.sound.alarm?_eq_some_iff.1 own).2
  case single =>
    intro timer member isWatched
    exact orderly.single timer (Timers.mem_running_clear.1 member).1 isWatched
  case once =>
    intro tested isWatched
    refine Nat.le_trans (Nat.add_le_add_left ?_ _) (orderly.once tested isWatched)
    show ((vigil.timers.clear key).alarm? tested).toList.length ≤ _
    rw [alarm?]
    split
    · exact Nat.zero_le _
    · exact Nat.le_refl _
  case held =>
    intro tested isWatched
    rw [orderly.due?_forget quiet isWatched]
    refine (vigil.timers.isSet_clear key tested).trans ?_
    rw [orderly.held tested isWatched]
    by_cases same : tested = key <;> simp [same]

/-! ## Alarms that are answered -/

omit [DecidableEq κ] in
/-- What waits behind the first alarm. -/
theorem mem_tail_iff {others : List κ} (first : vigil.rung = key :: others)
    (other : tested ≠ key) : tested ∈ vigil.rung.tail ↔ tested ∈ vigil.rung := by
  rw [first, List.tail_cons, List.mem_cons]
  exact ⟨.inr, fun member => member.resolve_left other⟩

theorem due?_answer (orderly : vigil.Orderly watched) {others : List κ}
    (first : vigil.rung = key :: others) (isWatched : watched tested) :
    (vigil.answer key).due? tested = if tested = key then none else vigil.due? tested := by
  unfold due? answer
  dsimp only
  rw [Timers.alarm?_takeFired]
  by_cases same : tested = key
  · subst same
    have once := orderly.once tested isWatched
    rw [first, List.count_cons_self] at once
    have last : tested ∉ vigil.rung.tail := by
      rw [first, List.tail_cons, ← List.count_eq_zero]
      omega
    rw [if_pos rfl, if_neg last, if_pos rfl]
    rfl
  · rw [if_neg same, if_neg same]
    simp only [mem_tail_iff first same]

theorem answer (orderly : vigil.Orderly watched) {others : List κ}
    (first : vigil.rung = key :: others) : (vigil.answer key).Orderly watched := by
  have alarm? := vigil.timers.alarm?_takeFired key
  constructor
  case sound => exact orderly.sound.takeFired key
  case ahead => exact orderly.ahead
  case event =>
    intro tested timer found
    have found := (alarm? tested).symm.trans found
    split at found
    · cases found
    · exact orderly.event tested timer found
  case owned =>
    intro timer member isWatched
    have own := orderly.owned timer member isWatched
    refine (alarm? timer.event).trans ?_
    rw [if_neg, own]
    intro same
    rw [same] at own isWatched
    have rings : key ∈ vigil.rung := by
      rw [first]
      exact List.mem_cons_self
    rw [orderly.alarm?_of_rung isWatched rings] at own
    cases own
  case single => exact orderly.single
  case once =>
    intro tested isWatched
    refine Nat.le_trans (Nat.add_le_add ?_ ?_) (orderly.once tested isWatched)
    · exact (List.tail_sublist _).count_le _
    · show ((vigil.timers.takeFired key).2.alarm? tested).toList.length ≤ _
      rw [alarm?]
      split
      · exact Nat.zero_le _
      · exact Nat.le_refl _
  case held =>
    intro tested isWatched
    rw [orderly.due?_answer first isWatched]
    refine (vigil.timers.isSet_takeFired key tested).trans ?_
    rw [orderly.held tested isWatched]
    by_cases same : tested = key <;> simp [same]

theorem due?_skip {others : List κ} (first : vigil.rung = key :: others)
    (unwatched : ¬watched key) (isWatched : watched tested) :
    vigil.skip.due? tested = vigil.due? tested := by
  have other : tested ≠ key := by
    rintro rfl
    exact unwatched isWatched
  unfold due? skip
  simp only [mem_tail_iff first other]

theorem skip (orderly : vigil.Orderly watched) {others : List κ}
    (first : vigil.rung = key :: others) (unwatched : ¬watched key) :
    vigil.skip.Orderly watched where
  sound := orderly.sound
  ahead := orderly.ahead
  event := orderly.event
  owned := orderly.owned
  single := orderly.single
  once := fun tested isWatched =>
    Nat.le_trans (Nat.add_le_add_right ((List.tail_sublist _).count_le _) _)
      (orderly.once tested isWatched)
  held := fun tested isWatched => by
    rw [due?_skip first unwatched isWatched]
    exact orderly.held tested isWatched

theorem due?_rest (vigil : Vigil κ) (tested : κ) : vigil.rest.due? tested = none := rfl

theorem rest (orderly : vigil.Orderly watched) : vigil.rest.Orderly watched where
  sound := orderly.sound.clearAll
  ahead := fun timer member => orderly.ahead timer (Timers.mem_running_clearAll.1 member).1
  event := fun _ _ found => by cases found
  owned := fun timer member isWatched => by
    obtain ⟨runs, unknown⟩ := Timers.mem_running_clearAll.1 member
    have own := orderly.owned timer runs isWatched
    exact absurd (orderly.sound.alarm?_eq_some_iff.1 own).2 (unknown timer.event)
  single := fun timer member =>
    orderly.single timer (Timers.mem_running_clearAll.1 member).1
  once := fun _ _ => Nat.zero_le 1
  held := fun _ _ => rfl

/-! ## Time -/

/-- The alarm that stands for a timer is told by its event. -/
theorem registered_iff (orderly : vigil.Orderly watched) {timer : Alarm κ}
    (member : timer ∈ vigil.timers.running) (isWatched : watched tested) :
    vigil.timers.registered.get? tested = some timer.number ↔ tested = timer.event := by
  constructor
  · intro registered
    have found := orderly.sound.alarm?_eq_some_iff.2 ⟨member, registered⟩
    exact (orderly.event tested timer found).symm
  · rintro rfl
    exact (orderly.sound.alarm?_eq_some_iff.1 (orderly.owned timer member isWatched)).2

theorem alarm?_ring (orderly : vigil.Orderly watched) {timer : Alarm κ}
    (member : timer ∈ vigil.timers.running) (isWatched : watched tested) :
    (vigil.ring timer.number).timers.alarm? tested =
      if tested = timer.event then none else vigil.timers.alarm? tested := by
  refine (orderly.sound.alarm?_ring member vigil.now tested).trans ?_
  by_cases own : tested = timer.event
  · subst own
    rw [if_pos ((orderly.registered_iff member isWatched).2 rfl), if_pos rfl]
    unfold Timers.again?
    rw [orderly.single timer member isWatched]
    rfl
  · rw [if_neg fun registered => own ((orderly.registered_iff member isWatched).1 registered),
      if_neg own]

theorem rung_ring (orderly : vigil.Orderly watched) {timer : Alarm κ}
    (member : timer ∈ vigil.timers.running) :
    (vigil.ring timer.number).rung = vigil.rung ++ [timer.event] := by
  unfold Vigil.ring
  rw [orderly.sound.ring_eq member]
  rfl

/-- An alarm rings when it is due. -/
theorem due?_ring (orderly : vigil.Orderly watched) {timer : Alarm κ}
    (member : timer ∈ vigil.timers.running) (isDue : timer.due ≤ vigil.now)
    (isWatched : watched tested) :
    (vigil.ring timer.number).due? tested = vigil.due? tested := by
  unfold due?
  rw [orderly.rung_ring member, orderly.alarm?_ring member isWatched]
  by_cases own : tested = timer.event
  · subst own
    have found := orderly.owned timer member isWatched
    have silent : timer.event ∉ vigil.rung := fun rings => by
      rw [orderly.alarm?_of_rung isWatched rings] at found
      cases found
    rw [if_pos (List.mem_append_right _ (List.mem_singleton_self _)), if_neg silent, found]
    exact congrArg some (Nat.le_antisymm (orderly.ahead timer member) isDue)
  · have same : tested ∈ vigil.rung ++ [timer.event] ↔ tested ∈ vigil.rung := by
      simp [own]
    simp only [same, if_neg own]
    rfl

/-- What runs after a timer has rung ran before, or is the same timer again. -/
theorem mem_running_ring (orderly : vigil.Orderly watched) {timer other : Alarm κ}
    (member : timer ∈ vigil.timers.running)
    (rings : other ∈ (vigil.ring timer.number).timers.running) :
    (other ∈ vigil.timers.running ∧ other.number ≠ timer.number) ∨
      other ∈ vigil.timers.again? timer vigil.now := by
  unfold Vigil.ring at rings
  rw [orderly.sound.ring_eq member] at rings
  rcases List.mem_append.1 rings with old | new
  · obtain ⟨runs, different⟩ := List.mem_filter.1 old
    exact .inl ⟨runs, of_decide_eq_true different⟩
  · exact .inr (Option.mem_toList.1 new)

theorem ring (orderly : vigil.Orderly watched) {timer : Alarm κ}
    (member : timer ∈ vigil.timers.running) (isDue : timer.due ≤ vigil.now) :
    (vigil.ring timer.number).Orderly watched := by
  have notAgain {other : Alarm κ} (isWatched : watched other.event)
      (again : other ∈ vigil.timers.again? timer vigil.now) : False := by
    rw [(Timers.of_mem_again? again).2.1] at isWatched
    unfold Timers.again? at again
    rw [orderly.single timer member isWatched] at again
    cases again
  constructor
  case sound => exact orderly.sound.ring member vigil.now
  case ahead =>
    intro other rings
    rcases orderly.mem_running_ring member rings with old | new
    · exact orderly.ahead other old.1
    · exact (Timers.of_mem_again? new).2.2
  case event =>
    intro tested other found
    have found := (orderly.sound.alarm?_ring member vigil.now tested).symm.trans found
    split at found
    · next registered =>
        rw [(Timers.of_mem_again? found).2.1]
        exact orderly.event tested timer
          (orderly.sound.alarm?_eq_some_iff.2 ⟨member, registered⟩)
    · exact orderly.event tested other found
  case owned =>
    intro other rings isWatched
    rcases orderly.mem_running_ring member rings with ⟨runs, different⟩ | again
    · have own := orderly.owned other runs isWatched
      rw [orderly.alarm?_ring member isWatched, if_neg, own]
      intro same
      have registered := (orderly.registered_iff member isWatched).2 same
      rw [(orderly.sound.alarm?_eq_some_iff.1 own).2] at registered
      exact different (Option.some.inj registered)
    · exact (notAgain isWatched again).elim
  case single =>
    intro other rings isWatched
    rcases orderly.mem_running_ring member rings with old | again
    · exact orderly.single other old.1 isWatched
    · exact (notAgain isWatched again).elim
  case once =>
    intro tested isWatched
    have once := orderly.once tested isWatched
    rw [orderly.rung_ring member, orderly.alarm?_ring member isWatched, List.count_append]
    by_cases own : tested = timer.event
    · subst own
      rw [orderly.owned timer member isWatched] at once
      have one : (some timer).toList.length = 1 := rfl
      have none_ : (none : Option (Alarm κ)).toList.length = 0 := rfl
      rw [if_pos rfl, none_, List.count_singleton_self]
      omega
    · have absent : [timer.event].count tested = 0 := List.count_eq_zero.2 (by simp [own])
      rw [if_neg own, absent]
      exact once
  case held =>
    intro tested isWatched
    rw [orderly.due?_ring member isDue isWatched, ← orderly.held tested isWatched]
    show Timers.isSet (vigil.timers.ring timer.number vigil.now).2 tested = _
    rw [orderly.sound.ring_eq member]
    rfl

theorem skipNumbers (orderly : vigil.Orderly watched) {next : Nat}
    (above : vigil.timers.next ≤ next) : (vigil.skipNumbers next).Orderly watched where
  sound := orderly.sound.of_fewer (List.Sublist.refl _) (fun _ _ found => found) above
  ahead := orderly.ahead
  event := orderly.event
  owned := orderly.owned
  single := orderly.single
  once := orderly.once
  held := orderly.held

theorem due?_passTo {later : Nat} (answered : tested ∉ vigil.rung) :
    (vigil.passTo later).due? tested = vigil.due? tested := by
  unfold due? passTo
  rw [if_neg answered, if_neg answered]

/-- Time passes when every watched alarm that has rung is answered, up to the next timer. -/
theorem passTo (orderly : vigil.Orderly watched) {later : Nat}
    (answered : ∀ key, watched key → key ∉ vigil.rung)
    (ahead : ∀ timer ∈ vigil.timers.running, later ≤ timer.due) :
    (vigil.passTo later).Orderly watched where
  sound := orderly.sound
  ahead := ahead
  event := orderly.event
  owned := orderly.owned
  single := orderly.single
  once := orderly.once
  held := fun tested isWatched => by
    rw [due?_passTo (answered tested isWatched)]
    exact orderly.held tested isWatched

end Orderly

end Vigil

end PeerOverlay
