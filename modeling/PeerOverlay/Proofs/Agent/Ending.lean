import PeerOverlay.Proofs.Agent.Watch

/-!
# How an agent comes to its end

The link of an agent can be closed by the agent in the middle of a task, by its manager at any
time, or by the other end when nothing is left to be heard.  Whatever waits then is given up, and
the manager is told once and last.
-/

namespace PeerOverlay

/-- Whether a link brings nothing any more. -/
structure Link.Exhausted (link : Link) : Prop where
  inbound : link.inbound = []
  gone : link.delivers = false

namespace Agent

/-- What the manager was told in some deeds, in order. -/
def eventsOf (deeds : List Deed) : List Event :=
  deeds.flatMap fun deed => deed.turn.events

theorem eventsOf_concat (deeds : List Deed) (deed : Deed) :
    eventsOf (deeds ++ [deed]) = eventsOf deeds ++ deed.turn.events := by
  rw [eventsOf, List.flatMap_append, List.flatMap_singleton]
  rfl

/-! ## The last task -/

section Finish

variable {around : Surroundings} {agent : Agent} {link : Link} {task : Task}

theorem phase_finish (going : agent.phase ≠ .closed) (byRemote : Bool) :
    (finish byRemote ⟨agent, link, []⟩).agent.phase = .closed := by
  unfold finish
  rw [if_neg going]
  cases byRemote <;> rfl

theorem events_finish (going : agent.phase ≠ .closed) (byRemote : Bool) :
    (finish byRemote ⟨agent, link, []⟩).events = [.closed link.id byRemote] := by
  unfold finish
  rw [if_neg going]
  cases byRemote <;> rfl

theorem link_finish_true (going : agent.phase ≠ .closed) :
    (finish true ⟨agent, link, []⟩).link = (link.close "closed by remote").abandon := by
  unfold finish
  rw [if_neg going]
  rfl

/-- Before its end an agent does not tell that its link has ended. -/
theorem closed?_events (goesOn : task.ends = false) :
    ∀ event ∈ (perform around task ⟨agent, link, []⟩).events, event.closed? = none := by
  have lasts : Lasts around (task.begin ⟨agent, link, []⟩) _ := lasts_perform goesOn _
  have none_ : (task.begin ⟨agent, link, []⟩).events = [] := by
    cases task <;> rfl
  have silent := lasts.events
  rw [none_] at silent
  exact List.filterMap_eq_nil_iff.1 silent

theorem phase_perform (goesOn : task.ends = false) (going : agent.phase ≠ .closed) :
    (perform around task ⟨agent, link, []⟩).agent.phase ≠ .closed := by
  have lasts : Lasts around (task.begin ⟨agent, link, []⟩) _ := lasts_perform goesOn _
  refine lasts.phase ?_
  cases task <;> exact going

end Finish

/-! ## Lives -/

variable {config : Config} {link : Link} {deeds : List Deed} {moment : Moment}

theorem Life.id_eq (life : Life config link deeds moment) : moment.link.id = link.id := by
  induction life with
  | begin now unclosed => rfl
  | @act deeds moment task life around sameConfig sameTime next hypothesis =>
      exact (exchanged_perform around task ⟨moment.agent, moment.link, []⟩).id_eq.trans hypothesis
  | ring life runs isDue hypothesis => exact hypothesis
  | meanwhile life relays released next found above may hypothesis => exact may.id.trans hypothesis
  | pass life later forward answered ahead hypothesis => exact hypothesis

/-- Whether an agent has come to its end in its last deed, and has told its manager then. -/
structure Ended (id : LinkId) (deeds : List Deed) (moment : Moment) (last : Deed)
    (byRemote : Bool) : Prop where
  isLast : deeds.getLast? = some last
  task : last.task = .finish byRemote
  told : ∃ before, eventsOf deeds = before ++ [.closed id byRemote] ∧
    ∀ event ∈ before, event.closed? = none
  exhausted : byRemote = true ↔ last.link.closed = false ∧ last.link.Exhausted
  closed : moment.link.closed = true
  reason : byRemote = true → moment.link.reason = some "closed by remote"

/-- Whether an agent comes to its end once, does nothing after that, and tells its manager once
and last. -/
structure EndsOnce (link : Link) (deeds : List Deed) (moment : Moment) : Prop where
  /-- A link that was closed in a deed is closed in every later one. -/
  stays : EachDeed
    (fun earlier deed => (∃ before ∈ earlier, before.turn.link.closed = true) →
      deed.link.closed = true) deeds
  /-- On a closed link no message, alarm or wish is handled. -/
  onlyEnds : EachDeed
    (fun earlier deed => earlier ≠ [] → deed.link.closed = true → deed.task = .finish false) deeds
  /-- Nothing is done after the end. -/
  isLast : EachDeed (fun earlier _ => ∀ before ∈ earlier, before.task.ends = false) deeds
  /-- Until its end an agent does not tell of it. -/
  quiet : moment.agent.phase ≠ .closed → ∀ event ∈ eventsOf deeds, event.closed? = none
  ended : moment.agent.phase = .closed →
    ∃ last byRemote, Ended link.id deeds moment last byRemote
  /-- An agent that finds its link closed or exhausted comes to its end next. -/
  ends : moment.agent.started = true → moment.agent.phase ≠ .closed →
    moment.link.closed = true ∨
      moment.agent.rung = [] ∧ moment.agent.relays = [] ∧ moment.link.Exhausted →
    nextTask? moment.agent moment.link = some (.finish !moment.link.closed)
  rests : moment.agent.started = true → moment.agent.phase = .closed →
    nextTask? moment.agent moment.link = none

/-- What was so of the end of an agent stays so when its link changes. -/
theorem Ended.of_mayBecome {id : LinkId} {last : Deed} {byRemote : Bool} {after : Moment}
    (ended : Ended id deeds moment last byRemote) (may : moment.link.MayBecome after.link) :
    Ended id deeds after last byRemote :=
  { ended with
    closed := may.closed ended.closed
    reason := fun remote => may.reason _ (ended.reason remote) }

theorem Ended.of_finish {around : Surroundings} {byRemote : Bool}
    (life : Life config link deeds moment) (going : moment.agent.phase ≠ .closed)
    (quiet : ∀ event ∈ eventsOf deeds, event.closed? = none)
    (comes : Comes moment.agent moment.link (.finish byRemote)) :
    Ended link.id (deeds ++ [moment.deed around (.finish byRemote)])
      (moment.after (moment.deed around (.finish byRemote)))
      (moment.deed around (.finish byRemote)) byRemote := by
  have told : eventsOf (deeds ++ [moment.deed around (.finish byRemote)]) =
      eventsOf deeds ++ [.closed link.id byRemote] := by
    rw [eventsOf_concat, ← life.id_eq]
    exact congrArg (eventsOf deeds ++ ·) (events_finish going byRemote)
  cases comes with
  | finish started going closed =>
      refine ⟨List.getLast?_concat, rfl, ⟨_, told, quiet⟩, ⟨nofun, fun both => ?_⟩, ?_, nofun⟩
      · rw [show (moment.deed around (.finish false)).link.closed = true from closed] at both
        cases both.1
      · exact closed_perform around (.finish false) moment.agent moment.link closed
  | exhausted started going lasts rung relays inbound gone =>
      have after : (moment.after (moment.deed around (.finish true))).link =
          (moment.link.close "closed by remote").abandon := link_finish_true going
      refine ⟨List.getLast?_concat, rfl, ⟨_, told, quiet⟩,
        ⟨fun _ => ⟨lasts, inbound, gone⟩, fun _ => rfl⟩, ?_, fun _ => ?_⟩
      · rw [after]
        rfl
      · rw [after]
        show some (moment.link.reason.getD "closed by remote") = _
        rw [life.reason_of_lasts lasts]
        rfl

/-! ## What comes next -/

theorem task_of_closed {task : Task} (started : moment.agent.started = true)
    (closed : moment.link.closed = true) (comes : Comes moment.agent moment.link task) :
    task = .finish false := by
  have open_ {goal : Prop} (lasts : moment.link.closed = false) : goal := by
    rw [closed] at lasts
    cases lasts
  cases comes with
  | start unstarted =>
      rw [started] at unstarted
      cases unstarted
  | finish started going closed => rfl
  | alarm started going lasts rung => exact open_ lasts
  | relay started going lasts rung relays => exact open_ lasts
  | message started going lasts rung relays inbound => exact open_ lasts
  | exhausted started going lasts rung relays inbound gone => exact open_ lasts

theorem nextTask?_of_end {agent : Agent} {link : Link} (started : agent.started = true)
    (going : agent.phase ≠ .closed)
    (isEnd : link.closed = true ∨ agent.rung = [] ∧ agent.relays = [] ∧ link.Exhausted) :
    nextTask? agent link = some (.finish !link.closed) := by
  unfold nextTask?
  rw [started, if_neg going]
  cases closed : link.closed with
  | true => rfl
  | false =>
      obtain ⟨rung, relays, inbound, gone⟩ := isEnd.resolve_left (by simp [closed])
      rw [rung, relays, inbound, gone]
      rfl

theorem nextTask?_of_closed {agent : Agent} {link : Link} (started : agent.started = true)
    (isEnd : agent.phase = .closed) : nextTask? agent link = none := by
  unfold nextTask?
  rw [started, if_pos isEnd]
  rfl

/-! ## Runs -/

/-- What is kept along a life for its end. -/
structure Ending (link : Link) (deeds : List Deed) (moment : Moment) : Prop where
  closed : (∃ before ∈ deeds, before.turn.link.closed = true) → moment.link.closed = true
  goesOn : moment.agent.phase ≠ .closed → ∀ before ∈ deeds, before.task.ends = false
  quiet : moment.agent.phase ≠ .closed → ∀ event ∈ eventsOf deeds, event.closed? = none
  ended : moment.agent.phase = .closed →
    ∃ last byRemote, Ended link.id deeds moment last byRemote

namespace Ending

theorem of_mayBecome {after : Moment} (ending : Ending link deeds moment)
    (phase : after.agent.phase = moment.agent.phase)
    (may : moment.link.MayBecome after.link) : Ending link deeds after := by
  refine ⟨fun some_ => may.closed (ending.closed some_), ?_, ?_, ?_⟩
  · rw [phase]
    exact ending.goesOn
  · rw [phase]
    exact ending.quiet
  · rw [phase]
    intro isEnd
    obtain ⟨last, byRemote, ended⟩ := ending.ended isEnd
    exact ⟨last, byRemote, ended.of_mayBecome may⟩

/-- An agent that has something to do has not come to its end. -/
theorem going (ending : Ending link deeds moment) (life : Life config link deeds moment)
    {task : Task} (comes : Comes moment.agent moment.link task) :
    moment.agent.phase ≠ .closed := by
  cases comes with
  | start unstarted =>
      intro isEnd
      obtain ⟨last, byRemote, ended⟩ := ending.ended isEnd
      have none_ : deeds = [] := by
        by_contra nonempty
        rw [life.started_iff.2 nonempty] at unstarted
        cases unstarted
      have isLast := ended.isLast
      rw [none_] at isLast
      cases isLast
  | _ => assumption

theorem act {task : Task} (ending : Ending link deeds moment)
    (life : Life config link deeds moment) {around : Surroundings}
    (next : nextTask? moment.agent moment.link = some task) :
    Ending link (deeds ++ [moment.deed around task])
      (moment.after (moment.deed around task)) := by
  have comes := comes_of_next next
  have going := ending.going life comes
  have closed : (∃ before ∈ deeds ++ [moment.deed around task],
      before.turn.link.closed = true) →
      (moment.after (moment.deed around task)).link.closed = true := by
    rintro ⟨before, member, shut⟩
    rcases List.mem_append.1 member with earlier | last
    · exact closed_perform around task _ _ (ending.closed ⟨before, earlier, shut⟩)
    · rw [List.mem_singleton.1 last] at shut
      exact shut
  cases ends : task.ends with
  | false =>
      have goesOn : (moment.after (moment.deed around task)).agent.phase ≠ .closed :=
        phase_perform ends going
      refine ⟨closed, fun _ before member => ?_, fun _ event member => ?_,
        fun isEnd => absurd isEnd goesOn⟩
      · rcases List.mem_append.1 member with earlier | last
        · exact ending.goesOn going before earlier
        · rw [List.mem_singleton.1 last]
          exact ends
      · rw [eventsOf_concat] at member
        rcases List.mem_append.1 member with earlier | now
        · exact ending.quiet going event earlier
        · exact closed?_events ends event now
  | true =>
      cases task with
      | finish byRemote =>
          have isEnd : (moment.after (moment.deed around (.finish byRemote))).agent.phase =
              .closed := phase_finish going byRemote
          exact ⟨closed, fun goesOn => absurd isEnd goesOn, fun goesOn => absurd isEnd goesOn,
            fun _ => ⟨_, byRemote, .of_finish life going (ending.quiet going) comes⟩⟩
      | _ => cases ends

theorem of_life (life : Life config link deeds moment) : Ending link deeds moment := by
  induction life with
  | begin now unclosed =>
      refine ⟨fun some_ => ?_, fun _ => ?_, fun _ => ?_, fun isEnd => by cases isEnd⟩
      · obtain ⟨before, member, _⟩ := some_
        cases member
      · exact fun before member => absurd member List.not_mem_nil
      · exact fun event member => absurd member List.not_mem_nil
  | act life around sameConfig sameTime next hypothesis => exact hypothesis.act life next
  | ring life runs isDue hypothesis => exact hypothesis.of_mayBecome rfl (.refl _)
  | meanwhile life relays released next found above may hypothesis =>
      exact hypothesis.of_mayBecome rfl may
  | pass life later forward answered ahead hypothesis =>
      exact hypothesis.of_mayBecome rfl (.refl _)

end Ending

/-- However its link is closed and whatever waits then: an agent comes to its end once, tells its
manager once and last, and says that the other end has closed the link exactly when it has found
it open and exhausted. -/
theorem ends_once (life : Life config link deeds moment) : EndsOnce link deeds moment := by
  have ending := Ending.of_life life
  refine ⟨life.eachDeed ?_, life.eachDeed ?_, life.eachDeed ?_, ending.quiet, ending.ended, ?_, ?_⟩
  · exact fun around life _ _ _ => (Ending.of_life life).closed
  · intro deeds moment task around life _ _ next nonempty closed
    have started := life.started_iff.2 nonempty
    exact task_of_closed started closed (comes_of_next next)
  · intro deeds moment task around life _ _ next
    have ending := Ending.of_life life
    exact ending.goesOn (ending.going life (comes_of_next next))
  · exact nextTask?_of_end
  · exact nextTask?_of_closed

/-! ## Two ends -/

/-- The manager closes a link on which a message and an alarm still wait. -/
def closedAmidst : List Deed × Moment :=
  toldLife (hostAnnounced true []).around dialedLink
    (hostGreets ++
      [.deliver (.ping 7), .pass 60000, .ring, .close "peer manager shutdown", .act 0])
    (by decide +kernel)

/-- The other end says something and hangs up. -/
def hungUp : List Deed × Moment :=
  toldLife (hostAnnounced true []).around dialedLink
    (hostGreets ++ [.deliver (.ping 7), .hangUp, .act 0, .act 0]) (by decide +kernel)

theorem ends_once_closedAmidst_and_hungUp :
    (∃ last, Ended 1 closedAmidst.1 closedAmidst.2 last false) ∧
      ∃ last, Ended 1 hungUp.1 hungUp.2 last true := by
  constructor
  · have life : Life (hostAnnounced true []).around.config dialedLink closedAmidst.1
        closedAmidst.2 := life_of_told (fun _ => rfl) _
    obtain ⟨last, byRemote, ended⟩ := (ends_once life).ended (by decide +kernel)
    have closed : closedAmidst.1.getLast?.map (·.link.closed) = some true := by decide +kernel
    rw [ended.isLast, Option.map_some, Option.some.injEq] at closed
    cases byRemote with
    | false => exact ⟨last, ended⟩
    | true =>
        rw [(ended.exhausted.1 rfl).1] at closed
        cases closed
  · have life : Life (hostAnnounced true []).around.config dialedLink hungUp.1 hungUp.2 :=
      life_of_told (fun _ => rfl) _
    obtain ⟨last, byRemote, ended⟩ := (ends_once life).ended (by decide +kernel)
    have found : hungUp.1.getLast?.map (fun deed =>
        (deed.link.closed, deed.link.inbound, deed.link.delivers)) = some (false, [], false) := by
      decide +kernel
    rw [ended.isLast, Option.map_some, Option.some.injEq, Prod.mk.injEq, Prod.mk.injEq] at found
    obtain ⟨lasts, inbound, gone⟩ := found
    rw [ended.exhausted.2 ⟨lasts, inbound, gone⟩] at ended
    exact ⟨last, ended⟩

end Agent

end PeerOverlay
