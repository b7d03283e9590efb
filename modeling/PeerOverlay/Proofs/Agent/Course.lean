import PeerOverlay.Proofs.Agent.Lasting

/-!
# The course of an agent

The steps of one agent are taken one after the other, all with one configuration.  Between two
of them the transport, the manager and the time do what they like.  But nobody else sets or
clears an alarm of the agent, and a closed link stays closed.
-/

namespace PeerOverlay.Agent

/-- Whether an agent may take some steps on a link from its start on. -/
inductive Course (config : Config) (link : Link) : List Step → Prop where
  | nil : Course config link []
  | concat {steps : List Step} {step : Step} (course : Course config link steps)
      (sameConfig : step.around.config = config)
      (later : ∀ earlier ∈ steps, earlier.around.now ≤ step.around.now)
      (alarms : step.timers.registered =
        ((Record.fresh link).after steps).agent.timers.registered)
      (closed : ((Record.fresh link).after steps).link.closed = true → step.link.closed = true) :
      Course config link (steps ++ [step])

/-- Whether one of some steps is of a kind, as the agent is when it takes that step. -/
def SomeStep (link : Link) (kind : Record → Step → Prop) (steps : List Step) : Prop :=
  ∃ earlier step, earlier ++ [step] <+: steps ∧ kind ((Record.fresh link).after earlier) step

theorem Record.after_concat (record : Record) (steps : List Step) (step : Step) :
    record.after (steps ++ [step]) = (record.after steps).enter step :=
  List.foldl_append

section SomeStep

variable {link : Link} {kind : Record → Step → Prop} {steps : List Step} {step : Step}

theorem not_someStep_nil : ¬ SomeStep link kind [] := by
  rintro ⟨earlier, step, initial, _⟩
  exact absurd (List.prefix_nil.1 initial) (List.append_ne_nil_of_right_ne_nil _ (by simp))

theorem someStep_concat :
    SomeStep link kind (steps ++ [step]) ↔
      SomeStep link kind steps ∨ kind ((Record.fresh link).after steps) step := by
  constructor
  · rintro ⟨earlier, tested, initial, isKind⟩
    rcases List.prefix_concat_iff.1 initial with whole | part
    · obtain ⟨rfl, same⟩ := List.append_inj' whole rfl
      rw [← List.head_eq_of_cons_eq same]
      exact .inr isKind
    · exact .inl ⟨earlier, tested, part, isKind⟩
  · rintro (⟨earlier, tested, initial, isKind⟩ | isKind)
    · exact ⟨earlier, tested, initial.trans (List.prefix_append _ _), isKind⟩
    · exact ⟨steps, step, List.prefix_refl _, isKind⟩

theorem SomeStep.mono {earlier : List Step} (initial : earlier <+: steps)
    (someStep : SomeStep link kind earlier) : SomeStep link kind steps := by
  obtain ⟨before, tested, part, isKind⟩ := someStep
  exact ⟨before, tested, part.trans initial, isKind⟩

end SomeStep

namespace Course

variable {config : Config} {link : Link} {steps earlier : List Step} {step : Step}

theorem initial (course : Course config link steps) (initial : earlier <+: steps) :
    Course config link earlier := by
  induction course with
  | nil =>
      rw [List.prefix_nil.1 initial]
      exact .nil
  | concat course sameConfig later alarms closed hypothesis =>
      rcases List.prefix_concat_iff.1 initial with whole | part
      · rw [whole]
        exact .concat course sameConfig later alarms closed
      · exact hypothesis part

/-- What the last step of a run comes upon. -/
theorem last (course : Course config link (steps ++ [step])) :
    (∀ earlier ∈ steps, earlier.around.now ≤ step.around.now) ∧
      (((Record.fresh link).after steps).link.closed = true → step.link.closed = true) := by
  generalize whole : steps ++ [step] = all at course
  cases course with
  | nil => exact absurd whole (List.append_ne_nil_of_right_ne_nil _ (by simp))
  | concat course sameConfig later alarms closed =>
      obtain ⟨rfl, same⟩ := List.append_inj' whole rfl
      rw [List.head_eq_of_cons_eq same]
      exact ⟨later, closed⟩

end Course

/-! ## A dialed host -/

/-- A step on the link to a host that was dialed, with the alarms as they were left before. -/
def stepAtHost (earlier : List Step) (rung : List Alarm) (relays : List (List PeerAddress))
    (outbound inbound : List Message) : Step :=
  { hostAnnounced true rung with
    timers := ((Record.fresh dialedLink).after earlier).agent.timers
    relays := relays
    link := { dialedLink with outbound := outbound, inbound := inbound } }

/-- Whether the steps of an agent may follow each other on that link. -/
abbrev VisitsHost (steps : List Step) : Prop :=
  Course (hostAnnounced true []).around.config dialedLink steps

theorem VisitsHost.concat {earlier : List Step} {rung : List Alarm}
    {relays : List (List PeerAddress)} {outbound inbound : List Message}
    (visits : VisitsHost earlier) (begins : ∀ step ∈ earlier, step.around.now = 0)
    (lasts : ((Record.fresh dialedLink).after earlier).link.closed = false) :
    VisitsHost (earlier ++ [stepAtHost earlier rung relays outbound inbound]) := by
  refine Course.concat visits rfl (fun step taken => Nat.le_of_eq (begins step taken)) rfl ?_
  rw [lasts]
  exact fun other => absurd other Bool.false_ne_true

end PeerOverlay.Agent
