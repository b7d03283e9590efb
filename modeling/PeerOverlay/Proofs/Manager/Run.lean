import PeerOverlay.Proofs.Manager.Turn

/-!
# Runs of a manager

A run is a sequence of moves in any order.  An event is handled in one go, or it
is taken and the parts of the reaction are done one by one, with other moves in
between; the owner of the node may use a control at any time.  Before every move
the links may have changed in any way, and time, connectors and lots are what
they are then.
-/

namespace PeerOverlay.Manager

/-- What a manager does in one go. -/
inductive Move where
  /-- An event is handled with all parts of the reaction. -/
  | event (event : Event)
  /-- An event is taken, and the parts of the reaction are left for later. -/
  | take (event : Event)
  | part (part : Part)
  | control (control : Control)

/-- A move and what the manager finds around it. -/
structure Step where
  around : Surroundings
  links : Links
  move : Move

/-- The turn that a manager takes in a step. -/
def Step.turn (step : Step) (manager : Manager) : Turn :=
  let turn := Turn.start manager step.links
  match step.move with
  | .event event => handle step.around event turn
  | .take event => (take event turn).2
  | .part part => part.perform step.around turn
  | .control control => (follow step.around control turn).2

def Step.apply (step : Step) (manager : Manager) : Manager :=
  (step.turn manager).manager

def run (manager : Manager) (steps : List Step) : Manager :=
  steps.foldl (fun manager step => step.apply manager) manager

@[simp]
theorem run_nil (manager : Manager) : run manager [] = manager := rfl

@[simp]
theorem run_cons (manager : Manager) (step : Step) (rest : List Step) :
    run manager (step :: rest) = run (step.apply manager) rest := rfl

theorem run_append (manager : Manager) (earlier later : List Step) :
    run manager (earlier ++ later) = run (run manager earlier) later :=
  List.foldl_append

def hostAddress (host : String) : PeerAddress :=
  .fresh (.direct host 8443) .full 0

/-- A step of a node on which every attempt over a socket is started. -/
def Step.plain (links : Links) (move : Move) : Step where
  around :=
    { now := 0
      connectors := { direct := some (.socket true), relayed := none }
      pickLots := []
      relayLots := [] }
  links := links
  move := move

/-- A manager without addresses, on a node at a host. -/
def atHost (host : String) : Manager :=
  Manager.new (.full (hostAddress host) "") .empty

/-! ## The parts of a move -/

def Move.connection? : Move → Option LinkId
  | .event (.connection link) => some link
  | .part (.connection link) => some link
  | _ => none

/-- The address of which a move tells that connecting has failed. -/
def Move.failure? : Move → Option PeerAddress
  | .event (.connectFailed address) => some address
  | .part (.connectFailed address) => some address
  | _ => none

/-- Whether a part of a reaction may be done in a move. -/
def Move.Performs : Move → Part → Prop
  | .event handled, tested => ∃ turn, tested ∈ (Manager.take handled turn).1
  | .part only, tested => tested = only
  | _, _ => False

/-- The parts that the reaction to an event may have. -/
inductive Part.Answers : Event → Part → Prop where
  | connection (link : LinkId) : Answers (.connection link) (.connection link)
  | connectFailed (address : PeerAddress) :
      Answers (.connectFailed address) (.connectFailed address)
  | handshake (peer : Peer) : Answers (.handshake peer) (.handshake peer)
  | relay (link : LinkId) (addresses added : List PeerAddress) :
      Answers (.addresses link addresses) (.relay link added)
  | excessive (link : LinkId) (signal : Signal) (reason : String) :
      Answers (.signal link signal) (.ban link reason)
  | route (link : LinkId) (signal : Signal) : Answers (.signal link signal) (.route link signal)
  | ban (link : LinkId) (reason : String) : Answers (.ban link reason) (.ban link reason)
  | closed (link : LinkId) (byRemote : Bool) : Answers (.closed link byRemote) (.closed link)
  | checkPeerCount (event : Event) : Answers event .checkPeerCount

theorem answers_of_mem_signalParts {config : Config} {link : LinkId} {signal : Signal}
    {part : Part} (member : part ∈ signalParts config link signal) :
    Part.Answers (.signal link signal) part := by
  unfold signalParts at member
  split at member
  · rw [List.mem_singleton.1 member]
    exact .excessive link signal _
  · split at member
    · exact absurd member List.not_mem_nil
    · rw [List.mem_singleton.1 member]
      exact .route link signal

theorem answers_of_mem_take {event : Event} {turn : Turn} {part : Part}
    (member : part ∈ (take event turn).1) : Part.Answers event part := by
  -- A reaction has a first part of its own, if any, and then the number of peers is checked.
  have of_mem_pair {first : Part} (answers : Part.Answers event first)
      (member : part ∈ [first, .checkPeerCount]) : Part.Answers event part := by
    rcases List.mem_cons.1 member with rfl | check
    · exact answers
    · rw [List.mem_singleton.1 check]
      exact .checkPeerCount event
  have of_mem_one {first : Part} (answers : Part.Answers event first)
      (member : part ∈ [first]) : Part.Answers event part :=
    of_mem_pair answers (List.mem_cons.2 (.inl (List.mem_singleton.1 member)))
  unfold take at member
  cases event with
  | connection link => exact of_mem_one (.connection link) member
  | connectFailed address => exact of_mem_pair (.connectFailed address) member
  | handshake peer => exact of_mem_one (.handshake peer) member
  | addresses link addresses =>
      dsimp only at member
      split at member
      · exact of_mem_one (.checkPeerCount _) member
      · exact of_mem_pair (.relay link addresses _) member
  | signal link signal => exact answers_of_mem_signalParts member
  | ban link reason => exact of_mem_one (.ban link reason) member
  | closed link byRemote =>
      dsimp only at member
      split at member
      · exact of_mem_pair (.closed link byRemote) member
      · exact of_mem_one (.closed link byRemote) member
  | checkPeerCount => exact of_mem_one (.checkPeerCount _) member

theorem Move.Performs.cases {move : Move} {part : Part} (performs : move.Performs part) :
    (∃ event, move = .event event ∧ Part.Answers event part) ∨ move = .part part := by
  cases move with
  | event event =>
      obtain ⟨turn, member⟩ := performs
      exact .inl ⟨event, rfl, answers_of_mem_take member⟩
  | part only =>
      have same : part = only := performs
      exact .inr (by rw [same])
  | take event => exact performs.elim
  | control control => exact performs.elim

theorem Move.connection?_of_performs {move : Move} {id : LinkId}
    (performs : move.Performs (.connection id)) : move.connection? = some id := by
  obtain ⟨event, rfl, answers⟩ | rfl := performs.cases
  · cases answers
    rfl
  · rfl

theorem Move.failure?_of_performs {move : Move} {address : PeerAddress}
    (performs : move.Performs (.connectFailed address)) : move.failure? = some address := by
  obtain ⟨event, rfl, answers⟩ | rfl := performs.cases
  · cases answers
    rfl
  · rfl

theorem Step.turn_of_connection? {step : Step} {id : LinkId}
    (handed : step.move.connection? = some id) (manager : Manager) :
    step.turn manager = onConnection id (Turn.start manager step.links) := by
  obtain ⟨around, links, move⟩ := step
  unfold Move.connection? at handed
  split at handed
  · next moveIs =>
      injection handed with same
      subst same moveIs
      rfl
  · next moveIs =>
      injection handed with same
      subst same moveIs
      rfl
  · simp at handed

theorem Step.checked_of_failure? {step : Step} {address : PeerAddress}
    (failed : step.move.failure? = some address) (manager : Manager) :
    Checked (onConnectFailed address (Turn.start manager step.links)) (step.turn manager) := by
  obtain ⟨around, links, move⟩ := step
  unfold Move.failure? at failed
  split at failed
  · next moveIs =>
      injection failed with same
      subst same moveIs
      exact checked_checkPeerCount around _
  · next moveIs =>
      injection failed with same
      subst same moveIs
      exact .idle rfl
  · simp at failed

/-! ## What all parts of a step keep -/

/-- What is learned from the addresses that are heard and what every part of the reaction
keep is kept by the reaction to an event. -/
theorem handle_keeps {P : Turn → Prop} {around : Surroundings} {event : Event} {turn : Turn}
    (learn : ∀ link addresses, event = .addresses link addresses → P turn →
      P (learnAddresses link addresses turn).2)
    (perform : ∀ part ∈ (take event turn).1, ∀ turn, P turn → P (part.perform around turn))
    (holds : P turn) : P (handle around event turn) := by
  have taken : P (take event turn).2 := by
    cases event with
    | addresses link addresses => exact learn link addresses rfl holds
    | _ => exact holds
  show P ((take event turn).1.foldl (fun turn part => part.perform around turn)
    (take event turn).2)
  generalize (take event turn).1 = parts at perform
  generalize (take event turn).2 = started at taken
  induction parts generalizing started with
  | nil => exact taken
  | cons part rest hypothesis =>
      apply hypothesis
      · intro later member
        exact perform later (List.mem_cons_of_mem part member)
      · exact perform part (List.mem_cons_self ..) started taken

/-- The link through which addresses are heard in a move. -/
def Move.hears? : Move → Option LinkId
  | .event (.addresses link _) => some link
  | .take (.addresses link _) => some link
  | _ => none

/-- What every part of the reactions keeps, and the addresses that are heard, and the control
that is followed if there is one, is kept by a step. -/
theorem Step.keeps_heard {P : Turn → Prop} (step : Step) {manager : Manager}
    (learn : ∀ link addresses turn, step.move.hears? = some link → P turn →
      P (learnAddresses link addresses turn).2)
    (perform : ∀ part turn, step.move.Performs part → P turn →
      P (part.perform step.around turn))
    (control : ∀ control, step.move = .control control →
      P (follow step.around control (Turn.start manager step.links)).2)
    (holds : P (Turn.start manager step.links)) : P (step.turn manager) := by
  obtain ⟨around, links, move⟩ := step
  cases move with
  | event event =>
      apply handle_keeps _ _ holds
      · rintro link addresses rfl
        exact learn link addresses _ rfl
      · intro part member turn
        exact perform part turn ⟨_, member⟩
  | take event =>
      cases event with
      | addresses link addresses => exact learn link addresses _ rfl holds
      | _ => exact holds
  | part part => exact perform part _ rfl holds
  | control chosen => exact control chosen rfl

/-- What every part of the reactions keeps, and the control that is followed if
there is one, is kept by a step. -/
theorem Step.keeps {P : Turn → Prop} (step : Step) {manager : Manager}
    (learn : ∀ link addresses turn, P turn → P (learnAddresses link addresses turn).2)
    (perform : ∀ part turn, step.move.Performs part → P turn →
      P (part.perform step.around turn))
    (control : ∀ control, step.move = .control control →
      P (follow step.around control (Turn.start manager step.links)).2)
    (holds : P (Turn.start manager step.links)) : P (step.turn manager) :=
  step.keeps_heard (fun link addresses turn _ => learn link addresses turn) perform control holds

section Initial

variable {steps earlier : List Step} {step : Step} (initial : earlier ++ [step] <+: steps)

include initial

theorem mem_of_initial : step ∈ steps :=
  initial.subset (List.mem_append_right earlier (List.mem_singleton_self step))

theorem prefix_of_initial : earlier <+: steps :=
  (List.prefix_append earlier [step]).trans initial

end Initial

/-- What every allowed step keeps holds along a run of allowed steps. -/
theorem run_keeps_along {P : Manager → Prop} {A : Step → Manager → Prop}
    {manager : Manager} {steps : List Step}
    (keeps : ∀ (step : Step) manager, A step manager → P manager → P (step.apply manager))
    (allowed : ∀ earlier step, earlier ++ [step] <+: steps → A step (run manager earlier))
    (holds : P manager) : ∀ earlier, earlier <+: steps → P (run manager earlier) := by
  induction steps generalizing manager with
  | nil =>
      intro earlier initial
      rw [List.prefix_nil.1 initial]
      exact holds
  | cons step rest hypothesis =>
      intro earlier initial
      have first : A step manager := allowed [] step ⟨rest, rfl⟩
      cases earlier with
      | nil => exact holds
      | cons same others =>
          obtain ⟨rfl, later⟩ := List.cons_prefix_cons.1 initial
          apply hypothesis _ (keeps same manager first holds) others later
          intro earlier next initial
          exact allowed (same :: earlier) next (List.cons_prefix_cons.2 ⟨rfl, initial⟩)

theorem run_keeps {P : Manager → Prop} {manager : Manager} {steps : List Step}
    (keeps : ∀ (step : Step) manager, P manager → P (step.apply manager))
    (holds : P manager) : P (run manager steps) := by
  apply run_keeps_along (A := fun _ _ => True) _ _ holds steps (List.prefix_refl steps)
  · intro step manager _
    exact keeps step manager
  · intro earlier step _
    trivial

end PeerOverlay.Manager
