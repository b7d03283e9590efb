import PeerOverlay.Proofs.Manager.Run

/-!
# The switches of a manager

The owner of a node says whether connections are opened unasked, whether the host is
offline, and when to stop.  Nothing else does, so the switches of a manager are a function
of the controls that it has followed.
-/

namespace PeerOverlay.Manager

/-- What the controls of a manager switch. -/
structure Switches where
  autoConnect : Bool
  savedAutoConnect : Bool
  offline : Bool
  stopped : Bool
  deriving DecidableEq, Repr

def switches (manager : Manager) : Switches where
  autoConnect := manager.autoConnect
  savedAutoConnect := manager.savedAutoConnect
  offline := manager.offline
  stopped := manager.stopped

/-- The switches after a control. -/
def Switches.follow (switches : Switches) : Control → Switches
  | .connect => { switches with autoConnect := true, savedAutoConnect := true }
  | .disconnect _ => { switches with autoConnect := false, savedAutoConnect := false }
  | .setOnline true =>
      { switches with offline := false, autoConnect := switches.savedAutoConnect }
  | .setOnline false =>
      { switches with
        offline := true
        savedAutoConnect := switches.autoConnect
        autoConnect := false }
  | .dial _ => switches
  | .stop => { switches with stopped := true }

variable {around : Surroundings} {before after : Turn}

/-! ## Turns -/

theorem switches_of_dialed {address : PeerAddress} (dialed : Dialed address before after) :
    after.manager.switches = before.manager.switches := by
  cases dialed with
  | started manager attempts =>
      rw [manager]
      rfl
  | failed manager attempts =>
      rw [manager]
      rfl

theorem switches_of_checked (checked : Checked before after) :
    after.manager.switches = before.manager.switches := by
  cases checked with
  | idle same => rw [same]
  | dialed address free dialed => exact switches_of_dialed dialed

theorem switches_finishAttempt (manager : Manager) (link : Link) :
    (manager.finishAttempt link).switches = manager.switches := by
  rw [finishAttempt_eq]
  rfl

/-- No part of a reaction switches anything. -/
theorem switches_perform (part : Part) (turn : Turn) :
    (part.perform around turn).manager.switches = turn.manager.switches := by
  cases part with
  | connection id =>
      cases opened_onConnection id turn with
      | unknown missing same => rw [Part.perform, same]
      | refused link known manager attempts =>
          rw [Part.perform, manager]
          exact switches_finishAttempt turn.manager link
      | takenIn link known admitted manager attempts =>
          rw [Part.perform, manager, seat_eq]
          exact switches_finishAttempt turn.manager link
  | connectFailed address =>
      rw [Part.perform, (onConnectFailed_eq address turn).1]
      rfl
  | handshake peer =>
      cases announced_onHandshake around peer turn with
      | passedOver manager attempts => rw [Part.perform, manager]
      | accepted slot known admitted manager attempts =>
          rw [Part.perform, manager, seat_eq]
          rfl
  | relay source addresses =>
      rw [Part.perform, (relayToAgents_eq around source addresses turn).1]
  | route link signal =>
      obtain ⟨⟨routes, forwards, manager⟩, _⟩ := routed_onSignal around link signal turn
      rw [Part.perform, manager]
      rfl
  | ban link reason =>
      rw [Part.perform, (banLink_eq around link reason turn).1]
      rfl
  | closed link =>
      cases ended_onClosed link turn with
      | unknown same => rw [Part.perform, same]
      | lost slot peer known joined manager attempts =>
          rw [Part.perform, manager, vacate_eq]
          rfl
      | missed slot known peerless manager attempts =>
          rw [Part.perform, manager, vacate_eq]
          rfl
  | checkPeerCount => exact switches_of_checked (checked_checkPeerCount around turn)

theorem switches_follow (around : Surroundings) (control : Control) (turn : Turn) :
    (follow around control turn).2.manager.switches = turn.manager.switches.follow control := by
  cases control with
  | connect => exact switches_of_checked (checked_checkPeerCount around _)
  | disconnect reason => rfl
  | setOnline online =>
      cases online with
      | false => rfl
      | true => exact switches_of_checked (checked_checkPeerCount around _)
  | dial address =>
      rw [snd_follow_dial]
      split
      · exact switches_of_dialed (dialed_connectTo around address turn)
      · rfl
  | stop => rfl

/-! ## Steps and runs -/

def Move.control? : Move → Option Control
  | .control chosen => some chosen
  | _ => none

theorem Step.turn_of_control? {step : Step} {control : Control}
    (followed : step.move.control? = some control) (manager : Manager) :
    step.turn manager = (follow step.around control (Turn.start manager step.links)).2 := by
  obtain ⟨around, links, move⟩ := step
  unfold Move.control? at followed
  split at followed
  · next chosen moveIs =>
      injection followed with same
      subst same moveIs
      rfl
  · simp at followed

theorem Step.switches_apply_of_control? {step : Step} {control : Control}
    (followed : step.move.control? = some control) (manager : Manager) :
    (step.apply manager).switches = manager.switches.follow control := by
  rw [apply, step.turn_of_control? followed]
  exact switches_follow step.around control (Turn.start manager step.links)

theorem Step.switches_apply_of_none {step : Step} (reacts : step.move.control? = none)
    (manager : Manager) : (step.apply manager).switches = manager.switches := by
  apply Step.keeps (P := fun turn => turn.manager.switches = manager.switches) step
  · intro link addresses turn same
    exact same
  · intro part turn _ same
    exact (switches_perform part turn).trans same
  · intro control followed
    rw [followed] at reacts
    exact absurd reacts (Option.some_ne_none control)
  · rfl

/-- The controls of a run, in order. -/
def controls (steps : List Step) : List Control :=
  steps.filterMap fun step => step.move.control?

theorem controls_cons (step : Step) (rest : List Step) :
    controls (step :: rest) = step.move.control?.toList ++ controls rest :=
  filterMap_cons_eq _ step rest

theorem controls_concat (earlier : List Step) (step : Step) :
    controls (earlier ++ [step]) = controls earlier ++ step.move.control?.toList :=
  filterMap_concat_eq _ earlier step

theorem switches_run (manager : Manager) (steps : List Step) :
    (run manager steps).switches = (controls steps).foldl Switches.follow manager.switches := by
  induction steps generalizing manager with
  | nil => rfl
  | cons step rest hypothesis =>
      rw [run_cons, hypothesis, controls_cons]
      cases followed : step.move.control? with
      | none =>
          rw [step.switches_apply_of_none followed]
          rfl
      | some control =>
          rw [step.switches_apply_of_control? followed]
          rfl

end PeerOverlay.Manager
