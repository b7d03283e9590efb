import Mathlib.Data.List.Induction
import PeerOverlay.Proofs.Manager.Switches

/-!
# Connections that are opened unasked

The owner of a node wishes connections to be opened unasked, or not, and the host goes
offline and comes back in between.  What the manager goes back to is saved with every
notice that the host is offline, so a second notice saves that nothing is opened, and the
wish is forgotten.
-/

namespace PeerOverlay.Manager

/-! ## Wishes and notices -/

/-- Whether connections are to be opened unasked, after one more control. -/
def Control.wish (wished : Bool) : Control → Bool
  | .connect => true
  | .disconnect _ => false
  | _ => wished

/-- Whether the last call that said so wanted connections to be opened unasked. -/
def wishAfter (controls : List Control) : Bool :=
  controls.foldl Control.wish false

/-- The notices that the host is offline which nothing has answered, after one more
control. -/
def Control.notices (number : Nat) : Control → Nat
  | .connect => 0
  | .disconnect _ => 0
  | .setOnline true => 0
  | .setOnline false => number + 1
  | _ => number

/-- The number of notices that the host is offline since it came back, or since the owner
last said whether connections are to be opened unasked. -/
def noticesAfter (controls : List Control) : Nat :=
  controls.foldl Control.notices 0

theorem wishAfter_concat (earlier : List Control) (control : Control) :
    wishAfter (earlier ++ [control]) = control.wish (wishAfter earlier) := by
  unfold wishAfter
  rw [List.foldl_append]
  rfl

theorem noticesAfter_concat (earlier : List Control) (control : Control) :
    noticesAfter (earlier ++ [control]) = control.notices (noticesAfter earlier) := by
  unfold noticesAfter
  rw [List.foldl_append]
  rfl

namespace Switches

/-! ## What a control keeps -/

variable {wished : Bool} {number : Nat} {switches : Switches}

/-- Whether the switches are off as far as notices have turned them off. -/
structure Noticed (number : Nat) (switches : Switches) : Prop where
  offline : 1 ≤ number → switches.offline = true
  autoConnect : 1 ≤ number → switches.autoConnect = false
  savedAutoConnect : 2 ≤ number → switches.savedAutoConnect = false

theorem Noticed.follow (noticed : Noticed number switches) (control : Control) :
    Noticed (control.notices number) (switches.follow control) := by
  have unnoticed (after : Switches) : Noticed 0 after :=
    ⟨fun some => absurd some (by omega), fun some => absurd some (by omega),
      fun several => absurd several (by omega)⟩
  cases control with
  | connect => exact unnoticed _
  | disconnect reason => exact unnoticed _
  | setOnline online =>
      cases online with
      | true => exact unnoticed _
      | false =>
          refine ⟨fun _ => rfl, fun _ => rfl, ?_⟩
          intro several
          exact noticed.autoConnect (Nat.le_of_succ_le_succ several)
  | dial address => exact noticed
  | stop => exact ⟨noticed.offline, noticed.autoConnect, noticed.savedAutoConnect⟩

theorem Noticed.foldl (noticed : Noticed number switches) (controls : List Control) :
    Noticed (controls.foldl Control.notices number) (controls.foldl Switches.follow switches) := by
  induction controls generalizing number switches with
  | nil => exact noticed
  | cons control rest hypothesis => exact hypothesis (noticed.follow control)

/-- Whether the switches stand as wished, as far as notices have not turned them off. -/
structure AsWished (wished : Bool) (number : Nat) (switches : Switches) : Prop where
  autoConnect : number = 0 → switches.autoConnect = wished
  savedAutoConnect : number ≤ 1 → switches.savedAutoConnect = wished

/-- A wish is kept, unless the host comes back after a second notice. -/
theorem AsWished.follow (asWished : AsWished wished number switches)
    (noticed : Noticed number switches) {control : Control}
    (kept : control = .setOnline true → wished = true → number ≤ 1) :
    AsWished (control.wish wished) (control.notices number) (switches.follow control) := by
  cases control with
  | connect => exact ⟨fun _ => rfl, fun _ => rfl⟩
  | disconnect reason => exact ⟨fun _ => rfl, fun _ => rfl⟩
  | setOnline online =>
      cases online with
      | false =>
          refine ⟨fun none => absurd none (Nat.succ_ne_zero number), ?_⟩
          intro few
          exact asWished.autoConnect (Nat.le_zero.1 (Nat.le_of_succ_le_succ few))
      | true =>
          -- After a second notice nothing but off is saved, and `kept` says that off is wished.
          have saved : switches.savedAutoConnect = wished := by
            by_cases few : number ≤ 1
            · exact asWished.savedAutoConnect few
            · have unwanted : wished = false :=
                Bool.eq_false_iff.2 fun wanted => few (kept rfl wanted)
              rw [unwanted]
              exact noticed.savedAutoConnect (Nat.lt_of_not_le few)
          exact ⟨fun _ => saved, fun _ => saved⟩
  | dial address => exact asWished
  | stop => exact ⟨asWished.autoConnect, asWished.savedAutoConnect⟩

end Switches

/-! ## Runs -/

/-- Whether a step tells that the host is back after more than one notice that it is
offline, although connections are to be opened unasked. -/
def Step.Forgets (step : Step) (earlier : List Step) : Prop :=
  step.move.control? = some (.setOnline true) ∧ wishAfter (controls earlier) = true ∧
    2 ≤ noticesAfter (controls earlier)

/-- What every control keeps of the switches, with the wish and the notices, holds along a
run. -/
theorem run_keeps_wished {P : Bool → Nat → Switches → Prop} {manager : Manager}
    {steps earlier : List Step} (initial : earlier <+: steps) (start : P false 0 manager.switches)
    (follow : ∀ earlier step control, earlier ++ [step] <+: steps →
      step.move.control? = some control → ∀ switches,
        P (wishAfter (controls earlier)) (noticesAfter (controls earlier)) switches →
          P (control.wish (wishAfter (controls earlier)))
            (control.notices (noticesAfter (controls earlier))) (switches.follow control)) :
    P (wishAfter (controls earlier)) (noticesAfter (controls earlier))
      (run manager earlier).switches := by
  induction earlier using List.reverseRecOn with
  | nil => exact start
  | append_singleton earlier step hypothesis =>
      have before := hypothesis (prefix_of_initial initial)
      rw [run_append, run_cons, run_nil, controls_concat]
      cases followed : step.move.control? with
      | none =>
          rw [step.switches_apply_of_none followed, Option.toList_none, List.append_nil]
          exact before
      | some control =>
          rw [step.switches_apply_of_control? followed, Option.toList_some, wishAfter_concat,
            noticesAfter_concat]
          exact follow earlier step control initial followed _ before

variable (config : Config) (book : AddressBook)

theorem noticed_run (steps : List Step) :
    Switches.Noticed (noticesAfter (controls steps))
      (run (Manager.new config book) steps).switches := by
  rw [switches_run]
  apply Switches.Noticed.foldl
  exact ⟨fun some => absurd some (by decide), fun _ => rfl, fun _ => rfl⟩

/-- The switches stand as wished as long as no wish is forgotten. -/
theorem asWished_run {steps earlier : List Step} (initial : earlier <+: steps)
    (kept : ∀ earlier step, earlier ++ [step] <+: steps → ¬ step.Forgets earlier) :
    Switches.AsWished (wishAfter (controls earlier)) (noticesAfter (controls earlier))
      (run (Manager.new config book) earlier).switches := by
  have both : Switches.Noticed (noticesAfter (controls earlier))
        (run (Manager.new config book) earlier).switches ∧
      Switches.AsWished (wishAfter (controls earlier)) (noticesAfter (controls earlier))
        (run (Manager.new config book) earlier).switches := by
    apply run_keeps_wished (P := fun wished number switches =>
      Switches.Noticed number switches ∧ Switches.AsWished wished number switches) initial
    · exact ⟨noticed_run config book [], fun _ => rfl, fun _ => rfl⟩
    · rintro earlier step control initial followed switches ⟨noticed, asWished⟩
      refine ⟨noticed.follow control, asWished.follow noticed ?_⟩
      rintro rfl wanted
      apply Nat.le_of_not_lt
      intro several
      exact kept earlier step initial ⟨followed, wanted, several⟩
  exact both.2

theorem Step.Forgets.autoConnect_eq_false {step : Step} {earlier : List Step}
    (forgets : step.Forgets earlier) :
    (run (Manager.new config book) (earlier ++ [step])).offline = false ∧
      (run (Manager.new config book) (earlier ++ [step])).autoConnect = false ∧
        wishAfter (controls (earlier ++ [step])) = true := by
  obtain ⟨followed, wanted, several⟩ := forgets
  have saved := (noticed_run config book earlier).savedAutoConnect several
  have after := step.switches_apply_of_control? followed (run (Manager.new config book) earlier)
  rw [run_append]
  refine ⟨congrArg Switches.offline after, ?_, ?_⟩
  · exact (congrArg Switches.autoConnect after).trans saved
  · rw [controls_concat, followed, Option.toList_some, wishAfter_concat]
    exact wanted

/-- While the host is online, connections are opened unasked exactly if the last call that
said so wanted it, all along a run, if and only if in the run the host never comes back
after more than one notice that it is offline while the wish stands. -/
theorem autoConnect_eq_wish_iff_not_forgets (config : Config) (book : AddressBook)
    (steps : List Step) :
    (∀ earlier, earlier <+: steps → (run (Manager.new config book) earlier).offline = false →
        (run (Manager.new config book) earlier).autoConnect = wishAfter (controls earlier)) ↔
      ∀ earlier step, earlier ++ [step] <+: steps → ¬ step.Forgets earlier := by
  constructor
  · intro asWished earlier step initial forgets
    obtain ⟨online, off, wanted⟩ := forgets.autoConnect_eq_false config book
    have on := asWished (earlier ++ [step]) initial online
    rw [off, wanted] at on
    exact Bool.false_ne_true on
  · intro kept earlier initial online
    apply (asWished_run config book initial kept).autoConnect
    apply Nat.eq_zero_of_not_pos
    intro some
    have offline := (noticed_run config book earlier).offline some
    exact Bool.false_ne_true (online.symm.trans offline)

/-- Connections are wished, and the host goes offline, with as many notices of it, and
comes back. -/
def awayAndBack (notices : Nat) : List Step :=
  let follow (control : Control) : Step := .plain .empty (.control control)
  follow .connect :: (List.replicate notices (follow (.setOnline false)) ++
    [follow (.setOnline true)])

/-- With the second notice the wish is lost. -/
theorem wish_lost_by_second_notice :
    wishAfter (controls (awayAndBack 2)) = true ∧
      (run (atHost "1.1.1.1") (awayAndBack 2)).offline = false ∧
      (run (atHost "1.1.1.1") (awayAndBack 2)).autoConnect = false ∧
      (run (atHost "1.1.1.1") (awayAndBack 1)).autoConnect = true := by
  decide

end PeerOverlay.Manager
