import PeerOverlay.Proofs.Manager.Containment
import PeerOverlay.Proofs.Manager.Signals

/-!
# What a manager leaves to the transports

A turn of a manager closes links, stops reading from them and queues messages on them.  All
else on a link, such as the bytes that it has carried, changes only between the turns.
-/

namespace PeerOverlay

/-! ## The three things that turns do to links -/

/-- Whether a property of links is kept when a link is closed or abandoned, and when a message
is queued. -/
structure Links.Kept (P : Links → Prop) : Prop where
  close : ∀ links id reason, P links → P (links.close id reason)
  abandon : ∀ links id, P links → P (links.modify id Link.abandon)
  send : ∀ links id message, P links → P (links.send id message).2

namespace Links.Kept

open Manager

variable {P : Links → Prop} {around : Surroundings}

theorem closeAll (kept : Kept P) (ids : List LinkId) (reason : String) {links : Links}
    (holds : P links) : P (links.closeAll ids reason) := by
  induction ids generalizing links with
  | nil => exact holds
  | cons id rest hypothesis => exact hypothesis (kept.close links id reason holds)

theorem hushed (kept : Kept P) {before after : Links} (hushed : Hushed before after)
    (holds : P before) : P after := by
  cases hushed with
  | kept same => rwa [same]
  | closed id reason same =>
      rw [same]
      exact kept.close before id reason holds
  | refused id reason same =>
      rw [same]
      exact kept.abandon _ id (kept.close before id reason holds)

theorem perform (kept : Kept P) (part : Part) {turn : Turn} (holds : P turn.links) :
    P (part.perform around turn).links := by
  cases routed : part.routed? with
  | none => exact kept.hushed (hushed_perform routed turn) holds
  | some signal =>
      cases part with
      | route link signal =>
          have sent := sentFor_onSignal around link signal turn
          rw [Part.perform]
          cases sent with
          | nothing same => rwa [same]
          | one id sent follows same =>
              rw [same]
              exact kept.send turn.links id (.signal sent) holds
      | _ => cases routed

theorem follow (kept : Kept P) (control : Control) {turn : Turn} (holds : P turn.links) :
    P (Manager.follow around control turn).2.links := by
  rcases links_follow control turn with same | ⟨reason, shut⟩
  · rwa [same]
  · rw [shut]
    exact kept.closeAll _ reason holds

/-- What those three keep is kept by every step. -/
theorem turn (kept : Kept P) (step : Step) (manager : Manager) (holds : P step.links) :
    P (step.turn manager).links := by
  apply Step.keeps (P := fun turn => P turn.links) step
  · intro link addresses turn holds
    exact holds
  · intro part turn _ holds
    exact kept.perform part holds
  · intro control _
    exact kept.follow control holds
  · exact holds

end Links.Kept

/-! ## What is left to the transports -/

/-- A link without its queues, and without what this node has done with it. -/
def Link.bare (link : Link) : Link :=
  { link with outbound := [], inbound := [], attended := true, closed := false, reason := none }

theorem Link.bare_close (link : Link) (reason : String) : (link.close reason).bare = link.bare :=
  rfl

theorem Link.bare_abandon (link : Link) : link.abandon.bare = link.bare := rfl

theorem Link.bare_send (link : Link) (message : Message) :
    (link.send message).2.bare = link.bare := by
  unfold send
  split <;> rfl

namespace Links

def bare? (links : Links) (id : LinkId) : Option Link :=
  (links.get? id).map Link.bare

variable {links : Links} {id tested : LinkId}

theorem bare?_modify {change : Link → Link} (same : ∀ link, (change link).bare = link.bare) :
    Links.bare? (links.modify id change) tested = links.bare? tested := by
  unfold bare?
  rw [Table.get?_modify, Option.map_map]
  congr 1
  funext link
  dsimp only [Function.comp_apply]
  split
  · exact same link
  · rfl

theorem bare?_send (message : Message) :
    (links.send id message).2.bare? tested = links.bare? tested := by
  unfold bare?
  rw [get?_send]
  split
  · next same =>
      rw [← same, Option.map_map]
      congr 1
      funext link
      exact link.bare_send message
  · rfl

/-- What is read off a link without what this node has done with it. -/
theorem map_bare? {α : Type} {read : Link → α} (reads : ∀ link, read link.bare = read link) :
    (links.bare? id).map read = (links.get? id).map read := by
  rw [bare?, Option.map_map]
  congr 1
  funext link
  exact reads link

end Links

namespace Manager

theorem Step.bare?_turn (step : Step) (manager : Manager) (id : LinkId) :
    (step.turn manager).links.bare? id = step.links.bare? id := by
  have kept : Links.Kept fun links => links.bare? id = step.links.bare? id := by
    constructor
    · intro links other reason same
      exact (Links.bare?_modify fun link => link.bare_close reason).trans same
    · intro links other same
      exact (Links.bare?_modify Link.bare_abandon).trans same
    · intro links other message same
      exact (Links.bare?_send message).trans same
  exact kept.turn step manager rfl

/-- What the transports alone change on a link is after a step as the step has found it. -/
theorem Step.map_turn {α : Type} {read : Link → α} (reads : ∀ link, read link.bare = read link)
    (step : Step) (manager : Manager) (id : LinkId) :
    ((step.turn manager).links.get? id).map read = (step.links.get? id).map read := by
  rw [← Links.map_bare? reads, step.bare?_turn, Links.map_bare? reads]

/-! ## Steps after each other -/

/-- The turn that the last of some steps was. -/
def turnAfter (turn : Turn) (steps : List Step) : Turn :=
  steps.foldl (fun turn step => step.turn turn.manager) turn

theorem turnAfter_concat (turn : Turn) (earlier : List Step) (step : Step) :
    turnAfter turn (earlier ++ [step]) = step.turn (turnAfter turn earlier).manager := by
  unfold turnAfter
  rw [List.foldl_append]
  rfl

theorem manager_turnAfter (turn : Turn) (steps : List Step) :
    (turnAfter turn steps).manager = run turn.manager steps := by
  induction steps generalizing turn with
  | nil => rfl
  | cons step rest hypothesis => exact hypothesis (step.turn turn.manager)

/-- Whether a relation holds between every step and the turn before it. -/
def Along (relation : Turn → Step → Prop) (turn : Turn) : List Step → Prop
  | [] => True
  | step :: rest => relation turn step ∧ Along relation (step.turn turn.manager) rest

theorem Along.holds {relation : Turn → Step → Prop} {turn : Turn} {steps earlier : List Step}
    {step : Step} (along : Along relation turn steps) (initial : earlier ++ [step] <+: steps) :
    relation (turnAfter turn earlier) step := by
  induction steps generalizing turn earlier with
  | nil => simp at initial
  | cons first rest hypothesis =>
      cases earlier with
      | nil =>
          obtain ⟨rfl, _⟩ := List.cons_prefix_cons.1 initial
          exact along.1
      | cons same others =>
          obtain ⟨rfl, later⟩ := List.cons_prefix_cons.1 initial
          have holds := hypothesis along.2 later
          exact holds

end Manager

end PeerOverlay
