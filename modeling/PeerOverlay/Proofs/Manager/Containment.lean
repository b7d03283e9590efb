import PeerOverlay.Proofs.Manager.Effects
import PeerOverlay.Proofs.Manager.SignalLine
import PeerOverlay.Proofs.Manager.Slots

/-!
# Events that stay on one link

Whatever comes through a link, and however the manager takes it, the slots of all other
links stay as they are and no other link is closed.  Others can get one signal that is
passed on, and their agents can be asked to pass addresses on.  What connectors do with links
is up to them; it is assumed that they use only the link through which a signal has come for them.
-/

namespace PeerOverlay

/-- The link to which an event belongs.  A failure to connect and a check of the number
of peers belong to none. -/
def Event.link? : Event → Option LinkId
  | .connection link => some link
  | .connectFailed _ => none
  | .handshake peer => some peer.link
  | .addresses link _ => some link
  | .signal link _ => some link
  | .ban link _ => some link
  | .closed link _ => some link
  | .checkPeerCount => none

/-- Whether a link is closed, and for which reason. -/
def Link.closing (link : Link) : Bool × Option String :=
  (link.closed, link.reason)

theorem Link.closing_send (link : Link) (message : Message) :
    (link.send message).2.closing = link.closing := by
  unfold Link.send
  split <;> rfl

theorem Links.get?_send (links : Links) (id : LinkId) (message : Message) (tested : LinkId) :
    (links.send id message).2.get? tested =
      if id = tested then (links.get? id).map fun link => (link.send message).2
      else links.get? tested := by
  unfold Links.send
  split
  · next missing =>
      split
      · next same => rw [← same, missing, Option.map_none]
      · rfl
  · next link found =>
      rw [found, Option.map_some]
      exact Table.get?_insert links id (link.send message).2 tested

namespace Manager

/-- The link to which a part of a reaction belongs. -/
def Part.link? : Part → Option LinkId
  | .connection link => some link
  | .connectFailed _ => none
  | .handshake peer => some peer.link
  | .relay source _ => some source
  | .route link _ => some link
  | .ban link _ => some link
  | .closed link => some link
  | .checkPeerCount => none

variable {own : Option LinkId} {before middle after : Turn}

/-! ## Turns that leave all other links alone -/

/-- Whether no slot and no link but the given one has changed. -/
structure Apart (own : Option LinkId) (before after : Turn) : Prop where
  slots : ∀ id, own ≠ some id → after.manager.slots.get? id = before.manager.slots.get? id
  links : ∀ id, own ≠ some id → after.links.get? id = before.links.get? id

namespace Apart

theorem of_eq (slots : after.manager.slots = before.manager.slots)
    (links : after.links = before.links) : Apart own before after where
  slots := fun id _ => congrArg (fun slots => slots.get? id) slots
  links := fun id _ => congrArg (fun links => links.get? id) links

theorem trans (first : Apart own before middle) (second : Apart own middle after) :
    Apart own before after where
  slots := fun id other => (second.slots id other).trans (first.slots id other)
  links := fun id other => (second.links id other).trans (first.links id other)

/-- Whether only the slot of a link has changed. -/
theorem of_slots {id : LinkId}
    (slots : ∀ tested, tested ≠ id →
      after.manager.slots.get? tested = before.manager.slots.get? tested)
    (links : after.links = before.links) : Apart (some id) before after where
  slots := fun tested other => slots tested fun same => other (congrArg some same.symm)
  links := fun tested _ => congrArg (fun links => links.get? tested) links

/-- Whether only a link has changed. -/
theorem of_modify {id : LinkId} {change : Link → Link}
    (slots : after.manager.slots = before.manager.slots)
    (links : after.links = before.links.modify id change) : Apart (some id) before after where
  slots := fun tested _ => congrArg (fun slots => slots.get? tested) slots
  links := by
    intro tested other
    have different : tested ≠ id := fun same => other (congrArg some same.symm)
    rw [links, Table.get?_modify]
    simp [different]

theorem seated {manager : Manager} {id : LinkId} {slot : Slot}
    {netAddress : Option NetAddress} {tested : LinkId} (other : tested ≠ id) :
    (manager.seat id slot netAddress).slots.get? tested = manager.slots.get? tested := by
  rw [seat_eq]
  exact (Table.get?_insert _ _ _ _).trans (if_neg (Ne.symm other))

theorem onConnection (id : LinkId) (turn : Turn) :
    Apart (some id) turn (Manager.onConnection id turn) := by
  unfold Manager.onConnection
  split
  · exact of_eq rfl rfl
  · next link known =>
      have finished := (SameSeats.finishAttempt turn.manager link).slots
      dsimp only
      split
      · next refusal _ =>
          have closed : Apart (some id) turn
              ((turn.update fun manager => manager.finishAttempt link).close id refusal.reason) :=
            of_modify finished rfl
          exact closed.trans (of_modify rfl rfl)
      · refine of_slots ?_ rfl
        intro tested other
        exact (seated other).trans (congrArg (fun slots => slots.get? tested) finished)

theorem onHandshake (around : Surroundings) (peer : Peer) (turn : Turn) :
    Apart (some peer.link) turn (Manager.onHandshake around peer turn) := by
  constructor
  · intro tested other
    have different : tested ≠ peer.link := fun same => other (congrArg some same.symm)
    cases announced_onHandshake around peer turn with
    | passedOver manager attempts => rw [manager]
    | accepted slot known admitted manager attempts =>
        rw [manager]
        exact seated different
  · have closed (reason : String) : Apart (some peer.link) turn (turn.close peer.link reason) :=
      of_modify rfl rfl
    unfold Manager.onHandshake
    split
    · exact fun _ _ => rfl
    · dsimp only
      split
      · exact (closed _).links
      · intro tested _
        exact congrArg (fun links => links.get? tested) (links_relayToAgents _ _ _)

theorem onClosed (id : LinkId) (turn : Turn) :
    Apart (some id) turn (Manager.onClosed id turn) := by
  refine of_slots ?_ (links_onClosed id turn)
  intro tested other
  cases ended_onClosed id turn with
  | unknown same => rw [same]
  | lost slot peer known joined manager attempts =>
      rw [manager, vacate_eq]
      exact (Table.get?_erase _ _ _).trans (if_neg (Ne.symm other))
  | missed slot known peerless manager attempts =>
      rw [manager, vacate_eq]
      exact (Table.get?_erase _ _ _).trans (if_neg (Ne.symm other))

theorem sendBack (link : LinkId) (signal : Signal) (flags : SignalFlags) (turn : Turn) :
    Apart (some link) turn (Manager.sendBack link signal flags turn) := by
  unfold Manager.sendBack
  split
  · refine ⟨fun _ _ => rfl, ?_⟩
    intro tested other
    have different : link ≠ tested := fun same => other (congrArg some same)
    exact (Links.get?_send _ _ _ _).trans (if_neg different)
  · exact of_eq rfl rfl

/-- No part but the one that routes a signal does anything to another link. -/
theorem performed (around : Surroundings) {part : Part} (unrouted : part.routed? = none)
    (turn : Turn) (belongs : ∀ id, part.link? = some id → own = some id) :
    Apart own turn (part.perform around turn) := by
  cases part with
  | connection id =>
      rw [belongs id rfl]
      exact onConnection id turn
  | connectFailed address => exact of_eq (SameSeats.failed address turn).slots rfl
  | handshake peer =>
      rw [belongs peer.link rfl]
      exact onHandshake around peer turn
  | relay source addresses =>
      apply of_eq
      · exact congrArg Manager.slots (relayToAgents_eq around source addresses turn).1
      · exact links_relayToAgents source addresses turn
  | route link signal => cases unrouted
  | ban link reason =>
      rw [belongs link rfl]
      exact of_modify rfl rfl
  | closed link =>
      rw [belongs link rfl]
      exact onClosed link turn
  | checkPeerCount =>
      exact of_eq (SameSeats.checked (checked_checkPeerCount around turn)).slots
        (links_checkPeerCount turn)

end Apart

/-! ## Turns that are contained -/

/-- Whether an effect is about the given link only, or has the agent of another link pass
addresses on.  What a connector does when it is asked to dial is left to the connector. -/
def Effect.StaysOn (own : Option LinkId) : Effect → Prop
  | .attend link => own = some link
  | .relay link _ => own ≠ some link
  | .release link => own = some link
  | .dial _ _ _ => True
  | .handSignal link _ => own = some link
  | .publish _ => True
  | .recheck _ => True

theorem Part.Emits.staysOn {manager : Manager} {part : Part} {effect : Effect}
    (emits : part.Emits manager effect)
    (belongs : ∀ id, part.link? = some id → own = some id) : effect.StaysOn own := by
  cases emits with
  | attend link => exact belongs link rfl
  | relay source other addresses different few =>
      rw [belongs source rfl]
      exact fun same => different (Option.some.inj same).symm
  | introduce peer slot other known different few =>
      rw [belongs peer.link rfl]
      exact fun same => different (Option.some.inj same).symm
  | handSignal link signal => exact belongs link rfl
  | release link => exact belongs link rfl
  | attempt address effect wanted attempted => cases attempted <;> trivial
  | _ => trivial

/-- Whether no link but the given one has changed, or one signal was queued on one of the
others. -/
inductive QueuesOne (own : Option LinkId) (before after : Links) : Prop where
  | nothing (same : ∀ id, own ≠ some id → after.get? id = before.get? id)
  | one (target : LinkId) (sent : Signal) (other : own ≠ some target)
      (queued : after.get? target =
        (before.get? target).map fun link => (link.send (.signal sent)).2)
      (same : ∀ id, own ≠ some id → id ≠ target → after.get? id = before.get? id)

theorem QueuesOne.closing_eq {before after : Links} (queues : QueuesOne own before after)
    {id : LinkId} (other : own ≠ some id) :
    (after.get? id).map Link.closing = (before.get? id).map Link.closing := by
  cases queues with
  | nothing same => rw [same id other]
  | one target sent _ queued same =>
      by_cases here : id = target
      · rw [here, queued, Option.map_map]
        congr 1
        funext link
        exact link.closing_send (.signal sent)
      · rw [same id other here]

/-- Whether all slots but the one of the given link are as they were, all other links are
open or closed as they were, at most one signal was queued on one of them, and only effects
that stay on the link were added. -/
structure Contained (own : Option LinkId) (before after : Turn) : Prop where
  slots : ∀ id, own ≠ some id → after.manager.slots.get? id = before.manager.slots.get? id
  closings : ∀ id, own ≠ some id →
    (after.links.get? id).map Link.closing = (before.links.get? id).map Link.closing
  links : QueuesOne own before.links after.links
  effects : Adds (Effect.StaysOn own) before after

namespace Contained

theorem of_queuesOne
    (slots : ∀ id, own ≠ some id → after.manager.slots.get? id = before.manager.slots.get? id)
    (queues : QueuesOne own before.links after.links)
    (effects : Adds (Effect.StaysOn own) before after) : Contained own before after where
  slots := slots
  closings := fun _ other => queues.closing_eq other
  links := queues
  effects := effects

theorem of_apart (apart : Apart own before after)
    (effects : Adds (Effect.StaysOn own) before after) : Contained own before after :=
  of_queuesOne apart.slots (.nothing apart.links) effects

end Contained

/-! ## Connectors -/

variable {react : Effect → Links → Links}

/-- The links once connectors have done with them what they do upon the effects that a turn has
added to those of an earlier one. -/
def settled (react : Effect → Links → Links) (before after : Turn) : Links :=
  (after.effects.drop before.effects.length).foldl (fun links effect => react effect links)
    after.links

/-- Whether connectors use no link but the one through which a signal has come for them.  On all
others they queue nothing, not even on the one through which they are to dial. -/
def Reserved (react : Effect → Links → Links) : Prop :=
  ∀ effect links id, (∀ signal, effect ≠ .handSignal id signal) →
    (react effect links).get? id = links.get? id

theorem Reserved.get?_foldl (reserved : Reserved react) {effects : List Effect}
    (stays : ∀ effect ∈ effects, effect.StaysOn own) (links : Links) {id : LinkId}
    (other : own ≠ some id) :
    (effects.foldl (fun links effect => react effect links) links).get? id = links.get? id := by
  induction effects generalizing links with
  | nil => rfl
  | cons effect rest hypothesis =>
      have first := stays effect List.mem_cons_self
      refine (hypothesis (fun later member => stays later (List.mem_cons_of_mem _ member)) _).trans
        (reserved effect links id ?_)
      rintro signal rfl
      exact other first

/-- Whether a turn is contained in a link together with what connectors do upon it. -/
structure ContainedWith (react : Effect → Links → Links) (own : Option LinkId)
    (before after : Turn) : Prop extends Contained own before after where
  settledClosings : ∀ id, own ≠ some id →
    ((settled react before after).get? id).map Link.closing =
      (before.links.get? id).map Link.closing
  settledLinks : QueuesOne own before.links (settled react before after)

theorem Contained.withConnectors (contained : Contained own before after)
    (reserved : Reserved react) : ContainedWith react own before after := by
  have same (id : LinkId) (other : own ≠ some id) :
      (settled react before after).get? id = after.links.get? id := by
    obtain ⟨added, effects, stays⟩ := contained.effects
    rw [settled, effects, List.drop_left]
    exact reserved.get?_foldl stays after.links other
  refine ⟨contained, ?_, ?_⟩
  · intro id other
    rw [same id other]
    exact contained.closings id other
  · cases contained.links with
    | nothing kept => exact .nothing fun id other => (same id other).trans (kept id other)
    | one target sent other queued kept =>
        exact .one target sent other ((same target other).trans queued)
          fun id elsewhere apart => (same id elsewhere).trans (kept id elsewhere apart)

/-! ## Parts of reactions -/

/-- A signal is passed on through a link other than the one through which it came. -/
theorem queuesOne_forward (around : Surroundings) {target link : LinkId} (other : target ≠ link)
    (signal : Signal) (turn : Turn) :
    QueuesOne (some link) turn.links (forward around target signal turn).links := by
  have queues : QueuesOne (some link) turn.links
      (turn.links.send target (.signal { signal with ttl := signal.ttl - 1 })).2 := by
    refine .one target { signal with ttl := signal.ttl - 1 } ?_ ?_ ?_
    · intro same
      exact other (Option.some.inj same).symm
    · rw [Links.get?_send, if_pos rfl]
    · intro id _ elsewhere
      rw [Links.get?_send, if_neg (Ne.symm elsewhere)]
  unfold forward
  dsimp only
  split <;> exact queues

theorem queuesOne_passOn (around : Surroundings) (link : LinkId) (signal : Signal)
    (turn : Turn) : QueuesOne (some link) turn.links (passOn around link signal turn).links := by
  unfold passOn
  split
  · exact .nothing (Apart.sendBack link signal .ttlExceeded turn).links
  · split
    · exact .nothing (Apart.sendBack link signal .unroutable turn).links
    · split
      · exact .nothing fun _ _ => rfl
      · next target _ other => exact queuesOne_forward around other signal turn

theorem queuesOne_onSignal (around : Surroundings) (link : LinkId) (signal : Signal)
    (turn : Turn) :
    QueuesOne (some link) turn.links (onSignal around link signal turn).links := by
  have heeded := links_heedAnswer around link signal turn
  unfold onSignal
  dsimp only
  split
  · refine .nothing fun id _ => ?_
    rw [links_receive, heeded]
  · have passed := queuesOne_passOn around link signal (heedAnswer around link signal turn)
    rwa [heeded] at passed

/-- Every part of a reaction is contained in its link. -/
theorem contained_perform (around : Surroundings) (part : Part) (turn : Turn)
    (belongs : ∀ id, part.link? = some id → own = some id) :
    Contained own turn (part.perform around turn) := by
  have effects := (adds_perform around part turn).mono fun _ emits => emits.staysOn belongs
  cases routed : part.routed? with
  | none => exact .of_apart (.performed around routed turn belongs) effects
  | some signal =>
      cases part with
      | route link signal =>
          have here : own = some link := belongs link rfl
          subst here
          have same := (SameSeats.routed (routed_onSignal around link signal turn)).slots
          apply Contained.of_queuesOne _ (queuesOne_onSignal around link signal turn) effects
          intro id _
          exact congrArg (fun slots => slots.get? id) same
      | _ => cases routed

/-! ## Events -/

/-- The parts of a reaction belong to the link of the event, if to any. -/
theorem Part.Answers.link?_eq {event : Event} {part : Part} (answers : part.Answers event)
    {id : LinkId} (belongs : part.link? = some id) : event.link? = some id := by
  cases answers with
  | checkPeerCount => cases belongs
  | _ => exact belongs

/-- An event whose reaction routes nothing leaves all other links alone. -/
theorem contained_handle_of_unrouted (around : Surroundings) {event : Event} (turn : Turn)
    (unrouted : ∀ part, Part.Answers event part → part.routed? = none) :
    Contained event.link? turn (handle around event turn) := by
  have both : Apart event.link? turn (handle around event turn) ∧
      Adds (Effect.StaysOn event.link?) turn (handle around event turn) := by
    apply handle_keeps (P := fun later =>
      Apart event.link? turn later ∧ Adds (Effect.StaysOn event.link?) turn later)
    · rintro link addresses _ ⟨apart, adds⟩
      exact ⟨apart.trans (.of_eq rfl rfl), adds.trans (.nothing rfl)⟩
    · rintro part member later ⟨apart, adds⟩
      have answers := answers_of_mem_take member
      have performed := contained_perform around part later fun _ => answers.link?_eq
      have left := Apart.performed around (unrouted part answers) later fun _ => answers.link?_eq
      exact ⟨apart.trans left, adds.trans performed.effects⟩
    · exact ⟨.of_eq rfl rfl, .nothing rfl⟩
  exact .of_apart both.1 both.2

/-- The reaction to a signal has one part at most. -/
theorem contained_handle_signal (around : Surroundings) (link : LinkId) (signal : Signal)
    (turn : Turn) : Contained (some link) turn (handle around (.signal link signal) turn) := by
  show Contained (some link) turn
    ((signalParts turn.manager.config link signal).foldl
      (fun turn part => part.perform around turn) turn)
  unfold signalParts
  split
  · exact contained_perform around (.ban link _) turn fun _ belongs => belongs
  · split
    · exact .of_apart (.of_eq rfl rfl) (.nothing rfl)
    · exact contained_perform around (.route link signal) turn fun _ belongs => belongs

/-- Handling an event, in one go or part by part with anything in between, leaves the slots
of all other links as they are and closes none of them.  At most one signal is queued on one
other link, and other agents are at most asked to pass addresses on.  This holds as well once
connectors have done their part, if they are reserved. -/
theorem event_stays_on_its_link (around : Surroundings) (event : Event) (turn : Turn)
    (reserved : Reserved react) :
    ContainedWith react event.link? turn (handle around event turn) ∧
      ContainedWith react event.link? turn (take event turn).2 ∧
        ∀ part ∈ (take event turn).1, ∀ (around : Surroundings) (later : Turn),
          ContainedWith react event.link? later (part.perform around later) := by
  refine ⟨?_, ?_, ?_⟩
  · apply Contained.withConnectors _ reserved
    cases event with
    | signal link signal => exact contained_handle_signal around link signal turn
    | _ =>
        apply contained_handle_of_unrouted
        intro part answers
        cases answers <;> rfl
  · apply Contained.withConnectors _ reserved
    refine .of_apart ?_ (adds_take _ event turn)
    cases event <;> exact .of_eq rfl rfl
  · intro part member around later
    apply Contained.withConnectors _ reserved
    exact contained_perform around part later fun _ => (answers_of_mem_take member).link?_eq

/-- The surroundings of a node on which every attempt over a socket is started. -/
def onSockets : Surroundings :=
  (Step.plain .empty (.event .checkPeerCount)).around

/-- Two hosts have become peers, and the second one has told of a node behind it. -/
def neighbours : Turn :=
  let links : Links :=
    (Table.empty.insert 1 (.opened 1 .inbound .direct (some (.ip "2.2.2.2")) none)).insert 2
      (.opened 2 .inbound .direct (some (.ip "3.3.3.3")) none)
  let peer (link : LinkId) (host : String) : Peer := {
    link := link
    address := hostAddress host
    version := 2
    startHeight := 0
    totalWork := 0
  }
  let steps : List Step :=
    [.plain links (.event (.connection 1)),
      .plain links (.event (.connection 2)),
      .plain links (.event (.handshake (peer 1 "2.2.2.2"))),
      .plain links (.event (.handshake (peer 2 "3.3.3.3"))),
      .plain links (.event (.addresses 2 [.fresh (.relayed "bbbb") .full 0]))]
  .start (run (atHost "1.1.1.1") steps) links

/-- A connector that answers every signal through the link through which it has come. -/
def answering : Effect → Links → Links
  | .handSignal link _, links => (links.send link (.pong 0)).2
  | _, links => links

theorem reserved_answering : Reserved answering := by
  intro effect links id other
  cases effect with
  | handSignal link signal =>
      refine (Links.get?_send links link _ id).trans (if_neg ?_)
      rintro rfl
      exact other signal rfl
  | _ => rfl

/-- A signal of the first peer is passed on to the second one, whose slot stays as it is,
and whose link stays open. -/
theorem event_stays_on_its_link_neighbours :
    Reserved answering ∧
      Part.route 1 (signalWithHops 3) ∈ (take (.signal 1 (signalWithHops 3)) neighbours).1 ∧
      ((handle onSockets (.signal 1 (signalWithHops 3)) neighbours).links.get? 2).map
          Link.outbound = some [.signal (signalWithHops 2)] ∧
        (handle onSockets (.signal 1 (signalWithHops 3)) neighbours).manager.slots.get? 2 =
          neighbours.manager.slots.get? 2 ∧
        ((settled answering neighbours ((Part.route 1 (signalWithHops 3)).perform onSockets
          neighbours)).get? 2).map Link.closing = some (false, none) := by
  have member :
      Part.route 1 (signalWithHops 3) ∈ (take (.signal 1 (signalWithHops 3)) neighbours).1 := by
    decide
  have contained := event_stays_on_its_link onSockets (.signal 1 (signalWithHops 3)) neighbours
    reserved_answering
  have other : some 1 ≠ some 2 := by decide
  have isOpen : (neighbours.links.get? 2).map Link.closing = some (false, none) := by decide
  refine ⟨reserved_answering, member, by decide +kernel, contained.1.slots 2 other, ?_⟩
  exact ((contained.2.2 _ member onSockets neighbours).settledClosings 2 other).trans isOpen

end Manager

end PeerOverlay
