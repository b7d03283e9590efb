import PeerOverlay.Proofs.Manager.Arrivals
import PeerOverlay.Proofs.Manager.Mirror

/-!
# Milestones of links and peers

On its way a link is attended to, its peer joins, and at the end the peer leaves and the
link is released.  A step does one of these things to the slots, or none of them, and its
effects tell exactly that.
-/

namespace PeerOverlay

/-! ## Traffic -/

/-- The bytes that a link has carried. -/
structure Traffic where
  sent : UInt64
  received : UInt64
  deriving DecidableEq, Repr

instance : Add Traffic where
  add first second := ⟨first.sent + second.sent, first.received + second.received⟩

instance : Zero Traffic where
  zero := ⟨0, 0⟩

theorem Traffic.add_zero (traffic : Traffic) : traffic + 0 = traffic := by
  show Traffic.mk (traffic.sent + 0) (traffic.received + 0) = traffic
  rw [UInt64.add_zero, UInt64.add_zero]

def Link.traffic (link : Link) : Traffic where
  sent := link.sent
  received := link.received

/-- The traffic of a link, none if it is not known. -/
def Links.traffic (links : Links) (id : LinkId) : Traffic :=
  ((links.get? id).map Link.traffic).getD 0

namespace Manager

/-- The traffic of links that are gone. -/
def pastTraffic (manager : Manager) : Traffic where
  sent := manager.bytesSent
  received := manager.bytesReceived

theorem pastTraffic_vacate (id : LinkId) (slot : Slot) (links : Links) (manager : Manager) :
    (vacate id slot links manager).pastTraffic = manager.pastTraffic + links.traffic id := by
  rw [vacate_eq]
  unfold Links.traffic
  cases links.get? id with
  | none => exact (Traffic.add_zero manager.pastTraffic).symm
  | some link => rfl

/-! ## Milestones -/

inductive Milestone where
  | attended (link : LinkId)
  | released (link : LinkId)
  | told (news : PeerNews)
  deriving DecidableEq, Repr

def Effect.milestone? : Effect → Option Milestone
  | .attend link => some (.attended link)
  | .release link => some (.released link)
  | .publish news => some (.told news)
  | _ => none

/-- What is told when a link is released that may have had a peer. -/
def farewell (peer : Option Peer) : List PeerNews :=
  peer.elim [] fun peer => [.left peer, .changed]

namespace Turn

variable (turn : Turn)

def milestones : List Milestone :=
  turn.effects.filterMap Effect.milestone?

theorem milestones_emit (effect : Effect) :
    (turn.emit effect).milestones = turn.milestones ++ effect.milestone?.toList :=
  filterMap_concat_eq Effect.milestone? turn.effects effect

end Turn

/-- Whether a turn has changed no slot, kept no traffic and reached no milestone. -/
structure Unmarked (before after : Turn) : Prop where
  slots : after.manager.slots = before.manager.slots
  traffic : after.manager.pastTraffic = before.manager.pastTraffic
  milestones : after.milestones = before.milestones

namespace Unmarked

variable {before middle after : Turn}

theorem of_eq (same : after = before) : Unmarked before after := by
  rw [same]
  exact ⟨rfl, rfl, rfl⟩

theorem trans (first : Unmarked before middle) (second : Unmarked middle after) :
    Unmarked before after where
  slots := second.slots.trans first.slots
  traffic := second.traffic.trans first.traffic
  milestones := second.milestones.trans first.milestones

theorem connectTo (around : Surroundings) (address : PeerAddress) (turn : Turn) :
    Unmarked turn (Manager.connectTo around address turn).2 := by
  have told : (Manager.connectTo around address turn).2.milestones = turn.milestones := by
    apply (adds_connectTo around address turn).filterMap_eq
    intro effect attempted
    cases attempted <;> rfl
  cases dialed_connectTo around address turn with
  | started manager attempts =>
      refine ⟨?_, ?_, told⟩
      · rw [manager]
      · rw [manager]
        rfl
  | failed manager attempts =>
      refine ⟨?_, ?_, told⟩
      · rw [manager]
      · rw [manager]
        rfl

theorem checkPeerCount (around : Surroundings) (turn : Turn) :
    Unmarked turn (Manager.checkPeerCount around turn) := by
  unfold Manager.checkPeerCount
  split
  · split
    · exact of_eq rfl
    · exact connectTo around _ turn
  · exact of_eq rfl

theorem relayToAgents (around : Surroundings) (source : LinkId) (addresses : List PeerAddress)
    (turn : Turn) : Unmarked turn (Manager.relayToAgents around source addresses turn) := by
  have same := (relayToAgents_eq around source addresses turn).1
  refine ⟨congrArg Manager.slots same, congrArg pastTraffic same, ?_⟩
  apply (adds_relayToAgents around source addresses turn).filterMap_eq
  rintro _ ⟨other, _, _, rfl⟩
  rfl

theorem onSignal (around : Surroundings) (link : LinkId) (signal : Signal) (turn : Turn) :
    Unmarked turn (Manager.onSignal around link signal turn) := by
  have told : (Manager.onSignal around link signal turn).milestones = turn.milestones := by
    apply (adds_onSignal around link signal turn).filterMap_eq
    intro effect emits
    cases emits
    rfl
  obtain ⟨⟨routes, forwards, manager⟩, _⟩ := routed_onSignal around link signal turn
  refine ⟨?_, ?_, told⟩
  · rw [manager]
  · rw [manager]
    rfl

theorem onConnectFailed (address : PeerAddress) (turn : Turn) :
    Unmarked turn (Manager.onConnectFailed address turn) := by
  refine ⟨(SameSeats.failed address turn).slots, ?_, rfl⟩
  rw [(onConnectFailed_eq address turn).1]
  rfl

/-- Most parts of reactions reach no milestone. -/
theorem performed (around : Surroundings) {part : Part} (turn : Turn)
    (noLink : part.connection? = none) (noPeer : part.handshake? = none)
    (noEnd : part.closed? = none) : Unmarked turn (part.perform around turn) := by
  cases part with
  | connection link => cases noLink
  | connectFailed address => exact onConnectFailed address turn
  | handshake peer => cases noPeer
  | relay source addresses => exact relayToAgents around source addresses turn
  | route link signal => exact onSignal around link signal turn
  | ban link reason => exact ⟨rfl, rfl, rfl⟩
  | closed link => cases noEnd
  | checkPeerCount => exact checkPeerCount around turn

/-- Controls reach no milestone. -/
theorem followed (around : Surroundings) (control : Control) (turn : Turn) :
    Unmarked turn (follow around control turn).2 := by
  have switched {before after : Turn} (checked : Unmarked before after)
      (slots : before.manager.slots = turn.manager.slots)
      (traffic : before.manager.pastTraffic = turn.manager.pastTraffic)
      (effects : before.effects = turn.effects) : Unmarked turn after :=
    Unmarked.trans ⟨slots, traffic, congrArg (List.filterMap _) effects⟩ checked
  cases control with
  | connect => exact switched (checkPeerCount around _) rfl rfl rfl
  | disconnect reason => exact ⟨rfl, rfl, rfl⟩
  | setOnline online =>
      cases online with
      | false => exact ⟨rfl, rfl, rfl⟩
      | true => exact switched (checkPeerCount around _) rfl rfl rfl
  | dial address =>
      rw [snd_follow_dial]
      split
      · exact connectTo around address turn
      · exact of_eq rfl
  | stop => exact ⟨rfl, rfl, rfl⟩

end Unmarked

/-! ## Ends of links -/

/-- The link of which a move says that it has ended. -/
def Move.ending? : Move → Option LinkId
  | .event (.closed link _) => some link
  | .part (.closed link) => some link
  | _ => none

theorem Move.ending?_of_performs {move : Move} {id : LinkId}
    (performs : move.Performs (.closed id)) : move.ending? = some id := by
  obtain ⟨event, rfl, answers⟩ | rfl := performs.cases
  · cases answers
    rfl
  · rfl

/-- When a link has ended, the number of peers may be checked, and nothing else is done. -/
theorem Step.turn_of_ending? {step : Step} {id : LinkId}
    (ending : step.move.ending? = some id) (manager : Manager) :
    step.turn manager = onClosed id (Turn.start manager step.links) ∨
      step.turn manager =
        Manager.checkPeerCount step.around (onClosed id (Turn.start manager step.links)) := by
  obtain ⟨around, links, move⟩ := step
  unfold Move.ending? at ending
  split at ending
  · next link byRemote moveIs =>
      injection ending with same
      subst same moveIs
      dsimp only [Step.turn, handle, take]
      split
      · exact .inr rfl
      · exact .inl rfl
  · next moveIs =>
      injection ending with same
      subst same moveIs
      exact .inl rfl
  · cases ending

theorem Step.checked_of_ending? {step : Step} {id : LinkId}
    (ending : step.move.ending? = some id) (manager : Manager) :
    Checked (onClosed id (Turn.start manager step.links)) (step.turn manager) := by
  rcases step.turn_of_ending? ending manager with same | checks
  · exact .idle same
  · rw [checks]
    exact checked_checkPeerCount step.around _

theorem Step.unmarked_of_ending? {step : Step} {id : LinkId}
    (ending : step.move.ending? = some id) (manager : Manager) :
    Unmarked (onClosed id (Turn.start manager step.links)) (step.turn manager) := by
  rcases step.turn_of_ending? ending manager with same | checks
  · exact .of_eq same
  · rw [checks]
    exact Unmarked.checkPeerCount step.around _

/-! ## What a step does to the slots -/

theorem acceptPeer_eq (around : Surroundings) (slot : Slot) (peer : Peer) (turn : Turn) :
    (acceptPeer around slot peer turn).manager.slots =
        turn.manager.slots.insert peer.link (slot.accept peer) ∧
      (acceptPeer around slot peer turn).manager.pastTraffic = turn.manager.pastTraffic ∧
      (acceptPeer around slot peer turn).milestones =
        turn.milestones ++ [.told (.joined peer), .told .changed] := by
  unfold acceptPeer
  dsimp only
  rw [Turn.milestones_emit, Turn.milestones_emit, List.append_assoc]
  generalize seated : turn.update _ = later
  have relayed := Unmarked.relayToAgents around peer.link [peer.address] later
  refine ⟨relayed.slots.trans ?_, relayed.traffic.trans ?_, ?_⟩
  · rw [← seated, Turn.update, seat_eq]
  · rw [← seated, Turn.update, seat_eq]
    rfl
  · rw [relayed.milestones, ← seated]
    rfl

/-- What a step does to the slots, with the milestones that it reaches. -/
inductive Step.Reaches (step : Step) (manager : Manager) : Prop where
  | nothing (same : Unmarked (Turn.start manager step.links) (step.turn manager))
  | attended (id : LinkId) (link : Link) (handed : step.move.connection? = some id)
      (known : step.links.get? id = some link)
      (slots : (step.apply manager).slots = manager.slots.insert id (.ofLink link))
      (traffic : (step.apply manager).pastTraffic = manager.pastTraffic)
      (milestones : (step.turn manager).milestones = [.attended id])
  | joined (peer : Peer) (slot : Slot)
      (announced : step.move.announcement?.map Peer.link = some peer.link)
      (known : manager.slots.get? peer.link = some slot)
      (slots : (step.apply manager).slots = manager.slots.insert peer.link (slot.accept peer))
      (traffic : (step.apply manager).pastTraffic = manager.pastTraffic)
      (milestones : (step.turn manager).milestones = [.told (.joined peer), .told .changed])
  | released (id : LinkId) (slot : Slot) (ending : step.move.ending? = some id)
      (known : manager.slots.get? id = some slot)
      (slots : (step.apply manager).slots = manager.slots.erase id)
      (traffic : (step.apply manager).pastTraffic =
        manager.pastTraffic + step.links.traffic id)
      (milestones : (step.turn manager).milestones =
        .released id :: (farewell slot.peer).map .told)

namespace Step.Reaches

variable {step : Step}

theorem of_connection? {id : LinkId} (handed : step.move.connection? = some id)
    (manager : Manager) : step.Reaches manager := by
  have turnIs := step.turn_of_connection? handed manager
  unfold onConnection at turnIs
  split at turnIs
  · exact .nothing (.of_eq turnIs)
  · next link known =>
      have seats := SameSeats.finishAttempt manager link
      have traffic : (manager.finishAttempt link).pastTraffic = manager.pastTraffic := by
        rw [finishAttempt_eq]
        rfl
      dsimp only at turnIs
      split at turnIs
      · apply Reaches.nothing
        rw [turnIs]
        exact ⟨seats.slots, traffic, rfl⟩
      · have seated : step.apply manager = (manager.finishAttempt link).seat id (.ofLink link)
            (countable link.netAddress) := congrArg Turn.manager turnIs
        refine .attended id link handed known ?_ ?_ ?_
        · rw [seated, seat_eq, ← seats.slots]
        · rw [seated, seat_eq]
          exact traffic
        · rw [turnIs]
          rfl

theorem of_announcement? {peer : Peer} (announced : step.move.announcement? = some peer)
    (manager : Manager) : step.Reaches manager := by
  have turnIs := step.turn_of_announcement? announced manager
  unfold onHandshake at turnIs
  split at turnIs
  · exact .nothing (.of_eq turnIs)
  · next slot known =>
      dsimp only at turnIs
      split at turnIs
      · apply Reaches.nothing
        rw [turnIs]
        exact ⟨rfl, rfl, rfl⟩
      · have located : step.move.announcement?.map Peer.link = some (slot.locate peer).link := by
          rw [announced]
          rfl
        obtain ⟨slots, traffic, told⟩ := acceptPeer_eq step.around slot (slot.locate peer)
          (Turn.start manager step.links)
        rw [← turnIs] at slots traffic told
        exact .joined (slot.locate peer) slot located known slots traffic told

theorem of_ending? {id : LinkId} (ending : step.move.ending? = some id) (manager : Manager) :
    step.Reaches manager := by
  have later := step.unmarked_of_ending? ending manager
  unfold onClosed at later
  split at later
  · exact .nothing later
  · next slot known =>
      dsimp only at later
      have slots : (vacate id slot step.links manager).slots = manager.slots.erase id := by
        rw [vacate_eq]
      have traffic := pastTraffic_vacate id slot step.links manager
      have told : (step.turn manager).milestones =
          .released id :: (farewell slot.peer).map .told := by
        refine later.milestones.trans ?_
        cases slot.peer <;> rfl
      refine .released id slot ending known ?_ ?_ told
      · refine later.slots.trans ?_
        cases slot.peer <;> exact slots
      · refine later.traffic.trans ?_
        cases slot.peer <;> exact traffic

end Step.Reaches

theorem Step.reaches (step : Step) (manager : Manager) : step.Reaches manager := by
  cases handed : step.move.connection? with
  | some id => exact .of_connection? handed manager
  | none =>
      cases announced : step.move.announcement? with
      | some peer => exact .of_announcement? announced manager
      | none =>
          cases ending : step.move.ending? with
          | some id => exact .of_ending? ending manager
          | none =>
              -- All other moves do none of this in any of their parts.
              apply Reaches.nothing
              apply step.keeps (P := Unmarked (Turn.start manager step.links))
              · intro link addresses turn same
                exact same.trans ⟨rfl, rfl, rfl⟩
              · intro part turn performs same
                apply same.trans
                apply Unmarked.performed
                · cases part with
                  | connection id =>
                      rw [Move.connection?_of_performs performs] at handed
                      exact handed
                  | _ => rfl
                · cases part with
                  | handshake peer =>
                      rw [Move.announcement?_of_performs performs] at announced
                      exact announced
                  | _ => rfl
                · cases part with
                  | closed id =>
                      rw [Move.ending?_of_performs performs] at ending
                      exact ending
                  | _ => rfl
              · intro control _
                exact .followed step.around control _
              · exact .of_eq rfl

end Manager

end PeerOverlay
