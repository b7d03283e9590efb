import PeerOverlay.Proofs.Manager.Run
import PeerOverlay.Proofs.Table.Count

/-!
# What a turn does to the slots

The slots of a manager and the counts under network addresses change in three
ways: a link is taken in, the peer of a link is accepted, and the slot of a link
is vacated.
-/

namespace PeerOverlay.Manager

/-! ## Peers of links -/

def peerOf? (manager : Manager) (id : LinkId) : Option Peer :=
  (manager.slots.get? id).bind Slot.peer

variable {before after manager : Manager}

theorem peerOf?_of_insert {id : LinkId} {slot : Slot}
    (slots : after.slots = before.slots.insert id slot) (tested : LinkId) :
    after.peerOf? tested = if id = tested then slot.peer else before.peerOf? tested := by
  unfold peerOf?
  rw [slots, Table.get?_insert]
  split <;> rfl

theorem peerOf?_of_erase {id : LinkId} (slots : after.slots = before.slots.erase id)
    (tested : LinkId) :
    after.peerOf? tested = if id = tested then none else before.peerOf? tested := by
  unfold peerOf?
  rw [slots, Table.get?_erase]
  split <;> rfl

/-- A link that is taken in has no peer yet. -/
theorem peerOf?_of_ofLink {id tested : LinkId} {link : Link} {peer : Peer}
    (slots : after.slots = before.slots.insert id (.ofLink link))
    (live : after.peerOf? tested = some peer) : before.peerOf? tested = some peer := by
  rw [peerOf?_of_insert slots] at live
  split at live
  · exact absurd live (Option.some_ne_none peer).symm
  · exact live

theorem ne_and_peerOf?_of_erase {id tested : LinkId} {peer : Peer}
    (slots : after.slots = before.slots.erase id)
    (live : after.peerOf? tested = some peer) :
    id ≠ tested ∧ before.peerOf? tested = some peer := by
  rw [peerOf?_of_erase slots] at live
  split at live
  · exact absurd live (Option.some_ne_none peer).symm
  · next different => exact ⟨different, live⟩

theorem peerOf?_congr (slots : after.slots = before.slots) (tested : LinkId) :
    after.peerOf? tested = before.peerOf? tested := by
  unfold peerOf?
  rw [slots]

theorem peerOf?_new (config : Config) (book : AddressBook) (tested : LinkId) :
    (Manager.new config book).peerOf? tested = none := rfl

theorem peerCount_eq_countRows (manager : Manager) :
    manager.peerCount = manager.slots.countRows fun _ slot => slot.peer.isSome := by
  unfold peerCount peers Table.values Table.countRows
  rw [List.filterMap_map, List.length_filterMap_eq_countP]
  rfl

/-- A manager has no other peer at an endpoint if no other link has one. -/
theorem ne_of_not_hasOtherPeer {link other : LinkId} {address : PeerAddress} {peer : Peer}
    (alone : manager.hasOtherPeer link address = false) (different : other ≠ link)
    (known : manager.peerOf? other = some peer) :
    peer.address.endpoint ≠ address.endpoint := by
  intro same
  obtain ⟨slot, found, joined⟩ := Option.bind_eq_some_iff.1 known
  have row := (Table.mem_rows_iff manager.slots other slot).2 found
  have shared : manager.hasOtherPeer link address = true := by
    apply List.any_eq_true.2
    refine ⟨(other, slot), row, ?_⟩
    simp [different, joined, PeerAddress.samePeer, same]
  simp [shared] at alone

/-! ## Turns that leave the slots as they are -/

/-- Whether two managers have the same slots and count the same. -/
structure SameSeats (before after : Manager) : Prop where
  config : after.config = before.config
  slots : after.slots = before.slots
  counts : after.connectionCounts = before.connectionCounts

namespace SameSeats

theorem of_eq (same : after = before) : SameSeats before after := by
  rw [same]
  exact ⟨rfl, rfl, rfl⟩

theorem dialed {address : PeerAddress} {before after : Turn}
    (dialed : Dialed address before after) : SameSeats before.manager after.manager := by
  cases dialed with
  | started manager attempts =>
      rw [manager]
      exact ⟨rfl, rfl, rfl⟩
  | failed manager attempts =>
      rw [manager]
      exact ⟨rfl, rfl, rfl⟩

theorem checked {before after : Turn} (checked : Checked before after) :
    SameSeats before.manager after.manager := by
  cases checked with
  | idle same => exact of_eq (congrArg Turn.manager same)
  | dialed address free dialed => exact .dialed dialed

theorem followed {control : Control} {before after : Turn}
    (followed : Followed before after control) : SameSeats before.manager after.manager := by
  cases followed with
  | switched autoConnect savedAutoConnect offline stopped manager attempts =>
      rw [manager]
      exact ⟨rfl, rfl, rfl⟩
  | checked autoConnect savedAutoConnect offline checked =>
      obtain ⟨config, slots, counts⟩ := SameSeats.checked checked
      exact ⟨config, slots, counts⟩
  | dialed address allowed dialed => exact .dialed dialed

theorem routed {before after : Turn} (routed : Routed before after) :
    SameSeats before.manager after.manager := by
  obtain ⟨⟨routes, forwards, manager⟩, attempts⟩ := routed
  rw [manager]
  exact ⟨rfl, rfl, rfl⟩

theorem failed (address : PeerAddress) (turn : Turn) :
    SameSeats turn.manager (onConnectFailed address turn).manager := by
  rw [(onConnectFailed_eq address turn).1]
  exact ⟨rfl, rfl, rfl⟩

theorem banned (around : Surroundings) (id : LinkId) (reason : String) (turn : Turn) :
    SameSeats turn.manager (banLink around id reason turn).manager := by
  rw [(banLink_eq around id reason turn).1]
  exact ⟨rfl, rfl, rfl⟩

theorem learned (link : LinkId) (addresses : List PeerAddress) (turn : Turn) :
    SameSeats turn.manager (learnAddresses link addresses turn).2.manager := by
  rw [(learnAddresses_eq link addresses turn).1]
  exact ⟨rfl, rfl, rfl⟩

theorem finishAttempt (manager : Manager) (link : Link) :
    SameSeats manager (manager.finishAttempt link) := by
  rw [finishAttempt_eq]
  exact ⟨rfl, rfl, rfl⟩

end SameSeats

/-! ## Changes of the slots -/

/-- What becomes of the slots and the counts in a turn in which no link but the
given one is handed over. -/
inductive Reseated (handed : Option LinkId) (before after : Manager) : Prop where
  | kept (same : SameSeats before after)
  | takenIn (id : LinkId) (link : Link) (new : handed = some id)
      (room : (countable link.netAddress).any (before.isFull link.protocol) = false)
      (config : after.config = before.config)
      (slots : after.slots = before.slots.insert id (.ofLink link))
      (counts : after.connectionCounts =
        ((countable link.netAddress).elim before before.count).connectionCounts)
  | accepted (slot : Slot) (peer : Peer) (known : before.slots.get? peer.link = some slot)
      (room : (slot.uncounted peer).any (before.isFull slot.protocol) = false)
      (alone : before.hasOtherPeer peer.link peer.address = false)
      (few : before.hasMaxPeers = false)
      (config : after.config = before.config)
      (slots : after.slots = before.slots.insert peer.link (slot.accept peer))
      (counts : after.connectionCounts =
        ((slot.uncounted peer).elim before before.count).connectionCounts)
  | vacated (id : LinkId) (slot : Slot) (known : before.slots.get? id = some slot)
      (config : after.config = before.config)
      (slots : after.slots = before.slots.erase id)
      (counts : after.connectionCounts =
        (slot.countedUnder.elim before before.release).connectionCounts)

theorem room_of_linkRefusal? {link : Link} (admitted : manager.linkRefusal? link = none) :
    (countable link.netAddress).any (manager.isFull link.protocol) = false := by
  unfold linkRefusal? at admitted
  split at admitted
  · simp at admitted
  · next room => exact Bool.eq_false_iff.2 room

theorem limits_of_peerRefusal? {now : Nat} {slot : Slot} {peer : Peer}
    (admitted : manager.peerRefusal? now slot peer = none) :
    (slot.uncounted peer).any (manager.isFull slot.protocol) = false ∧
      manager.hasOtherPeer peer.link peer.address = false ∧ manager.hasMaxPeers = false := by
  unfold peerRefusal? at admitted
  split at admitted
  · simp at admitted
  · next room =>
      split at admitted
      · simp at admitted
      · next single =>
          split at admitted
          · simp at admitted
          · split at admitted
            · simp at admitted
            · next few =>
                rw [Bool.or_eq_true, not_or] at single
                exact ⟨Bool.eq_false_iff.2 room, Bool.eq_false_iff.2 single.2,
                  Bool.eq_false_iff.2 few⟩

namespace Reseated

variable {handed : Option LinkId}

theorem opened {id : LinkId} {before after : Turn} (opened : Opened id before after) :
    Reseated (some id) before.manager after.manager := by
  cases opened with
  | unknown missing same => exact .kept (.of_eq (congrArg Turn.manager same))
  | refused link known manager attempts =>
      obtain ⟨config, slots, counts⟩ := SameSeats.finishAttempt before.manager link
      refine .kept ?_
      rw [manager]
      exact ⟨config, slots, counts⟩
  | takenIn link known admitted manager attempts =>
      obtain ⟨config, slots, counts⟩ := SameSeats.finishAttempt before.manager link
      have room := room_of_linkRefusal? admitted
      rw [seat_eq] at manager
      refine .takenIn id link rfl ?_ ?_ ?_ ?_
      · unfold isFull connectionCount at room ⊢
        rw [config, counts] at room
        exact room
      · rw [manager]
        exact config
      · rw [manager, ← slots]
      · rw [manager]
        cases countable link.netAddress with
        | none => exact counts
        | some netAddress =>
            simp only [Option.elim_some, count, connectionCount, counts]

theorem announced {now : Nat} {peer : Peer} {before after : Turn}
    (announced : Announced now peer before after) :
    Reseated handed before.manager after.manager := by
  cases announced with
  | passedOver manager attempts => exact .kept (.of_eq manager)
  | accepted slot known admitted manager attempts =>
      obtain ⟨room, alone, few⟩ := limits_of_peerRefusal? admitted
      rw [seat_eq] at manager
      refine .accepted slot (slot.locate peer) known room alone few ?_ ?_ ?_
      · rw [manager]
      · rw [manager]
        rfl
      · rw [manager]

theorem ended {id : LinkId} {before after : Turn} (ended : Ended id before after) :
    Reseated handed before.manager after.manager := by
  cases ended with
  | unknown same => exact .kept (.of_eq (congrArg Turn.manager same))
  | lost slot peer known joined manager attempts =>
      rw [vacate_eq] at manager
      refine .vacated id slot known ?_ ?_ ?_ <;> rw [manager]
  | missed slot known peerless manager attempts =>
      rw [vacate_eq] at manager
      refine .vacated id slot known ?_ ?_ ?_ <;> rw [manager]

theorem performed {around : Surroundings} {part : Part} (turn : Turn)
    (hands : ∀ id, part = .connection id → handed = some id) :
    Reseated handed turn.manager (part.perform around turn).manager := by
  cases part with
  | connection id =>
      rw [hands id rfl]
      exact opened (opened_onConnection id turn)
  | connectFailed address => exact .kept (.failed address turn)
  | handshake peer => exact announced (announced_onHandshake around peer turn)
  | relay source addresses =>
      exact .kept (.of_eq (relayToAgents_eq around source addresses turn).1)
  | route link signal => exact .kept (.routed (routed_onSignal around link signal turn))
  | ban link reason => exact .kept (.banned around link reason turn)
  | closed link => exact ended (ended_onClosed link turn)
  | checkPeerCount => exact .kept (.checked (checked_checkPeerCount around turn))

theorem config_eq {before after : Manager} (reseated : Reseated handed before after) :
    after.config = before.config := by
  cases reseated with
  | kept seats => exact seats.config
  | takenIn id link new room config slots counts => exact config
  | accepted slot peer known room alone few config slots counts => exact config
  | vacated id slot known config slots counts => exact config

end Reseated

/-- What every change of the slots keeps is kept by a step. -/
theorem Step.keeps_of_reseated {P : Manager → Prop} (step : Step)
    (keeps : ∀ {before after}, Reseated step.move.connection? before after → P before → P after)
    (holds : P manager) : P (step.apply manager) := by
  apply Step.keeps (P := fun turn => P turn.manager) step
  · intro link addresses turn holds
    exact keeps (.kept (.learned link addresses turn)) holds
  · intro part turn performs holds
    refine keeps (.performed turn ?_) holds
    rintro id rfl
    exact Move.connection?_of_performs performs
  · intro control _
    exact keeps (.kept (.followed (followed_follow step.around control _))) holds
  · exact holds

theorem Step.reseated_of_connection? {step : Step} {id : LinkId}
    (handed : step.move.connection? = some id) (manager : Manager) :
    Reseated (some id) manager (step.apply manager) := by
  unfold Step.apply
  rw [step.turn_of_connection? handed]
  exact .opened (opened_onConnection id (Turn.start manager step.links))

theorem Step.config_apply (step : Step) (manager : Manager) :
    (step.apply manager).config = manager.config := by
  apply Step.keeps_of_reseated (P := fun reached => reached.config = manager.config) step
  · intro before after reseated same
    exact reseated.config_eq.trans same
  · rfl

def Part.connection? : Part → Option LinkId
  | .connection link => some link
  | _ => none

theorem config_perform (around : Surroundings) (part : Part) (turn : Turn) :
    (part.perform around turn).manager.config = turn.manager.config := by
  have reseated : Reseated part.connection? turn.manager
      (part.perform around turn).manager := by
    apply Reseated.performed turn
    rintro id rfl
    rfl
  exact reseated.config_eq

theorem config_take (event : Event) (turn : Turn) :
    (take event turn).2.manager.config = turn.manager.config := by
  cases event <;> rfl

theorem config_run (manager : Manager) (steps : List Step) :
    (run manager steps).config = manager.config := by
  apply run_keeps (P := fun reached => reached.config = manager.config)
  · intro step reached same
    exact (step.config_apply reached).trans same
  · rfl

end PeerOverlay.Manager
