import PeerOverlay.Manager.Handle
import PeerOverlay.Proofs.AddressBook.Standing

/-!
# What the turns of a manager change

For every turn it is said once what becomes of the manager and which attempts to
connect are started.  What is proved of a manager later on is derived from this,
without another look into the turns.
-/

namespace PeerOverlay.Manager

/-! ## What is read off a list -/

section Reading

variable {α β : Type} (read : α → Option β)

theorem filterMap_cons_eq (first : α) (rest : List α) :
    (first :: rest).filterMap read = (read first).toList ++ rest.filterMap read := by
  cases own : read first with
  | none => exact List.filterMap_cons_none own
  | some value => exact List.filterMap_cons_some own

theorem filterMap_concat_eq (earlier : List α) (last : α) :
    (earlier ++ [last]).filterMap read = earlier.filterMap read ++ (read last).toList := by
  rw [List.filterMap_append, filterMap_cons_eq]
  exact congrArg _ (List.append_nil _)

theorem nodup_of_initial {read : α → Option β} {earlier all : List α}
    (once : (all.filterMap read).Nodup) (initial : earlier <+: all) : (earlier.filterMap read).Nodup :=
  once.sublist (initial.sublist.filterMap read)

/-- What is read off the last of a list is new if nothing is read off twice. -/
theorem not_mem_of_nodup_concat {read : α → Option β} {earlier : List α} {last : α} {value : β}
    (once : ((earlier ++ [last]).filterMap read).Nodup) (now : read last = some value) :
    value ∉ earlier.filterMap read := by
  rw [filterMap_concat_eq, now] at once
  intro member
  exact (List.nodup_append.1 once).2.2 value member value (List.mem_singleton_self value) rfl

end Reading

/-! ## Attempts -/

/-- The endpoint to which an effect has started an attempt to connect. -/
def Effect.attempt? : Effect → Option Endpoint
  | .dial address _ true => some address.endpoint
  | _ => none

namespace Turn

variable (turn : Turn)

/-- The endpoints to which a turn has started attempts to connect, in order. -/
def attempts : List Endpoint :=
  turn.effects.filterMap Effect.attempt?

theorem attempts_emit (effect : Effect) :
    (turn.emit effect).attempts = turn.attempts ++ effect.attempt?.toList :=
  filterMap_concat_eq Effect.attempt? turn.effects effect

theorem attempts_emit_of_none {effect : Effect} (quiet : effect.attempt? = none) :
    (turn.emit effect).attempts = turn.attempts := by
  rw [attempts_emit, quiet]
  exact List.append_nil _

end Turn

/-! ## Changes of a manager -/

theorem finishAttempt_eq (manager : Manager) (link : Link) :
    manager.finishAttempt link =
      { manager with
        connectingCount :=
          manager.connectingCount -
            if link.peerAddress.any manager.book.isConnecting then 1 else 0 } := by
  unfold finishAttempt
  cases link.peerAddress with
  | none => rfl
  | some address =>
      simp only [Option.elim_some, Option.any_some, finishConnecting]
      split <;> rfl

theorem seat_eq (manager : Manager) (id : LinkId) (slot : Slot)
    (netAddress : Option NetAddress) :
    manager.seat id slot netAddress =
      { manager with
        slots := manager.slots.insert id slot
        connectionCounts := (netAddress.elim manager manager.count).connectionCounts } := by
  cases netAddress <;> rfl

theorem vacate_eq (id : LinkId) (slot : Slot) (links : Links) (manager : Manager) :
    vacate id slot links manager =
      { manager with
        slots := manager.slots.erase id
        connectionCounts := (slot.countedUnder.elim manager manager.release).connectionCounts
        bytesSent := ((links.get? id).elim manager manager.keepTraffic).bytesSent
        bytesReceived := ((links.get? id).elim manager manager.keepTraffic).bytesReceived } := by
  unfold vacate
  cases slot.countedUnder <;> cases links.get? id <;> rfl

/-! ## Opening connections -/

/-- What becomes of a turn that dials an address. -/
inductive Dialed (address : PeerAddress) (before after : Turn) : Prop where
  | started
      (manager : after.manager =
        { before.manager with
          book := before.manager.book.markConnecting address
          connectingCount := before.manager.connectingCount + 1 })
      (attempts : after.attempts = before.attempts ++ [address.endpoint])
  | failed
      (manager : after.manager =
        { before.manager with
          book := (before.manager.book.markConnecting address).markUnreachable address })
      (attempts : after.attempts = before.attempts)

theorem dialed_connectTo (around : Surroundings) (address : PeerAddress) (turn : Turn) :
    Dialed address turn (connectTo around address turn).2 := by
  unfold connectTo
  dsimp only
  split
  · exact .failed rfl (Turn.attempts_emit_of_none _ rfl)
  · next connector via _ =>
      cases starts : connector.starts address via with
      | false =>
          refine .failed rfl ?_
          exact (Turn.attempts_emit_of_none _ rfl).trans (Turn.attempts_emit_of_none _ rfl)
      | true => exact .started rfl (Turn.attempts_emit _ _)

/-- What becomes of a turn that checks the number of peers.  Only an address
that is new or has failed is dialed without being asked for. -/
inductive Checked (before after : Turn) : Prop where
  | idle (same : after = before)
  | dialed (address : PeerAddress)
      (free : before.manager.book.standing? address = some .new ∨
        before.manager.book.standing? address = some .failed)
      (dialed : Dialed address before after)

theorem checked_checkPeerCount (around : Surroundings) (turn : Turn) :
    Checked turn (Manager.checkPeerCount around turn) := by
  unfold Manager.checkPeerCount
  split
  · split
    · exact .idle rfl
    · next address picked =>
        exact .dialed address (AddressBook.standing?_of_pick? picked)
          (dialed_connectTo around address turn)
  · exact .idle rfl

/-- Whether the owner of a node can dial at all. -/
def canDial (manager : Manager) : Bool :=
  !(manager.offline || manager.stopped) && !manager.hasMaxPeers

/-- Dialing on request does nothing unless the owner can dial. -/
theorem snd_follow_dial (around : Surroundings) (address : PeerAddress) (turn : Turn) :
    (follow around (.dial address) turn).2 =
      if turn.manager.canDial then (connectTo around address turn).2 else turn := by
  unfold follow Manager.dial canDial
  dsimp only
  cases turn.manager.offline || turn.manager.stopped with
  | true => rfl
  | false => cases turn.manager.hasMaxPeers <;> rfl

/-- What becomes of a turn that follows a control. -/
inductive Followed (before after : Turn) : Control → Prop where
  | switched {control : Control} (autoConnect savedAutoConnect offline stopped : Bool)
      (manager : after.manager =
        { before.manager with
          autoConnect := autoConnect
          savedAutoConnect := savedAutoConnect
          offline := offline
          stopped := stopped })
      (attempts : after.attempts = before.attempts) : Followed before after control
  | checked {control : Control} (autoConnect savedAutoConnect offline : Bool)
      (checked : Checked
        (before.update fun manager =>
          { manager with
            autoConnect := autoConnect
            savedAutoConnect := savedAutoConnect
            offline := offline })
        after) : Followed before after control
  | dialed (address : PeerAddress) (allowed : before.manager.canDial)
      (dialed : Dialed address before after) : Followed before after (.dial address)

theorem followed_follow (around : Surroundings) (control : Control) (turn : Turn) :
    Followed turn (follow around control turn).2 control := by
  cases control with
  | connect =>
      exact .checked true true turn.manager.offline (checked_checkPeerCount around _)
  | disconnect reason =>
      exact .switched false false turn.manager.offline turn.manager.stopped rfl rfl
  | setOnline online =>
      cases online with
      | false =>
          exact .switched false turn.manager.autoConnect true turn.manager.stopped rfl rfl
      | true =>
          exact .checked turn.manager.savedAutoConnect turn.manager.savedAutoConnect false
            (checked_checkPeerCount around _)
  | stop =>
      exact .switched turn.manager.autoConnect turn.manager.savedAutoConnect
        turn.manager.offline true rfl rfl
  | dial address =>
      rw [snd_follow_dial]
      split
      · next allowed => exact .dialed address allowed (dialed_connectTo around address turn)
      · exact .switched turn.manager.autoConnect turn.manager.savedAutoConnect
          turn.manager.offline turn.manager.stopped rfl rfl

/-! ## Links and peers -/

/-- What becomes of a turn in which a transport has opened a link. -/
inductive Opened (id : LinkId) (before after : Turn) : Prop where
  | unknown (missing : before.links.get? id = none) (same : after = before)
  | refused (link : Link) (known : before.links.get? id = some link)
      (manager : after.manager =
        { before.manager.finishAttempt link with
          book := link.peerAddress.elim before.manager.book before.manager.book.giveUp })
      (attempts : after.attempts = before.attempts)
  | takenIn (link : Link) (known : before.links.get? id = some link)
      (admitted : (before.manager.finishAttempt link).linkRefusal? link = none)
      (manager : after.manager =
        (before.manager.finishAttempt link).seat id (.ofLink link) (countable link.netAddress))
      (attempts : after.attempts = before.attempts)

theorem opened_onConnection (id : LinkId) (turn : Turn) :
    Opened id turn (onConnection id turn) := by
  unfold onConnection
  split
  · next missing => exact .unknown missing rfl
  · next link known =>
      dsimp only
      split
      · refine .refused link known ?_ rfl
        have book : (turn.manager.finishAttempt link).book = turn.manager.book := by
          rw [finishAttempt_eq]
        exact congrArg
          (fun book =>
            { turn.manager.finishAttempt link with
              book := link.peerAddress.elim book book.giveUp })
          book
      · next admitted =>
          refine .takenIn link known admitted rfl ?_
          exact (Turn.attempts_emit_of_none _ rfl).trans (Turn.attempts_emit_of_none _ rfl)

theorem foldl_emit_relay_eq (addresses : List PeerAddress) (chosen : List LinkId)
    (turn : Turn) :
    (chosen.foldl (fun turn link => turn.emit (.relay link addresses)) turn).manager =
        turn.manager ∧
      (chosen.foldl (fun turn link => turn.emit (.relay link addresses)) turn).attempts =
        turn.attempts := by
  induction chosen generalizing turn with
  | nil => exact ⟨rfl, rfl⟩
  | cons link rest hypothesis =>
      obtain ⟨manager, attempts⟩ := hypothesis (turn.emit (.relay link addresses))
      exact ⟨manager, attempts.trans (Turn.attempts_emit_of_none turn rfl)⟩

theorem relayToAgents_eq (around : Surroundings) (source : LinkId)
    (addresses : List PeerAddress) (turn : Turn) :
    (relayToAgents around source addresses turn).manager = turn.manager ∧
      (relayToAgents around source addresses turn).attempts = turn.attempts := by
  unfold relayToAgents
  split
  · exact ⟨rfl, rfl⟩
  · exact foldl_emit_relay_eq addresses _ turn

/-- What becomes of a turn in which the peer of a link has announced itself. -/
inductive Announced (now : Nat) (peer : Peer) (before after : Turn) : Prop where
  | passedOver (manager : after.manager = before.manager)
      (attempts : after.attempts = before.attempts)
  | accepted (slot : Slot) (known : before.manager.slots.get? peer.link = some slot)
      (admitted : before.manager.peerRefusal? now slot (slot.locate peer) = none)
      (manager : after.manager =
        { before.manager.seat peer.link (slot.accept (slot.locate peer))
            (slot.uncounted (slot.locate peer)) with
          book := before.manager.book.markConnected peer.link (slot.locate peer).address })
      (attempts : after.attempts = before.attempts)

theorem announced_onHandshake (around : Surroundings) (peer : Peer) (turn : Turn) :
    Announced around.now peer turn (onHandshake around peer turn) := by
  unfold onHandshake
  split
  · exact .passedOver rfl rfl
  · next slot known =>
      dsimp only
      split
      · exact .passedOver rfl rfl
      · next admitted =>
          refine .accepted slot known admitted ?_ ?_
          · exact (relayToAgents_eq around _ _ _).1
          · refine (Turn.attempts_emit_of_none _ rfl).trans ?_
            refine (Turn.attempts_emit_of_none _ rfl).trans ?_
            exact (relayToAgents_eq around _ _ _).2

/-- What becomes of a turn in which a link has ended. -/
inductive Ended (id : LinkId) (before after : Turn) : Prop where
  | unknown (same : after = before)
  | lost (slot : Slot) (peer : Peer) (known : before.manager.slots.get? id = some slot)
      (joined : slot.peer = some peer)
      (manager : after.manager =
        { vacate id slot before.links before.manager with
          book := before.manager.book.markDisconnected id })
      (attempts : after.attempts = before.attempts)
  | missed (slot : Slot) (known : before.manager.slots.get? id = some slot)
      (peerless : slot.peer = none)
      (manager : after.manager =
        { vacate id slot before.links before.manager with
          book := (before.links.peerAddress? id).elim before.manager.book
            before.manager.book.miss })
      (attempts : after.attempts = before.attempts)

theorem ended_onClosed (id : LinkId) (turn : Turn) : Ended id turn (onClosed id turn) := by
  unfold onClosed
  split
  · exact .unknown rfl
  · next slot known =>
      have book : (vacate id slot turn.links turn.manager).book = turn.manager.book := by
        rw [vacate_eq]
      dsimp only
      split
      · next peer joined =>
          refine .lost slot peer known joined ?_ ?_
          · exact congrArg
              (fun book : AddressBook =>
                { vacate id slot turn.links turn.manager with book := book.markDisconnected id })
              book
          · refine (Turn.attempts_emit_of_none _ rfl).trans ?_
            refine (Turn.attempts_emit_of_none _ rfl).trans ?_
            exact Turn.attempts_emit_of_none _ rfl
      · next peerless =>
          refine .missed slot known peerless ?_ ?_
          · exact congrArg
              (fun book : AddressBook =>
                { vacate id slot turn.links turn.manager with
                  book := (turn.links.peerAddress? id).elim book book.miss })
              book
          · exact Turn.attempts_emit_of_none _ rfl

/-! ## Failures, bans and news -/

theorem onConnectFailed_eq (address : PeerAddress) (turn : Turn) :
    (onConnectFailed address turn).manager =
        { turn.manager with
          book := turn.manager.book.markUnreachable address
          connectingCount :=
            turn.manager.connectingCount -
              if turn.manager.book.isConnecting address then 1 else 0 } ∧
      (onConnectFailed address turn).attempts = turn.attempts := by
  refine ⟨?_, rfl⟩
  unfold onConnectFailed Turn.updateBook Turn.update finishConnecting
  by_cases connecting : turn.manager.book.isConnecting address <;> simp [connecting]

theorem banLink_eq (around : Surroundings) (id : LinkId) (reason : String) (turn : Turn) :
    (banLink around id reason turn).manager =
        { turn.manager with
          book := (turn.manager.accountableAddress? turn.links id).elim turn.manager.book
            fun address => turn.manager.book.ban address around.now } ∧
      (banLink around id reason turn).attempts = turn.attempts :=
  ⟨rfl, rfl⟩

theorem learnAddresses_eq (link : LinkId) (addresses : List PeerAddress) (turn : Turn) :
    (learnAddresses link addresses turn).2.manager =
        { turn.manager with book := (turn.manager.book.ingest link addresses).2 } ∧
      (learnAddresses link addresses turn).2.attempts = turn.attempts :=
  ⟨rfl, rfl⟩

/-! ## Signals -/

structure Routed (before after : Turn) : Prop where
  manager : ∃ routes forwards, after.manager =
    { before.manager with
      book := { before.manager.book with routes := routes }
      forwards := forwards }
  attempts : after.attempts = before.attempts

namespace Routed

variable {before middle after : Turn}

theorem of_eq (manager : after.manager = before.manager)
    (attempts : after.attempts = before.attempts) : Routed before after :=
  ⟨⟨before.manager.book.routes, before.manager.forwards, manager⟩, attempts⟩

theorem refl (turn : Turn) : Routed turn turn :=
  of_eq rfl rfl

theorem trans (first : Routed before middle) (second : Routed middle after) :
    Routed before after := by
  obtain ⟨⟨_, _, firstManager⟩, firstAttempts⟩ := first
  obtain ⟨⟨routes, forwards, secondManager⟩, secondAttempts⟩ := second
  refine ⟨⟨routes, forwards, ?_⟩, secondAttempts.trans firstAttempts⟩
  rw [secondManager, firstManager]

end Routed

theorem routed_dropRoute (link : LinkId) (signal : Signal) (turn : Turn) :
    Routed turn (dropRoute link signal turn) := by
  refine ⟨?_, rfl⟩
  show ∃ routes forwards,
    { turn.manager with book := turn.manager.book.markUnroutable link signal.senderId } = _
  unfold AddressBook.markUnroutable
  split
  · exact ⟨turn.manager.book.routes, turn.manager.forwards, rfl⟩
  · exact ⟨_, turn.manager.forwards, rfl⟩

theorem routed_heedAnswer (around : Surroundings) (link : LinkId) (signal : Signal)
    (turn : Turn) : Routed turn (heedAnswer around link signal turn) := by
  unfold heedAnswer
  split
  · generalize turn.manager.forwards.wasRecentlyForwarded _ _ = answer
    obtain ⟨recent, forwards⟩ := answer
    have remembered :
        Routed turn (turn.update fun manager => { manager with forwards := forwards }) :=
      ⟨⟨turn.manager.book.routes, forwards, rfl⟩, rfl⟩
    dsimp only
    split
    · exact remembered.trans (routed_dropRoute link signal _)
    · exact remembered
  · exact .refl turn

theorem routed_receive (around : Surroundings) (link : LinkId) (signal : Signal)
    (turn : Turn) : Routed turn (receive around link signal turn) := by
  unfold receive
  split
  · exact .refl turn
  · have handed (turn : Turn) : Routed turn (turn.emit (.handSignal link signal)) :=
      .of_eq rfl (Turn.attempts_emit_of_none turn rfl)
    dsimp only
    split
    · exact (routed_dropRoute link signal turn).trans (handed _)
    · exact handed turn

theorem routed_sendBack (link : LinkId) (signal : Signal) (flags : SignalFlags)
    (turn : Turn) : Routed turn (sendBack link signal flags turn) := by
  unfold sendBack
  split <;> exact .of_eq rfl rfl

theorem routed_forward (around : Surroundings) (target : LinkId) (signal : Signal)
    (turn : Turn) : Routed turn (forward around target signal turn) := by
  unfold forward
  dsimp only
  split
  · exact ⟨⟨turn.manager.book.routes, _, rfl⟩, rfl⟩
  · exact .of_eq rfl rfl

theorem routed_passOn (around : Surroundings) (link : LinkId) (signal : Signal)
    (turn : Turn) : Routed turn (passOn around link signal turn) := by
  unfold passOn
  split
  · exact routed_sendBack link signal .ttlExceeded turn
  · split
    · exact routed_sendBack link signal .unroutable turn
    · split
      · exact .refl turn
      · exact routed_forward around _ signal turn

theorem routed_onSignal (around : Surroundings) (link : LinkId) (signal : Signal)
    (turn : Turn) : Routed turn (onSignal around link signal turn) := by
  have heeded := routed_heedAnswer around link signal turn
  unfold onSignal
  dsimp only
  split
  · exact heeded.trans (routed_receive around link signal _)
  · exact heeded.trans (routed_passOn around link signal _)

end PeerOverlay.Manager
