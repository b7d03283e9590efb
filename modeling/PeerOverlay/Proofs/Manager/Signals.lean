import PeerOverlay.Proofs.Manager.Turn
import PeerOverlay.Proofs.Table.Total

/-!
# What a manager does with a signal

A manager that handles a signal gives it to a connector, closes the link through
which it came, or sends at most one signal: the same one with one hop less, or a
flagged answer.
-/

namespace PeerOverlay

def Message.signal? : Message → Option Signal
  | .signal said => some said
  | _ => none

namespace Signal

variable {signal : Signal}

theorem one_le_ttl (left : signal.ttl ≠ 0) : (1 : UInt8) ≤ signal.ttl := by
  have positive : signal.ttl.toNat ≠ 0 := fun used => left (UInt8.toNat_inj.1 used)
  rw [UInt8.le_iff_toNat_le]
  exact Nat.one_le_iff_ne_zero.2 positive

theorem toNat_ttl_sub_one (left : signal.ttl ≠ 0) :
    (signal.ttl - 1).toNat + 1 = signal.ttl.toNat := by
  have one := UInt8.le_iff_toNat_le.1 (one_le_ttl left)
  rw [UInt8.toNat_sub_of_le _ _ (one_le_ttl left)]
  exact Nat.sub_add_cancel one

end Signal

/-! ## Queueing -/

/-- The links after a message was queued on one of them. -/
def Links.queue (links : Links) (id : LinkId) (message : Message) : Links :=
  links.modify id fun link => { link with outbound := link.outbound ++ [message] }

/-- Whether there is a link on which a message can be queued. -/
def Links.canSend (links : Links) (id : LinkId) : Bool :=
  (links.get? id).any Link.canSend

theorem Links.send_of_canSend {links : Links} {id : LinkId} (room : links.canSend id = true)
    (message : Message) : links.send id message = (true, links.queue id message) := by
  obtain ⟨link, found, free⟩ := (Option.any_eq_true _ _).1 room
  unfold Links.send Links.queue
  rw [found, Table.modify_eq_insert _ found]
  simp [Link.send, free]

namespace Manager

variable {around : Surroundings} {arrival : LinkId} {signal : Signal} {turn : Turn}

/-! ## Plain signals -/

theorem not_isFlagged_of_isPlain (plain : signal.isPlain = true) : isFlagged signal = false := by
  have unflagged : signal.flags.bits = 0 := by simpa [Signal.isPlain] using plain
  simp [isFlagged, Signal.isUnroutable, Signal.isTtlExceeded, SignalFlags.contains, unflagged,
    SignalFlags.unroutable, SignalFlags.ttlExceeded]

/-- A signal of another node that is not excessive is routed. -/
theorem handle_signal (moderate : signal.ttl ≤ turn.manager.config.signalTtlInitial)
    (foreign : signal.senderId ≠ turn.manager.config.signalId) :
    handle around (.signal arrival signal) turn = onSignal around arrival signal turn := by
  have notExcessive : isExcessive turn.manager.config signal = false := by
    unfold isExcessive
    rw [decide_eq_false_iff_not]
    exact UInt8.not_lt.2 moderate
  show (signalParts turn.manager.config arrival signal).foldl _ turn = _
  unfold signalParts
  rw [notExcessive, if_neg Bool.false_ne_true, if_neg foreign]
  rfl

/-- A plain signal is nothing to be heeded. -/
theorem onSignal_of_isPlain (plain : signal.isPlain = true) :
    onSignal around arrival signal turn =
      if signal.recipientId = turn.manager.config.signalId then
        receive around arrival signal turn
      else
        passOn around arrival signal turn := by
  unfold onSignal heedAnswer
  rw [not_isFlagged_of_isPlain plain, if_neg Bool.false_ne_true]

theorem receive_of_isPlain (plain : signal.isPlain = true)
    (connected : around.connectors.relayed.isSome = true) :
    receive around arrival signal turn = turn.emit (.handSignal arrival signal) := by
  obtain ⟨connector, known⟩ := Option.isSome_iff_exists.1 connected
  unfold receive
  rw [known, not_isFlagged_of_isPlain plain]
  rfl

theorem sendBack_of_isPlain (plain : signal.isPlain = true)
    (room : turn.links.canSend arrival = true) (flags : SignalFlags) :
    sendBack arrival signal flags turn =
      { turn with
        links := turn.links.queue arrival
          (.signal (signal.reply turn.manager.config.signalTtlInitial flags)) } := by
  unfold sendBack
  rw [if_pos plain]
  dsimp only
  rw [Links.send_of_canSend room]

theorem forward_of_isPlain {target : LinkId} (plain : signal.isPlain = true)
    (room : turn.links.canSend target = true) :
    forward around target signal turn =
      { turn with
        manager :=
          { turn.manager with
            forwards := turn.manager.forwards.add (forwardOf signal) around.now }
        links := turn.links.queue target (.signal { signal with ttl := signal.ttl - 1 }) } := by
  unfold forward
  rw [Links.send_of_canSend room, plain]
  rfl

/-! ## What is sent for a signal -/

/-- A signal that a manager may send for another one: the same with a hop less, or a
flagged answer to a plain one. -/
inductive Follows (ttlInitial : UInt8) (signal : Signal) : Signal → Prop where
  | onward (left : signal.ttl ≠ 0) :
      Follows ttlInitial signal { signal with ttl := signal.ttl - 1 }
  | answer (plain : signal.isPlain = true) (flags : SignalFlags) (flagged : flags.bits ≠ 0) :
      Follows ttlInitial signal (signal.reply ttlInitial flags)

/-- What becomes of the links in a turn in which a signal is routed. -/
inductive SentFor (ttlInitial : UInt8) (signal : Signal) (before after : Links) : Prop where
  | nothing (same : after = before)
  | one (id : LinkId) (sent : Signal) (follows : Follows ttlInitial signal sent)
      (same : after = (before.send id (.signal sent)).2)

theorem sentFor_sendBack {flags : SignalFlags} (flagged : flags.bits ≠ 0) (turn : Turn) :
    SentFor turn.manager.config.signalTtlInitial signal turn.links
      (sendBack arrival signal flags turn).links := by
  unfold sendBack
  split
  · next plain => exact .one arrival _ (.answer plain flags flagged) rfl
  · exact .nothing rfl

theorem sentFor_passOn (around : Surroundings) (arrival : LinkId) (signal : Signal)
    (turn : Turn) :
    SentFor turn.manager.config.signalTtlInitial signal turn.links
      (passOn around arrival signal turn).links := by
  unfold passOn
  split
  · exact sentFor_sendBack (by decide) turn
  · next left =>
      split
      · exact sentFor_sendBack (by decide) turn
      · next target _ =>
          split
          · exact .nothing rfl
          · refine .one target _ (.onward left) ?_
            unfold forward
            dsimp only
            split <;> rfl

theorem links_heedAnswer (around : Surroundings) (arrival : LinkId) (signal : Signal)
    (turn : Turn) :
    (heedAnswer around arrival signal turn).links = turn.links := by
  unfold heedAnswer
  split
  · dsimp only
    split <;> rfl
  · rfl

theorem links_receive (around : Surroundings) (arrival : LinkId) (signal : Signal)
    (turn : Turn) :
    (receive around arrival signal turn).links = turn.links := by
  unfold receive
  split
  · rfl
  · dsimp only
    split <;> rfl

theorem sentFor_onSignal (around : Surroundings) (arrival : LinkId) (signal : Signal)
    (turn : Turn) :
    SentFor turn.manager.config.signalTtlInitial signal turn.links
      (onSignal around arrival signal turn).links := by
  have links := links_heedAnswer around arrival signal turn
  obtain ⟨⟨routes, forwards, manager⟩, _⟩ := routed_heedAnswer around arrival signal turn
  have config : (heedAnswer around arrival signal turn).manager.config =
      turn.manager.config := by
    rw [manager]
  unfold onSignal
  dsimp only
  split
  · refine .nothing ?_
    rw [links_receive, links]
  · have sent := sentFor_passOn around arrival signal (heedAnswer around arrival signal turn)
    rw [config, links] at sent
    exact sent

/-! ## What other turns do to the links -/

/-- What becomes of the links in a turn in which no signal is routed: nothing is sent. -/
inductive Hushed (before after : Links) : Prop where
  | kept (same : after = before)
  | closed (id : LinkId) (reason : String) (same : after = before.close id reason)
  | refused (id : LinkId) (reason : String)
      (same : after = (before.close id reason).modify id Link.abandon)

theorem links_connectTo (address : PeerAddress) (turn : Turn) :
    (connectTo around address turn).2.links = turn.links := by
  unfold connectTo
  dsimp only
  split
  · rfl
  · split <;> rfl

theorem links_checkPeerCount (turn : Turn) :
    (Manager.checkPeerCount around turn).links = turn.links := by
  unfold Manager.checkPeerCount
  split
  · split
    · rfl
    · exact links_connectTo _ turn
  · rfl

theorem links_foldl_emit (addresses : List PeerAddress) (chosen : List LinkId) (turn : Turn) :
    (chosen.foldl (fun turn link => turn.emit (.relay link addresses)) turn).links =
      turn.links := by
  induction chosen generalizing turn with
  | nil => rfl
  | cons link rest hypothesis => exact hypothesis (turn.emit (.relay link addresses))

theorem links_relayToAgents (source : LinkId) (addresses : List PeerAddress) (turn : Turn) :
    (relayToAgents around source addresses turn).links = turn.links := by
  unfold relayToAgents
  split
  · rfl
  · exact links_foldl_emit addresses _ turn

theorem hushed_onConnection (id : LinkId) (turn : Turn) :
    Hushed turn.links (onConnection id turn).links := by
  unfold onConnection
  split
  · exact .kept rfl
  · dsimp only
    split
    · exact .refused id _ rfl
    · exact .kept rfl

theorem hushed_onHandshake (peer : Peer) (turn : Turn) :
    Hushed turn.links (onHandshake around peer turn).links := by
  unfold onHandshake
  split
  · exact .kept rfl
  · dsimp only
    split
    · exact .closed peer.link _ rfl
    · exact .kept (links_relayToAgents _ _ _)

theorem links_onClosed (id : LinkId) (turn : Turn) :
    (onClosed id turn).links = turn.links := by
  unfold onClosed
  split
  · rfl
  · dsimp only
    split <;> rfl

/-- The signal that is routed in a part of a reaction. -/
def Part.routed? : Part → Option Signal
  | .route _ signal => some signal
  | _ => none

theorem hushed_perform {part : Part} (unrouted : part.routed? = none) (turn : Turn) :
    Hushed turn.links (part.perform around turn).links := by
  cases part with
  | connection id => exact hushed_onConnection id turn
  | connectFailed address => exact .kept rfl
  | handshake peer => exact hushed_onHandshake peer turn
  | relay source addresses => exact .kept (links_relayToAgents source addresses turn)
  | route link signal => cases unrouted
  | ban link reason => exact .closed link reason rfl
  | closed link => exact .kept (links_onClosed link turn)
  | checkPeerCount => exact .kept (links_checkPeerCount turn)

/-- Controls close links of the manager or leave all links as they are. -/
theorem links_follow (control : Control) (turn : Turn) :
    (follow around control turn).2.links = turn.links ∨
      ∃ reason, (follow around control turn).2.links =
        turn.links.closeAll turn.manager.slots.keys reason := by
  cases control with
  | connect => exact .inl (links_checkPeerCount _)
  | disconnect reason => exact .inr ⟨reason, rfl⟩
  | setOnline online =>
      cases online with
      | false => exact .inr ⟨"network disconnect", rfl⟩
      | true => exact .inl (links_checkPeerCount _)
  | dial address =>
      left
      rw [snd_follow_dial]
      split
      · exact links_connectTo address turn
      · rfl
  | stop => exact .inl rfl

theorem links_take (event : Event) (turn : Turn) : (take event turn).2.links = turn.links := by
  cases event <;> rfl

end Manager

end PeerOverlay
