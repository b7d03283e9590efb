import PeerOverlay.Proofs.ForwardStore.History
import PeerOverlay.Proofs.Manager.Bans
import PeerOverlay.Proofs.Manager.Containment
import PeerOverlay.Proofs.Manager.SignalLine

/-!
# The forwards of a run

What a manager forwards is seen on its links: a plain signal that is queued in a step is one that
was passed on, since answers carry a flag.  The store of a manager holds these forwards and no
others.
-/

namespace PeerOverlay

/-- The signal that a message carries, if it is no answer. -/
def Message.plainSignal? (message : Message) : Option Signal :=
  message.signal?.filter Signal.isPlain

theorem Message.plainSignal?_of_isPlain {signal : Signal} (plain : signal.isPlain = true) :
    plainSignal? (.signal signal) = some signal := by
  simp [plainSignal?, signal?, plain]

theorem Message.plainSignal?_of_flagged {signal : Signal} (flagged : signal.isPlain = false) :
    plainSignal? (.signal signal) = none := by
  simp [plainSignal?, signal?, flagged]

theorem Signal.isPlain_reply (signal : Signal) (ttl : UInt8) {flags : SignalFlags}
    (flagged : flags.bits ≠ 0) : (signal.reply ttl flags).isPlain = false :=
  beq_eq_false_iff_ne.2 flagged

theorem findSome?_eq_of_only {α β : Type} {read : α → Option β} {values : List α} {only : α}
    (member : only ∈ values) (others : ∀ value ∈ values, value ≠ only → read value = none) :
    values.findSome? read = read only := by
  cases found : values.findSome? read with
  | none => exact (List.findSome?_eq_none_iff.1 found only member).symm
  | some result =>
      obtain ⟨value, among, reads⟩ := List.exists_of_findSome?_eq_some found
      by_cases same : value = only
      · rw [← same, reads]
      · rw [others value among same] at reads
        cases reads

namespace Manager

/-! ## What is passed on in a turn -/

/-- The plain signal that has come to the end of the queue of a link. -/
def queuedOn? (before after : Links) (id : LinkId) : Option Signal :=
  ((queueOf after id).drop (queueOf before id).length).findSome? Message.plainSignal?

/-- The plain signal that was queued on some link, and the link. -/
def passedOn? (before after : Links) : Option (LinkId × Signal) :=
  before.keys.findSome? fun id => (queuedOn? before after id).map (id, ·)

/-- Whether the same messages wait for the transports. -/
def SameQueues (before after : Links) : Prop :=
  ∀ id, queueOf after id = queueOf before id

theorem queuedOn?_of_eq {before after : Links} {id : LinkId}
    (same : queueOf after id = queueOf before id) : queuedOn? before after id = none := by
  unfold queuedOn?
  rw [same, List.drop_length]
  rfl

theorem passedOn?_of_sameQueues {before after : Links} (same : SameQueues before after) :
    passedOn? before after = none := by
  rw [passedOn?, List.findSome?_eq_none_iff]
  intro id _
  rw [queuedOn?_of_eq (same id), Option.map_none]

theorem passedOn?_queue {links : Links} {id : LinkId} (room : links.canSend id = true)
    (message : Message) :
    passedOn? links (links.queue id message) = message.plainSignal?.map (id, ·) := by
  have known : id ∈ links.keys := by
    obtain ⟨link, found, _⟩ := (Option.any_eq_true _ _).1 room
    rw [← Table.contains_iff, Table.contains, found, Option.isSome_some]
  have own : queuedOn? links (links.queue id message) id = message.plainSignal? := by
    unfold queuedOn?
    rw [queueOf_queue_self room, List.drop_left]
    cases carries : message.plainSignal? with
    | none => rw [List.findSome?_cons_of_isNone (by rw [carries]; rfl), List.findSome?_nil]
    | some signal => rw [List.findSome?_cons, carries]
  rw [passedOn?, findSome?_eq_of_only known, own]
  intro other _ different
  rw [queuedOn?_of_eq (queueOf_queue_of_ne different message), Option.map_none]

theorem sameQueues_of_not_canSend {links : Links} {id : LinkId} (full : links.canSend id = false)
    (message : Message) : SameQueues links (links.send id message).2 := by
  intro tested
  unfold queueOf
  rw [Links.get?_send]
  split
  · next same =>
      rw [← same]
      cases found : links.get? id with
      | none => rfl
      | some link =>
          have blocked : link.canSend = false := by
            simpa [Links.canSend, found] using full
          simp [Link.send, blocked]
  · rfl

theorem fst_send_of_not_canSend {links : Links} {id : LinkId} (full : links.canSend id = false)
    (message : Message) : (links.send id message).1 = false := by
  unfold Links.send
  split
  · rfl
  · next link found =>
      have blocked : link.canSend = false := by
        simpa [Links.canSend, found] using full
      simp [Link.send, blocked]

/-- A change of a link that leaves its queue alone. -/
theorem queueOf_of_map {before after : Links} {id : LinkId} {change : Link → Link}
    (changed : after.get? id = (before.get? id).map change)
    (kept : ∀ link, (change link).outbound = link.outbound) :
    queueOf after id = queueOf before id := by
  unfold queueOf
  rw [changed, Option.map_map]
  congr 2
  funext link
  exact kept link

theorem sameQueues_close (links : Links) (id : LinkId) (reason : String) :
    SameQueues links (links.close id reason) := by
  refine fun tested => queueOf_of_map (Links.get?_close links id reason tested) fun link => ?_
  split <;> rfl

theorem sameQueues_closeAll (links : Links) (ids : List LinkId) (reason : String) :
    SameQueues links (links.closeAll ids reason) := by
  refine fun tested => queueOf_of_map (Links.get?_closeAll links ids reason tested) fun link => ?_
  split <;> rfl

theorem sameQueues_of_hushed {before after : Links} (hushed : Hushed before after) :
    SameQueues before after := by
  cases hushed with
  | kept same =>
      rw [same]
      exact fun _ => rfl
  | closed id reason same =>
      rw [same]
      exact sameQueues_close before id reason
  | refused id reason same =>
      rw [same]
      intro tested
      refine Eq.trans ?_ (sameQueues_close before id reason tested)
      refine queueOf_of_map (Table.get?_modify _ _ _ _) fun link => ?_
      split <;> rfl

/-! ## Turns in which no signal is routed -/

/-- Whether two turns hold the same forwards, and the same messages wait for the transports. -/
structure Unforwarded (before after : Turn) : Prop where
  forwards : after.manager.forwards = before.manager.forwards
  queues : SameQueues before.links after.links

namespace Unforwarded

variable {before middle after : Turn}

theorem refl (turn : Turn) : Unforwarded turn turn :=
  ⟨rfl, fun _ => rfl⟩

theorem trans (first : Unforwarded before middle) (second : Unforwarded middle after) :
    Unforwarded before after where
  forwards := second.forwards.trans first.forwards
  queues := fun id => (second.queues id).trans (first.queues id)

theorem forwards_dialed {address : PeerAddress} (dialed : Dialed address before after) :
    after.manager.forwards = before.manager.forwards := by
  cases dialed with
  | started manager attempts => rw [manager]
  | failed manager attempts => rw [manager]

theorem forwards_checked (checked : Checked before after) :
    after.manager.forwards = before.manager.forwards := by
  cases checked with
  | idle same => rw [same]
  | dialed address free dialed => exact forwards_dialed dialed

theorem forwards_followed {control : Control} (followed : Followed before after control) :
    after.manager.forwards = before.manager.forwards := by
  cases followed with
  | switched autoConnect savedAutoConnect offline stopped manager attempts => rw [manager]
  | checked autoConnect savedAutoConnect offline checked =>
      have same := forwards_checked checked
      exact same
  | dialed address allowed dialed => exact forwards_dialed dialed

theorem forwards_opened {id : LinkId} (opened : Opened id before after) :
    after.manager.forwards = before.manager.forwards := by
  cases opened with
  | unknown missing same => rw [same]
  | refused link known manager attempts => rw [manager, finishAttempt_eq]
  | takenIn link known admitted manager attempts => rw [manager, seat_eq, finishAttempt_eq]

theorem forwards_announced {now : Nat} {peer : Peer} (announced : Announced now peer before after) :
    after.manager.forwards = before.manager.forwards := by
  cases announced with
  | passedOver manager attempts => rw [manager]
  | accepted slot known admitted manager attempts => rw [manager, seat_eq]

theorem forwards_ended {id : LinkId} (ended : Ended id before after) :
    after.manager.forwards = before.manager.forwards := by
  cases ended with
  | unknown same => rw [same]
  | lost slot peer known joined manager attempts => rw [manager, vacate_eq]
  | missed slot known peerless manager attempts => rw [manager, vacate_eq]

theorem performed (around : Surroundings) {part : Part} (unrouted : part.routed? = none)
    (turn : Turn) : Unforwarded turn (part.perform around turn) := by
  refine ⟨?_, sameQueues_of_hushed (hushed_perform unrouted turn)⟩
  cases part with
  | connection id => exact forwards_opened (opened_onConnection id turn)
  | connectFailed address =>
      rw [Part.perform, (onConnectFailed_eq address turn).1]
  | handshake peer => exact forwards_announced (announced_onHandshake around peer turn)
  | relay source addresses =>
      rw [Part.perform, (relayToAgents_eq around source addresses turn).1]
  | route link signal => cases unrouted
  | ban link reason => rw [Part.perform, (banLink_eq around link reason turn).1]
  | closed id => exact forwards_ended (ended_onClosed id turn)
  | checkPeerCount => exact forwards_checked (checked_checkPeerCount around turn)

theorem followed (around : Surroundings) (control : Control) (turn : Turn) :
    Unforwarded turn (follow around control turn).2 := by
  refine ⟨forwards_followed (followed_follow around control turn), ?_⟩
  have links : (follow around control turn).2.links = turn.links ∨
      ∃ reason, (follow around control turn).2.links =
        turn.links.closeAll turn.manager.slots.keys reason := links_follow control turn
  rcases links with same | ⟨reason, same⟩
  · rw [same]
    exact fun _ => rfl
  · rw [same]
    exact sameQueues_closeAll turn.links turn.manager.slots.keys reason

end Unforwarded

/-! ## Turns in which a signal is routed -/

/-- Whether two turns hold the same forwards, and no plain signal was queued from the one to the
other. -/
structure Silent (before after : Turn) : Prop where
  forwards : after.manager.forwards = before.manager.forwards
  passedOn : passedOn? before.links after.links = none

theorem Unforwarded.silent {before after : Turn} (unforwarded : Unforwarded before after) :
    Silent before after :=
  ⟨unforwarded.forwards, passedOn?_of_sameQueues unforwarded.queues⟩

/-- What becomes of the remembered forwards in a turn that has passed on the given plain signal,
if any. -/
inductive Remembers (signalId : SignalId) (now : Nat) (before : ForwardStore) :
    ForwardStore → Option (LinkId × Signal) → Prop where
  | kept : Remembers signalId now before before none
  | asked (forwarded : ForwardedSignal) :
      Remembers signalId now before (before.wasRecentlyForwarded forwarded now).2 none
  | added (link : LinkId) (sent : Signal) (plain : sent.isPlain = true)
      (onward : sent.recipientId ≠ signalId) :
      Remembers signalId now before (before.add (forwardOf sent) now) (some (link, sent))

theorem Silent.remembers {before after : Turn} (silent : Silent before after)
    (signalId : SignalId) (now : Nat) :
    Remembers signalId now before.manager.forwards after.manager.forwards
      (passedOn? before.links after.links) := by
  rw [silent.forwards, silent.passedOn]
  exact .kept

variable {around : Surroundings} {link target : LinkId} {signal : Signal}

/-- An answer is no forward. -/
theorem silent_sendBack {flags : SignalFlags} (flagged : flags.bits ≠ 0) (turn : Turn) :
    Silent turn (sendBack link signal flags turn) := by
  unfold sendBack
  split
  · refine ⟨rfl, ?_⟩
    dsimp only
    have answer := signal.isPlain_reply turn.manager.config.signalTtlInitial flagged
    cases room : turn.links.canSend link with
    | false => exact passedOn?_of_sameQueues (sameQueues_of_not_canSend room _)
    | true =>
        rw [Links.send_of_canSend room, passedOn?_queue room,
          Message.plainSignal?_of_flagged answer, Option.map_none]
  · exact (Unforwarded.refl turn).silent

/-- A signal that is not plain is not remembered, nor is one for which there is no room. -/
theorem silent_forward (turn : Turn)
    (lost : (turn.links.canSend target && signal.isPlain) = false) :
    Silent turn (forward around target signal turn) := by
  unfold forward
  dsimp only
  cases room : turn.links.canSend target with
  | false =>
      rw [fst_send_of_not_canSend room, Bool.false_and, if_neg Bool.false_ne_true]
      exact ⟨rfl, passedOn?_of_sameQueues (sameQueues_of_not_canSend room _)⟩
  | true =>
      rw [room, Bool.true_and] at lost
      rw [Links.send_of_canSend room, lost, Bool.and_false, if_neg Bool.false_ne_true]
      refine ⟨rfl, ?_⟩
      have sent : Message.plainSignal? (.signal { signal with ttl := signal.ttl - 1 }) = none :=
        Message.plainSignal?_of_flagged lost
      rw [passedOn?_queue room, sent, Option.map_none]

theorem silent_receive (turn : Turn) : Silent turn (receive around link signal turn) := by
  apply Unforwarded.silent
  refine ⟨?_, fun id => ?_⟩
  · unfold receive
    split
    · rfl
    · dsimp only
      split <;> rfl
  · rw [links_receive]

theorem remembers_forward (turn : Turn)
    (onward : signal.recipientId ≠ turn.manager.config.signalId) :
    Remembers turn.manager.config.signalId around.now turn.manager.forwards
      (forward around target signal turn).manager.forwards
      (passedOn? turn.links (forward around target signal turn).links) := by
  cases sends : turn.links.canSend target && signal.isPlain with
  | false => exact (silent_forward turn sends).remembers _ _
  | true =>
      obtain ⟨room, plain⟩ := Bool.and_eq_true_iff.1 sends
      rw [forward_of_isPlain plain room]
      dsimp only
      rw [passedOn?_queue room]
      have sent : Message.plainSignal? (.signal { signal with ttl := signal.ttl - 1 }) =
          some { signal with ttl := signal.ttl - 1 } := Message.plainSignal?_of_isPlain plain
      rw [sent]
      exact .added target { signal with ttl := signal.ttl - 1 } plain onward

/-- A signal is passed on in one way, or nothing is. -/
theorem silent_or_forward (around : Surroundings) (link : LinkId) (signal : Signal)
    (turn : Turn) :
    Silent turn (passOn around link signal turn) ∨
      ∃ target, passOn around link signal turn = forward around target signal turn := by
  unfold passOn
  split
  · exact .inl (silent_sendBack (by decide) turn)
  · split
    · exact .inl (silent_sendBack (by decide) turn)
    · next target _ =>
        split
        · exact .inl (Unforwarded.refl turn).silent
        · exact .inr ⟨target, rfl⟩

theorem remembers_passOn (turn : Turn)
    (onward : signal.recipientId ≠ turn.manager.config.signalId) :
    Remembers turn.manager.config.signalId around.now turn.manager.forwards
      (passOn around link signal turn).manager.forwards
      (passedOn? turn.links (passOn around link signal turn).links) := by
  rcases silent_or_forward around link signal turn with silent | ⟨target, same⟩
  · exact silent.remembers _ _
  · rw [same]
    exact remembers_forward turn onward

theorem silent_passOn_of_flagged (flagged : signal.isPlain = false) (turn : Turn) :
    Silent turn (passOn around link signal turn) := by
  rcases silent_or_forward around link signal turn with silent | ⟨target, same⟩
  · exact silent
  · rw [same]
    apply silent_forward
    rw [flagged, Bool.and_false]

theorem isPlain_eq_false_of_isFlagged (flagged : isFlagged signal = true) :
    signal.isPlain = false := by
  cases plain : signal.isPlain with
  | false => rfl
  | true =>
      rw [not_isFlagged_of_isPlain plain] at flagged
      cases flagged

theorem forwards_heedAnswer (around : Surroundings) (link : LinkId)
    (flagged : isFlagged signal = true) (turn : Turn) :
    (heedAnswer around link signal turn).manager.forwards =
      (turn.manager.forwards.wasRecentlyForwarded (answeredForward signal) around.now).2 := by
  unfold heedAnswer
  rw [if_pos flagged]
  dsimp only
  split <;> rfl

theorem heedAnswer_of_not_isFlagged (unflagged : isFlagged signal = false) (turn : Turn) :
    heedAnswer around link signal turn = turn := by
  unfold heedAnswer
  rw [unflagged, if_neg Bool.false_ne_true]

theorem remembers_onSignal (turn : Turn) :
    Remembers turn.manager.config.signalId around.now turn.manager.forwards
      (onSignal around link signal turn).manager.forwards
      (passedOn? turn.links (onSignal around link signal turn).links) := by
  unfold onSignal
  dsimp only
  cases flagged : isFlagged signal with
  | false =>
      rw [heedAnswer_of_not_isFlagged flagged]
      split
      · exact (silent_receive turn).remembers _ _
      · next onward => exact remembers_passOn turn onward
  | true =>
      -- What is asked for is no plain signal, so nothing is added.
      have asked := forwards_heedAnswer around link flagged turn
      have links := links_heedAnswer around link signal turn
      have silent (after : Turn) (silent : Silent (heedAnswer around link signal turn) after) :
          Remembers turn.manager.config.signalId around.now turn.manager.forwards
            after.manager.forwards (passedOn? turn.links after.links) := by
        rw [← links, silent.passedOn, silent.forwards, asked]
        exact .asked (answeredForward signal)
      split
      · exact silent _ (silent_receive _)
      · exact silent _ (silent_passOn_of_flagged (isPlain_eq_false_of_isFlagged flagged) _)

/-! ## Steps and runs -/

/-- The plain signal that is passed on in a step, and the link through which it is sent. -/
def Step.passedOn? (step : Step) (manager : Manager) : Option (LinkId × Signal) :=
  Manager.passedOn? step.links (step.turn manager).links

theorem Step.turn_of_route {step : Step} {manager : Manager}
    (member : Part.route link signal ∈ step.parts manager) :
    step.turn manager = onSignal step.around link signal (Turn.start manager step.links) := by
  obtain ⟨around, links, move⟩ := step
  cases move with
  | event event =>
      cases answers_of_mem_take member with
      | route link signal =>
          have parts : signalParts manager.config link signal = [.route link signal] := by
            have among : Part.route link signal ∈ signalParts manager.config link signal := member
            unfold signalParts at among ⊢
            split at among
            · simp at among
            · next moderate =>
                rw [if_neg moderate]
                split at among
                · cases among
                · next foreign => rw [if_neg foreign]
          show (signalParts manager.config link signal).foldl _ _ = _
          rw [parts]
          rfl
  | part only =>
      have same : Part.route link signal = only := List.mem_singleton.1 member
      subst same
      rfl
  | take event => exact absurd member List.not_mem_nil
  | control control => exact absurd member List.not_mem_nil

/-- A step in which no signal is routed forwards nothing. -/
theorem Step.unforwarded_of_not_routes {step : Step} {manager : Manager}
    (unrouted : ∀ part ∈ step.parts manager, part.routed? = none) :
    Unforwarded (Turn.start manager step.links) (step.turn manager) := by
  apply step.keeps_parts (P := Unforwarded (Turn.start manager step.links))
  · intro link addresses turn kept
    exact kept.trans ⟨rfl, fun _ => rfl⟩
  · intro part member turn kept
    exact kept.trans (.performed step.around (unrouted part member) turn)
  · intro control _
    exact .followed step.around control _
  · exact .refl _

theorem Step.remembers (step : Step) (manager : Manager) :
    Remembers manager.config.signalId step.around.now manager.forwards
      (step.apply manager).forwards (step.passedOn? manager) := by
  by_cases unrouted : ∀ part ∈ step.parts manager, part.routed? = none
  · exact (Step.unforwarded_of_not_routes unrouted).silent.remembers _ _
  · simp only [not_forall] at unrouted
    obtain ⟨part, member, routes⟩ := unrouted
    cases part with
    | route link signal =>
        unfold Step.apply Step.passedOn?
        rw [Step.turn_of_route member]
        exact remembers_onSignal (Turn.start manager step.links)
    | _ => exact absurd rfl routes

/-- The forward of a step, if there is one, with its time. -/
def Step.forward? (step : Step) (manager : Manager) : Option (ForwardedSignal × Nat) :=
  (step.passedOn? manager).map fun passed => (forwardOf passed.2, step.around.now)

/-- The forwards of a run, each with its time, in order. -/
def forwardings (manager : Manager) : List Step → ForwardStore.History
  | [] => []
  | step :: rest => (step.forward? manager).toList ++ forwardings (step.apply manager) rest

theorem forwardings_append (manager : Manager) (earlier later : List Step) :
    forwardings manager (earlier ++ later) =
      forwardings manager earlier ++ forwardings (run manager earlier) later := by
  induction earlier generalizing manager with
  | nil => rfl
  | cons step rest hypothesis =>
      rw [List.cons_append, forwardings, hypothesis, run_cons, forwardings, List.append_assoc]

theorem Step.holds_apply {step : Step} {manager : Manager} {room maxAge : Nat}
    {history : ForwardStore.History}
    (holds : manager.forwards.Holds room maxAge history step.around.now) :
    (step.apply manager).forwards.Holds room maxAge
      (history ++ (step.forward? manager).toList) step.around.now := by
  have remembers := step.remembers manager
  unfold Step.forward?
  generalize (step.apply manager).forwards = after at remembers ⊢
  generalize step.passedOn? manager = passed at remembers ⊢
  cases remembers with
  | kept => rwa [Option.map_none, Option.toList_none, List.append_nil]
  | asked forwarded =>
      rw [Option.map_none, Option.toList_none, List.append_nil]
      exact holds.snd_wasRecentlyForwarded forwarded
  | added link sent plain onward => exact holds.add (forwardOf sent)

/-- After any run the store of a manager holds the forwards of the run. -/
theorem holds_run (config : Config) (book : AddressBook) {steps : List Step}
    (ordered : InOrder steps) {now : Nat} (past : ∀ step ∈ steps, step.around.now ≤ now) :
    (run (Manager.new config book) steps).forwards.Holds (max config.signalStoreCapacity 1)
      config.signalMaxAge (forwardings (Manager.new config book) steps) now := by
  induction steps using List.reverseRecOn generalizing now with
  | nil => exact .withLimits config.signalStoreCapacity config.signalMaxAge now
  | append_singleton earlier step hypothesis =>
      have before := hypothesis (ordered.sublist (List.sublist_append_left earlier [step]))
        (now_le_of_inOrder ordered (List.prefix_refl _))
      have after := step.holds_apply before
      rw [run_append, run_cons, run_nil, forwardings_append, forwardings, forwardings,
        List.append_nil]
      exact after.pass (past step (by simp))

end Manager

end PeerOverlay
