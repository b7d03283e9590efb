import PeerOverlay.Proofs.Manager.Run

/-!
# The effects of a turn

A turn adds its effects behind those that are there.  It is said once for every part of a
reaction, and for the controls, which effects may be added.
-/

namespace PeerOverlay.Manager

/-! ## Added effects -/

/-- Whether only effects of one kind were added to those of an earlier turn. -/
def Adds (kind : Effect → Prop) (before after : Turn) : Prop :=
  ∃ added, after.effects = before.effects ++ added ∧ ∀ effect ∈ added, kind effect

namespace Adds

variable {kind : Effect → Prop} {before middle after : Turn}

theorem nothing (same : after.effects = before.effects) : Adds kind before after :=
  ⟨[], by rw [same, List.append_nil], fun _ member => absurd member List.not_mem_nil⟩

theorem emit {effect : Effect} (isKind : kind effect) (same : middle.effects = before.effects) :
    Adds kind before (middle.emit effect) := by
  refine ⟨[effect], congrArg (fun effects => effects ++ [effect]) same, ?_⟩
  intro added member
  rwa [List.mem_singleton.1 member]

theorem trans (first : Adds kind before middle) (second : Adds kind middle after) :
    Adds kind before after := by
  obtain ⟨early, firstEffects, earlyKind⟩ := first
  obtain ⟨late, secondEffects, lateKind⟩ := second
  refine ⟨early ++ late, ?_, ?_⟩
  · rw [secondEffects, firstEffects, List.append_assoc]
  · intro effect member
    rcases List.mem_append.1 member with isEarly | isLate
    · exact earlyKind effect isEarly
    · exact lateKind effect isLate

/-- Two effects in a row. -/
theorem emit_emit {first second : Effect} (isFirst : kind first) (isSecond : kind second)
    (same : middle.effects = before.effects) :
    Adds kind before ((middle.emit first).emit second) :=
  (emit isFirst same).trans (emit isSecond rfl)

theorem mono {wider : Effect → Prop} (adds : Adds kind before after)
    (included : ∀ effect, kind effect → wider effect) : Adds wider before after := by
  obtain ⟨added, effects, isKind⟩ := adds
  exact ⟨added, effects, fun effect member => included effect (isKind effect member)⟩

/-- What is read off effects of another kind stays as it is. -/
theorem filterMap_eq {α : Type} {read : Effect → Option α} (adds : Adds kind before after)
    (unread : ∀ effect, kind effect → read effect = none) :
    after.effects.filterMap read = before.effects.filterMap read := by
  obtain ⟨added, effects, isKind⟩ := adds
  have silent : added.filterMap read = [] :=
    List.filterMap_eq_nil_iff.2 fun effect member => unread effect (isKind effect member)
  rw [effects, List.filterMap_append, silent, List.append_nil]

/-- What can be read off the effects afterwards was there before, or was added. -/
theorem mem_filterMap {α : Type} {read : Effect → Option α} {value : α}
    (adds : Adds kind before after) (member : value ∈ after.effects.filterMap read) :
    value ∈ before.effects.filterMap read ∨ ∃ effect, kind effect ∧ read effect = some value := by
  obtain ⟨added, effects, isKind⟩ := adds
  rw [effects, List.filterMap_append, List.mem_append] at member
  refine member.imp id ?_
  intro isAdded
  obtain ⟨effect, among, isValue⟩ := List.mem_filterMap.1 isAdded
  exact ⟨effect, isKind effect among, isValue⟩

end Adds

/-! ## Opening connections -/

/-- The effects of an attempt to connect. -/
inductive Effect.OfAttempt (address : PeerAddress) : Effect → Prop where
  | dial (via : Option LinkId) (started : Bool) : OfAttempt address (.dial address via started)
  | recheck : OfAttempt address (.recheck none)

theorem adds_connectTo (around : Surroundings) (address : PeerAddress) (turn : Turn) :
    Adds (Effect.OfAttempt address) turn (connectTo around address turn).2 := by
  unfold connectTo
  dsimp only
  split
  · exact .emit .recheck rfl
  · next connector via _ =>
      split
      · exact .trans (.emit (.dial via _) rfl) (.nothing rfl)
      · exact .emit_emit (.dial via _) .recheck rfl

theorem adds_checkPeerCount (around : Surroundings) (turn : Turn) :
    Adds (fun effect => turn.manager.wantsConnection = true ∧ ∃ address, effect.OfAttempt address)
      turn (Manager.checkPeerCount around turn) := by
  unfold Manager.checkPeerCount
  split
  · next wanted =>
      split
      · exact .nothing rfl
      · next address _ =>
          exact (adds_connectTo around address turn).mono fun _ own => ⟨wanted, address, own⟩
  · exact .nothing rfl

/-! ## Parts of reactions -/

/-- The effects that a part of a reaction may have on the given manager. -/
inductive Part.Emits (manager : Manager) : Part → Effect → Prop where
  | attend (link : LinkId) : Emits manager (.connection link) (.attend link)
  | recheckLater (link : LinkId) (delay : Nat) :
      Emits manager (.connection link) (.recheck (some delay))
  | relay (source other : LinkId) (addresses : List PeerAddress) (different : other ≠ source)
      (few : addresses.length ≤ manager.config.relayBatchMax) :
      Emits manager (.relay source addresses) (.relay other addresses)
  | introduce (peer : Peer) (slot : Slot) (other : LinkId)
      (known : manager.slots.get? peer.link = some slot) (different : other ≠ peer.link)
      (few : 1 ≤ manager.config.relayBatchMax) :
      Emits manager (.handshake peer) (.relay other [(slot.locate peer).address])
  | join (peer : Peer) (slot : Slot) (known : manager.slots.get? peer.link = some slot) :
      Emits manager (.handshake peer) (.publish (.joined (slot.locate peer)))
  | gain (peer : Peer) : Emits manager (.handshake peer) (.publish .changed)
  | handSignal (link : LinkId) (signal : Signal) :
      Emits manager (.route link signal) (.handSignal link signal)
  | release (link : LinkId) : Emits manager (.closed link) (.release link)
  | leave (link : LinkId) (slot : Slot) (peer : Peer)
      (known : manager.slots.get? link = some slot) (joined : slot.peer = some peer) :
      Emits manager (.closed link) (.publish (.left peer))
  | lose (link : LinkId) : Emits manager (.closed link) (.publish .changed)
  | attempt (address : PeerAddress) (effect : Effect) (wanted : manager.wantsConnection = true)
      (own : effect.OfAttempt address) : Emits manager .checkPeerCount effect

theorem adds_onConnection (link : LinkId) (turn : Turn) :
    Adds ((Part.connection link).Emits turn.manager) turn (onConnection link turn) := by
  unfold onConnection
  split
  · exact .nothing rfl
  · dsimp only
    split
    · exact .nothing rfl
    · exact .emit_emit (.attend link) (.recheckLater link _) rfl

/-- Only agents of other links pass addresses on, and never too many of them. -/
theorem adds_relayToAgents (around : Surroundings) (source : LinkId)
    (addresses : List PeerAddress) (turn : Turn) :
    Adds (fun effect => ∃ other, other ≠ source ∧
        addresses.length ≤ turn.manager.config.relayBatchMax ∧ effect = .relay other addresses)
      turn (relayToAgents around source addresses turn) := by
  have emitted {kind : Effect → Prop} (chosen : List LinkId)
      (isKind : ∀ link ∈ chosen, kind (.relay link addresses)) (turn : Turn) :
      Adds kind turn
        (chosen.foldl (fun turn link => turn.emit (.relay link addresses)) turn) := by
    induction chosen generalizing turn with
    | nil => exact .nothing rfl
    | cons link rest hypothesis =>
        apply (Adds.emit (isKind link (List.mem_cons_self ..)) rfl).trans
        apply hypothesis
        intro later member
        exact isKind later (List.mem_cons_of_mem link member)
  unfold relayToAgents
  split
  · exact .nothing rfl
  · next few =>
      apply emitted
      intro link member
      refine ⟨link, ?_, Nat.le_of_not_lt few, rfl⟩
      have drawn := (draw_perm _ _).mem_iff.1 (List.mem_of_mem_take member)
      obtain ⟨⟨other, slot⟩, kept, rfl⟩ := List.mem_map.1 drawn
      simpa using (Bool.and_eq_true_iff.1 (List.mem_filter.1 kept).2).1

theorem adds_onHandshake (around : Surroundings) (peer : Peer) (turn : Turn) :
    Adds ((Part.handshake peer).Emits turn.manager) turn (onHandshake around peer turn) := by
  unfold onHandshake
  split
  · exact .nothing rfl
  · next slot known =>
      dsimp only
      split
      · exact .nothing rfl
      · unfold acceptPeer
        dsimp only
        refine Adds.trans ?_ (.emit_emit (.join peer slot known) (.gain peer) rfl)
        have relayed := adds_relayToAgents around peer.link [(slot.locate peer).address]
          (turn.update fun manager =>
            { manager.seat peer.link (slot.accept (slot.locate peer))
                (slot.uncounted (slot.locate peer)) with
              book := manager.book.markConnected peer.link (slot.locate peer).address })
        refine Adds.trans (.nothing rfl) (relayed.mono ?_)
        rintro _ ⟨other, different, few, rfl⟩
        refine .introduce peer slot other known different ?_
        have config : (turn.manager.seat peer.link (slot.accept (slot.locate peer))
            (slot.uncounted (slot.locate peer))).config = turn.manager.config := by
          rw [seat_eq]
        rw [← config]
        exact few

theorem adds_onClosed (link : LinkId) (turn : Turn) :
    Adds ((Part.closed link).Emits turn.manager) turn (onClosed link turn) := by
  unfold onClosed
  split
  · exact .nothing rfl
  · next slot known =>
      have released : Adds ((Part.closed link).Emits turn.manager) turn
          ((turn.update (vacate link slot turn.links)).emit (.release link)) :=
        .emit (.release link) rfl
      dsimp only
      split
      · next peer joined =>
          exact released.trans
            (.emit_emit (.leave link slot peer known joined) (.lose link) rfl)
      · exact released.trans (.nothing rfl)

theorem adds_onSignal (around : Surroundings) (link : LinkId) (signal : Signal) (turn : Turn) :
    Adds ((Part.route link signal).Emits turn.manager) turn
      (onSignal around link signal turn) := by
  have heeded : (heedAnswer around link signal turn).effects = turn.effects := by
    unfold heedAnswer
    split
    · dsimp only
      split <;> rfl
    · rfl
  have back (flags : SignalFlags) (turn : Turn) :
      (sendBack link signal flags turn).effects = turn.effects := by
    unfold sendBack
    split <;> rfl
  have passed (turn : Turn) : (passOn around link signal turn).effects = turn.effects := by
    unfold passOn
    split
    · exact back .ttlExceeded turn
    · split
      · exact back .unroutable turn
      · split
        · rfl
        · unfold forward
          dsimp only
          split <;> rfl
  refine Adds.trans (.nothing heeded) ?_
  unfold onSignal
  dsimp only
  split
  · unfold receive
    split
    · exact .nothing rfl
    · dsimp only
      split
      · exact .emit (.handSignal link signal) rfl
      · exact .emit (.handSignal link signal) rfl
  · exact .nothing (passed _)

theorem adds_perform (around : Surroundings) (part : Part) (turn : Turn) :
    Adds (part.Emits turn.manager) turn (part.perform around turn) := by
  cases part with
  | connection link => exact adds_onConnection link turn
  | connectFailed address => exact .nothing rfl
  | handshake peer => exact adds_onHandshake around peer turn
  | relay source addresses =>
      refine (adds_relayToAgents around source addresses turn).mono ?_
      rintro _ ⟨other, different, few, rfl⟩
      exact .relay source other addresses different few
  | route link signal => exact adds_onSignal around link signal turn
  | ban link reason => exact .nothing rfl
  | closed link => exact adds_onClosed link turn
  | checkPeerCount =>
      refine (adds_checkPeerCount around turn).mono ?_
      rintro effect ⟨wanted, address, own⟩
      exact .attempt address effect wanted own

theorem adds_take (kind : Effect → Prop) (event : Event) (turn : Turn) :
    Adds kind turn (take event turn).2 := by
  cases event <;> exact .nothing rfl

/-! ## Controls -/

/-- Controls do nothing but attempts to connect. -/
theorem adds_follow (around : Surroundings) (control : Control) (turn : Turn) :
    Adds (fun effect => ∃ address, effect.OfAttempt address) turn
      (follow around control turn).2 := by
  have checked (turn : Turn) :
      Adds (fun effect => ∃ address, effect.OfAttempt address) turn
        (Manager.checkPeerCount around turn) :=
    (adds_checkPeerCount around turn).mono fun _ own => own.2
  cases control with
  | connect => exact Adds.trans (.nothing rfl) (checked _)
  | disconnect reason => exact .nothing rfl
  | setOnline online =>
      cases online with
      | false => exact .nothing rfl
      | true => exact Adds.trans (.nothing rfl) (checked _)
  | dial address =>
      rw [snd_follow_dial]
      split
      · exact (adds_connectTo around address turn).mono fun _ own => ⟨address, own⟩
      · exact .nothing rfl
  | stop => exact .nothing rfl

end PeerOverlay.Manager
