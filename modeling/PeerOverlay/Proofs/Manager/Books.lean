import PeerOverlay.Proofs.AddressBook.Links
import PeerOverlay.Proofs.Manager.Milestones

/-!
# What a step does to the address book

A step changes the book of a manager only through operations of the book.  Which links are
connected, disconnected or heard from is told by the move.
-/

namespace PeerOverlay.Manager

variable {P : AddressBook → Prop}

/-- Passing a signal on changes nothing in the book. -/
theorem book_passOn (around : Surroundings) (link : LinkId) (signal : Signal) (turn : Turn) :
    (passOn around link signal turn).manager.book = turn.manager.book := by
  have back (flags : SignalFlags) :
      (sendBack link signal flags turn).manager.book = turn.manager.book := by
    unfold sendBack
    split <;> rfl
  unfold passOn
  split
  · exact back .ttlExceeded
  · split
    · exact back .unroutable
    · split
      · rfl
      · unfold forward
        dsimp only
        split <;> rfl

/-- Whether a property of books is kept by the operations that a step may use. -/
structure Step.KeepsBook (step : Step) (P : AddressBook → Prop) : Prop where
  connecting : ∀ {book} address, P book → P (book.markConnecting address)
  unreachable : ∀ {book} address, P book → P (book.markUnreachable address)
  banned : ∀ {book} address now, P book → P (book.ban address now)
  unroutable : ∀ {book} link signalId, P book → P (book.markUnroutable link signalId)
  heard : ∀ {book} link addresses, step.move.hears? = some link → P book →
    P (book.ingest link addresses).2
  connected : ∀ {book} link address, step.move.announcement?.map Peer.link = some link →
    P book → P (book.markConnected link address)
  disconnected : ∀ {book} link, step.move.ending? = some link → P book →
    P (book.markDisconnected link)

namespace Step.KeepsBook

variable {step : Step} {before after : Turn}

theorem giveUp (keeps : step.KeepsBook P) {book : AddressBook} (address : PeerAddress)
    (holds : P book) : P (book.giveUp address) := by
  unfold AddressBook.giveUp
  split
  · exact keeps.unreachable address holds
  · exact holds

theorem miss (keeps : step.KeepsBook P) {book : AddressBook} (address : PeerAddress)
    (holds : P book) : P (book.miss address) := by
  unfold AddressBook.miss
  split
  · exact holds
  · exact keeps.unreachable address holds

theorem dialed (keeps : step.KeepsBook P) {address : PeerAddress}
    (dialed : Dialed address before after) (holds : P before.manager.book) :
    P after.manager.book := by
  cases dialed with
  | started manager attempts =>
      rw [manager]
      exact keeps.connecting address holds
  | failed manager attempts =>
      rw [manager]
      exact keeps.unreachable address (keeps.connecting address holds)

theorem checked (keeps : step.KeepsBook P) (checked : Checked before after)
    (holds : P before.manager.book) : P after.manager.book := by
  cases checked with
  | idle same => rwa [same]
  | dialed address free dialed => exact keeps.dialed dialed holds

theorem followed (keeps : step.KeepsBook P) {control : Control}
    (followed : Followed before after control) (holds : P before.manager.book) :
    P after.manager.book := by
  cases followed with
  | switched autoConnect savedAutoConnect offline stopped manager attempts =>
      rw [manager]
      exact holds
  | checked autoConnect savedAutoConnect offline checked => exact keeps.checked checked holds
  | dialed address allowed dialed => exact keeps.dialed dialed holds

theorem opened (keeps : step.KeepsBook P) {id : LinkId} (opened : Opened id before after)
    (holds : P before.manager.book) : P after.manager.book := by
  cases opened with
  | unknown missing same => rwa [same]
  | refused link known manager attempts =>
      rw [manager]
      cases link.peerAddress with
      | none => exact holds
      | some address => exact keeps.giveUp address holds
  | takenIn link known admitted manager attempts =>
      rw [manager, seat_eq, finishAttempt_eq]
      exact holds

theorem announced (keeps : step.KeepsBook P) {now : Nat} {peer : Peer}
    (new : step.move.announcement? = some peer) (announced : Announced now peer before after)
    (holds : P before.manager.book) : P after.manager.book := by
  cases announced with
  | passedOver manager attempts => rwa [manager]
  | accepted slot known admitted manager attempts =>
      rw [manager]
      exact keeps.connected peer.link _ (by rw [new]; rfl) holds

theorem ended (keeps : step.KeepsBook P) {id : LinkId} (ending : step.move.ending? = some id)
    (ended : Ended id before after) (holds : P before.manager.book) : P after.manager.book := by
  cases ended with
  | unknown same => rwa [same]
  | lost slot peer known joined manager attempts =>
      rw [manager]
      exact keeps.disconnected id ending holds
  | missed slot known peerless manager attempts =>
      rw [manager]
      cases before.links.peerAddress? id with
      | none => exact holds
      | some address => exact keeps.miss address holds

theorem routed (keeps : step.KeepsBook P) (around : Surroundings) (link : LinkId)
    (signal : Signal) {turn : Turn} (holds : P turn.manager.book) :
    P (onSignal around link signal turn).manager.book := by
  have dropped {turn : Turn} (holds : P turn.manager.book) :
      P (dropRoute link signal turn).manager.book :=
    keeps.unroutable link signal.senderId holds
  have heeded : P (heedAnswer around link signal turn).manager.book := by
    unfold heedAnswer
    split
    · dsimp only
      split
      · exact dropped holds
      · exact holds
    · exact holds
  unfold onSignal
  dsimp only
  split
  · unfold receive
    split
    · exact heeded
    · dsimp only
      split
      · exact dropped heeded
      · exact heeded
  · rwa [book_passOn]

theorem performed (keeps : step.KeepsBook P) {part : Part} {turn : Turn}
    (performs : step.move.Performs part) (holds : P turn.manager.book) :
    P (part.perform step.around turn).manager.book := by
  cases part with
  | connection id => exact keeps.opened (opened_onConnection id turn) holds
  | connectFailed address =>
      rw [Part.perform, (onConnectFailed_eq address turn).1]
      exact keeps.unreachable address holds
  | handshake peer =>
      exact keeps.announced (Move.announcement?_of_performs performs)
        (announced_onHandshake step.around peer turn) holds
  | relay source addresses =>
      rwa [Part.perform, (relayToAgents_eq step.around source addresses turn).1]
  | route link signal => exact keeps.routed step.around link signal holds
  | ban link reason =>
      rw [Part.perform, (banLink_eq step.around link reason turn).1]
      cases turn.manager.accountableAddress? turn.links link with
      | none => exact holds
      | some address => exact keeps.banned address step.around.now holds
  | closed id =>
      exact keeps.ended (Move.ending?_of_performs performs) (ended_onClosed id turn) holds
  | checkPeerCount => exact keeps.checked (checked_checkPeerCount step.around turn) holds

end Step.KeepsBook

/-- What those operations keep is kept by the step. -/
theorem Step.book_apply {step : Step} (keeps : step.KeepsBook P) {manager : Manager}
    (holds : P manager.book) : P (step.apply manager).book := by
  apply step.keeps_heard (P := fun turn => P turn.manager.book)
  · intro link addresses turn hears holds
    rw [(learnAddresses_eq link addresses turn).1]
    exact keeps.heard link addresses hears holds
  · intro part turn performs holds
    exact keeps.performed performs holds
  · intro control _
    exact keeps.followed (followed_follow step.around control _) holds
  · exact holds

end PeerOverlay.Manager
