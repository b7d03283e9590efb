import Mathlib.Data.List.Induction
import PeerOverlay.Proofs.AddressBook.Bans
import PeerOverlay.Proofs.Manager.LivePeers

/-!
# Bans along a run

An address that was banned stays banned until its last ban expires, and until
then nobody at the address becomes a peer.  The one way out is to dial the
address on request: the book then has it as connecting, and the ban is lost.
-/

namespace PeerOverlay.Manager

/-! ## Steps that ban and steps that redial -/

/-- The parts of reactions that a step does, in order. -/
def Step.parts (step : Step) (manager : Manager) : List Part :=
  match step.move with
  | .event event => (Manager.take event (Turn.start manager step.links)).1
  | .part only => [only]
  | _ => []

def Part.bannedLink? : Part → Option LinkId
  | .ban link _ => some link
  | _ => none

/-- The address that is banned in a step: the one for which the other end of a
link is answerable that has sent an excessive signal or is to be banned. -/
def Step.bannedAddress? (step : Step) (manager : Manager) : Option PeerAddress :=
  ((step.parts manager).findSome? Part.bannedLink?).bind
    (manager.accountableAddress? step.links)

/-- Whether an address is banned in a step. -/
def Step.bans (step : Step) (manager : Manager) (address : PeerAddress) : Bool :=
  (step.bannedAddress? manager).any fun banned => banned.samePeer address

/-- Whether a step dials an address on request. -/
def Step.Redials (step : Step) (manager : Manager) (address : PeerAddress) : Prop :=
  ∃ other, step.move = .control (.dial other) ∧ other.endpoint = address.endpoint ∧
    manager.canDial

theorem signalParts_of_ban {config : Config} {link other : LinkId} {signal : Signal}
    {reason : String} (member : Part.ban other reason ∈ signalParts config link signal) :
    signalParts config link signal = [.ban other reason] := by
  unfold signalParts at member ⊢
  split at member
  · next excessive =>
      rw [if_pos excessive, List.mem_singleton.1 member]
  · split at member
    · exact absurd member List.not_mem_nil
    · simp at member

/-- A ban is all that is done in a step that bans. -/
theorem take_of_ban {event : Event} {turn : Turn} {link : LinkId} {reason : String}
    (member : Part.ban link reason ∈ (take event turn).1) :
    take event turn = ([.ban link reason], turn) := by
  cases answers_of_mem_take member with
  | excessive link signal => exact congrArg (·, turn) (signalParts_of_ban member)
  | ban => rfl

theorem Step.turn_of_ban {step : Step} {manager : Manager} {link : LinkId} {reason : String}
    (member : Part.ban link reason ∈ step.parts manager) :
    step.parts manager = [.ban link reason] ∧
      step.turn manager =
        banLink step.around link reason (Turn.start manager step.links) := by
  obtain ⟨around, links, move⟩ := step
  cases move with
  | event event =>
      have taken := take_of_ban member
      refine ⟨congrArg Prod.fst taken, ?_⟩
      show handle around event (Turn.start manager links) = _
      unfold handle
      rw [taken]
      rfl
  | part only =>
      have same : Part.ban link reason = only := List.mem_singleton.1 member
      subst same
      exact ⟨rfl, rfl⟩
  | take event => exact absurd member List.not_mem_nil
  | control control => exact absurd member List.not_mem_nil

theorem Step.bans_eq {step : Step} {manager : Manager} {link : LinkId} {reason : String}
    (member : Part.ban link reason ∈ step.parts manager) (address : PeerAddress) :
    step.bans manager address =
      (manager.accountableAddress? step.links link).any fun banned =>
        banned.samePeer address := by
  unfold bans bannedAddress?
  rw [(Step.turn_of_ban member).1]
  rfl

theorem Step.bans_eq_false {step : Step} {manager : Manager}
    (quiet : ∀ link reason, Part.ban link reason ∉ step.parts manager)
    (address : PeerAddress) : step.bans manager address = false := by
  have none : (step.parts manager).findSome? Part.bannedLink? = none := by
    apply List.findSome?_eq_none_iff.2
    intro part member
    cases part with
    | ban link reason => exact absurd member (quiet link reason)
    | _ => rfl
  unfold bans bannedAddress?
  rw [none]
  rfl

/-- What every part that a step does keeps, and the control that is followed if
there is one, is kept by the step. -/
theorem Step.keeps_parts {P : Turn → Prop} (step : Step) {manager : Manager}
    (learn : ∀ link addresses turn, P turn → P (learnAddresses link addresses turn).2)
    (perform : ∀ part ∈ step.parts manager, ∀ turn, P turn → P (part.perform step.around turn))
    (control : ∀ control, step.move = .control control →
      P (follow step.around control (Turn.start manager step.links)).2)
    (holds : P (Turn.start manager step.links)) : P (step.turn manager) := by
  obtain ⟨around, links, move⟩ := step
  cases move with
  | event event => exact handle_keeps (fun link addresses _ => learn link addresses _) perform holds
  | take event =>
      cases event with
      | addresses link addresses => exact learn link addresses _ holds
      | _ => exact holds
  | part part => exact perform part (List.mem_singleton_self part) _ holds
  | control chosen => exact control chosen rfl

/-! ## Turns under a ban -/

theorem isBanned_of_peerRefusal? {manager : Manager} {now : Nat} {slot : Slot} {peer : Peer}
    (admitted : manager.peerRefusal? now slot peer = none) :
    manager.book.isBanned peer.address now = false := by
  unfold peerRefusal? at admitted
  split at admitted
  · simp at admitted
  · split at admitted
    · simp at admitted
    · split at admitted
      · simp at admitted
      · next free => exact Bool.eq_false_iff.2 free

/-- Whether an address is banned up to a moment, and all peers at the address
have been there before. -/
structure KeptOut (address : PeerAddress) (moment : Nat) (start manager : Manager) : Prop where
  banned : manager.book.bannedUntil? address = some moment
  peers : ∀ id peer, manager.peerOf? id = some peer →
    peer.address.endpoint = address.endpoint → start.peerOf? id = some peer

namespace KeptOut

variable {address : PeerAddress} {moment : Nat} {start before after : Manager}

theorem kept (out : KeptOut address moment start before)
    (fewer : ∀ id peer, after.peerOf? id = some peer → before.peerOf? id = some peer)
    (book : after.book.bannedUntil? address = before.book.bannedUntil? address) :
    KeptOut address moment start after where
  banned := book.trans out.banned
  peers := by
    intro id peer live same
    exact out.peers id peer (fewer id peer live) same

theorem seated (out : KeptOut address moment start before) (same : SameSeats before after)
    (book : after.book.bannedUntil? address = before.book.bannedUntil? address) :
    KeptOut address moment start after := by
  apply out.kept _ book
  intro id peer live
  rwa [peerOf?_congr same.slots] at live

end KeptOut

namespace KeptOut

variable {address : PeerAddress} {moment : Nat} {start : Manager} {before after : Turn}

/-- Another address is dialed. -/
theorem dialed {other : PeerAddress} (out : KeptOut address moment start before.manager)
    (dialed : Dialed other before after) (different : other.endpoint ≠ address.endpoint) :
    KeptOut address moment start after.manager := by
  apply out.seated (.dialed dialed)
  cases dialed with
  | started manager attempts =>
      rw [manager, AddressBook.bannedUntil?_markConnecting, if_neg different]
  | failed manager attempts =>
      rw [manager, AddressBook.bannedUntil?_markUnreachable,
        AddressBook.bannedUntil?_markConnecting, if_neg different]

theorem checked (out : KeptOut address moment start before.manager)
    (checked : Checked before after) : KeptOut address moment start after.manager := by
  cases checked with
  | idle same => rwa [same]
  | dialed other free dialed =>
      apply out.dialed dialed
      intro same
      have unbanned := before.manager.book.bannedUntil?_of_free other free
      rw [before.manager.book.bannedUntil?_congr same, out.banned] at unbanned
      simp at unbanned

theorem followed {control : Control} (out : KeptOut address moment start before.manager)
    (followed : Followed before after control)
    (apart : ∀ other, control = .dial other → before.manager.canDial →
      other.endpoint ≠ address.endpoint) : KeptOut address moment start after.manager := by
  cases followed with
  | switched autoConnect savedAutoConnect offline stopped manager attempts =>
      rw [manager]
      exact out.seated ⟨rfl, rfl, rfl⟩ rfl
  | checked autoConnect savedAutoConnect offline checked =>
      have switched : KeptOut address moment start (before.update fun manager =>
          { manager with
            autoConnect := autoConnect
            savedAutoConnect := savedAutoConnect
            offline := offline }).manager :=
        out.seated ⟨rfl, rfl, rfl⟩ rfl
      exact KeptOut.checked switched checked
  | dialed other allowed dialed => exact out.dialed dialed (apart other rfl allowed)

theorem opened {id : LinkId} (out : KeptOut address moment start before.manager)
    (opened : Opened id before after) : KeptOut address moment start after.manager := by
  cases opened with
  | unknown missing same => rwa [same]
  | refused link known manager attempts =>
      rw [finishAttempt_eq] at manager
      have slots : after.manager.slots = before.manager.slots := by
        rw [manager]
      apply out.kept
      · intro tested peer live
        rwa [peerOf?_congr slots] at live
      rw [manager]
      cases link.peerAddress with
      | none => rfl
      | some other => exact before.manager.book.bannedUntil?_giveUp other address
  | takenIn link known room manager attempts =>
      rw [seat_eq, finishAttempt_eq] at manager
      have slots : after.manager.slots = before.manager.slots.insert id (.ofLink link) := by
        rw [manager]
      apply out.kept
      · intro tested peer live
        exact peerOf?_of_ofLink slots live
      · rw [manager]

/-- A peer at a banned address is refused. -/
theorem announced {now : Nat} {peer : Peer} (out : KeptOut address moment start before.manager)
    (early : now < moment) (announced : Announced now peer before after) :
    KeptOut address moment start after.manager := by
  cases announced with
  | passedOver manager attempts => rwa [manager]
  | accepted slot known admitted manager attempts =>
      have different : (slot.locate peer).address.endpoint ≠ address.endpoint := by
        intro same
        have banned : before.manager.book.isBanned (slot.locate peer).address now := by
          apply (before.manager.book.isBanned_iff _ now).2
          refine ⟨moment, ?_, early⟩
          rw [before.manager.book.bannedUntil?_congr same]
          exact out.banned
        rw [isBanned_of_peerRefusal? admitted] at banned
        simp at banned
      rw [seat_eq] at manager
      have slots : after.manager.slots =
          before.manager.slots.insert peer.link (slot.accept (slot.locate peer)) := by
        rw [manager]
      constructor
      · rw [manager, AddressBook.bannedUntil?_markConnected, if_neg different]
        exact out.banned
      · intro tested other live same
        rw [peerOf?_of_insert slots] at live
        split at live
        · rw [← Option.some.inj live] at same
          exact absurd same different
        · exact out.peers tested other live same

theorem ended {id : LinkId} (out : KeptOut address moment start before.manager)
    (ended : Ended id before after) : KeptOut address moment start after.manager := by
  cases ended with
  | unknown same => rwa [same]
  | lost slot gone known joined manager attempts =>
      rw [vacate_eq] at manager
      have slots : after.manager.slots = before.manager.slots.erase id := by
        rw [manager]
      apply out.kept
      · intro tested peer live
        exact (ne_and_peerOf?_of_erase slots live).2
      · rw [manager]
        exact before.manager.book.bannedUntil?_markDisconnected address id
  | missed slot known peerless manager attempts =>
      rw [vacate_eq] at manager
      have slots : after.manager.slots = before.manager.slots.erase id := by
        rw [manager]
      apply out.kept
      · intro tested peer live
        exact (ne_and_peerOf?_of_erase slots live).2
      · rw [manager]
        cases before.links.peerAddress? id with
        | none => rfl
        | some other => exact before.manager.book.bannedUntil?_miss other address

theorem failed {other : PeerAddress} (out : KeptOut address moment start before.manager) :
    KeptOut address moment start (onConnectFailed other before).manager := by
  apply out.seated (.failed other before)
  rw [(onConnectFailed_eq other before).1]
  exact before.manager.book.bannedUntil?_markUnreachable other address

theorem learned {link : LinkId} {addresses : List PeerAddress}
    (out : KeptOut address moment start before.manager) :
    KeptOut address moment start (learnAddresses link addresses before).2.manager := by
  apply out.seated (.learned link addresses before)
  rw [(learnAddresses_eq link addresses before).1]
  exact before.manager.book.bannedUntil?_ingest address link addresses

theorem routed (out : KeptOut address moment start before.manager)
    (routed : Routed before after) : KeptOut address moment start after.manager := by
  obtain ⟨⟨routes, forwards, manager⟩, attempts⟩ := routed
  rw [manager]
  exact out.seated ⟨rfl, rfl, rfl⟩ rfl

end KeptOut

/-! ## Steps -/

/-- A step in which the address is not banned again. -/
theorem Step.keptOut_apply {step : Step} {manager : Manager} {address : PeerAddress}
    {moment : Nat} (quiet : ∀ link reason, Part.ban link reason ∉ step.parts manager)
    (calm : ¬ step.Redials manager address) (early : step.around.now < moment)
    (banned : manager.book.bannedUntil? address = some moment) :
    KeptOut address moment manager (step.apply manager) := by
  have start : KeptOut address moment manager (Turn.start manager step.links).manager :=
    ⟨banned, fun id peer live same => live⟩
  apply step.keeps_parts (P := fun turn => KeptOut address moment manager turn.manager)
  · intro link addresses turn out
    exact out.learned
  · intro part member turn out
    cases part with
    | connection id => exact out.opened (opened_onConnection id turn)
    | connectFailed other => exact out.failed
    | handshake peer => exact out.announced early (announced_onHandshake _ peer turn)
    | relay source addresses =>
        have same := (relayToAgents_eq step.around source addresses turn).1
        rwa [Part.perform, same]
    | route link signal => exact out.routed (routed_onSignal _ link signal turn)
    | ban link reason => exact absurd member (quiet link reason)
    | closed link => exact out.ended (ended_onClosed link turn)
    | checkPeerCount => exact out.checked (checked_checkPeerCount _ turn)
  · intro control move
    apply KeptOut.followed start (followed_follow step.around control _)
    rintro other rfl allowed same
    exact calm ⟨other, move, same, allowed⟩
  · exact start

/-- A step in which an address is banned changes no peer. -/
theorem Step.apply_of_ban {step : Step} {manager : Manager} {link : LinkId} {reason : String}
    (member : Part.ban link reason ∈ step.parts manager) (address : PeerAddress) :
    SameSeats manager (step.apply manager) ∧
      (step.apply manager).book.bannedUntil? address =
        if step.bans manager address then some (step.around.now + AddressBook.banDuration)
        else manager.book.bannedUntil? address := by
  have turnIs := (Step.turn_of_ban member).2
  unfold Step.apply
  rw [turnIs, Step.bans_eq member]
  refine ⟨.banned step.around link reason (Turn.start manager step.links), ?_⟩
  rw [(banLink_eq step.around link reason (Turn.start manager step.links)).1]
  show ((manager.accountableAddress? step.links link).elim manager.book fun banned =>
    manager.book.ban banned step.around.now).bannedUntil? address = _
  cases manager.accountableAddress? step.links link with
  | none => rfl
  | some banned => simp [PeerAddress.samePeer]

/-- A step in which an address is banned moves the end of its ban. -/
theorem Step.bannedUntil?_of_bans {step : Step} {manager : Manager} {address : PeerAddress}
    (bans : step.bans manager address = true) :
    (step.apply manager).book.bannedUntil? address =
      some (step.around.now + AddressBook.banDuration) := by
  by_cases present : ∃ link reason, Part.ban link reason ∈ step.parts manager
  · obtain ⟨link, reason, member⟩ := present
    rw [(Step.apply_of_ban member address).2, if_pos bans]
  · have quiet : ∀ link reason, Part.ban link reason ∉ step.parts manager := by
      intro link reason member
      exact present ⟨link, reason, member⟩
    rw [Step.bans_eq_false quiet] at bans
    simp at bans

/-- A ban that runs outlives every step but a dial of the address on request. -/
theorem Step.keptOut_of_not_redials {step : Step} {manager : Manager} {address : PeerAddress}
    {moment : Nat} (calm : ¬ step.Redials manager address) (early : step.around.now < moment)
    (banned : manager.book.bannedUntil? address = some moment) :
    KeptOut address
      (if step.bans manager address then step.around.now + AddressBook.banDuration else moment)
      manager (step.apply manager) := by
  by_cases present : ∃ link reason, Part.ban link reason ∈ step.parts manager
  · obtain ⟨link, reason, member⟩ := present
    obtain ⟨same, book⟩ := Step.apply_of_ban member address
    constructor
    · rw [book, banned]
      split <;> rfl
    · intro id peer live _
      rwa [peerOf?_congr same.slots] at live
  · have quiet : ∀ link reason, Part.ban link reason ∉ step.parts manager := by
      intro link reason member
      exact present ⟨link, reason, member⟩
    rw [Step.bans_eq_false quiet, if_neg Bool.false_ne_true]
    exact Step.keptOut_apply quiet calm early banned

/-- A dial of an address on request loses its ban. -/
theorem Step.bannedUntil?_of_redials {step : Step} {manager : Manager} {address : PeerAddress}
    (redials : step.Redials manager address) :
    (step.apply manager).book.bannedUntil? address = none ∧
      step.bans manager address = false := by
  obtain ⟨other, move, same, allowed⟩ := redials
  have turnIs : step.turn manager =
      (connectTo step.around other (Turn.start manager step.links)).2 := by
    unfold Step.turn
    rw [move]
    exact (snd_follow_dial step.around other _).trans (if_pos allowed)
  have dialed := dialed_connectTo step.around other (Turn.start manager step.links)
  rw [← turnIs] at dialed
  constructor
  · unfold Step.apply
    cases dialed with
    | started manager attempts =>
        rw [manager, AddressBook.bannedUntil?_markConnecting, if_pos same]
    | failed manager attempts =>
        rw [manager, AddressBook.bannedUntil?_markUnreachable,
          AddressBook.bannedUntil?_markConnecting, if_pos same]
  · apply Step.bans_eq_false
    intro link reason member
    unfold Step.parts at member
    rw [move] at member
    exact absurd member List.not_mem_nil

/-! ## Runs -/

/-- When an address was banned last in a run, if it was. -/
def lastBan? (address : PeerAddress) (manager : Manager) : List Step → Option Nat
  | [] => none
  | step :: rest =>
      (lastBan? address (step.apply manager) rest).orElse fun _ =>
        if step.bans manager address then some step.around.now else none

/-- Whether the last ban of an address in a run has not expired at a moment. -/
def BanRuns (address : PeerAddress) (manager : Manager) (steps : List Step) (now : Nat) : Prop :=
  ∃ banned, lastBan? address manager steps = some banned ∧
    now < banned + AddressBook.banDuration

/-- Whether bans of an address hold along a run: until the last one expires the
book has the address as banned, and no step accepts a peer at the address. -/
structure BansHold (address : PeerAddress) (manager : Manager) (steps : List Step) : Prop where
  banned : ∀ earlier, earlier <+: steps → ∀ now, (∀ step ∈ earlier, step.around.now ≤ now) →
    BanRuns address manager earlier now → (run manager earlier).book.isBanned address now
  out : ∀ earlier step, earlier ++ [step] <+: steps →
    BanRuns address manager earlier step.around.now →
      ∀ id peer, (step.apply (run manager earlier)).peerOf? id = some peer →
        peer.address.endpoint = address.endpoint →
          (run manager earlier).peerOf? id = some peer

/-- Whether the clock never goes back along a run. -/
def InOrder (steps : List Step) : Prop :=
  steps.Pairwise fun earlier later => earlier.around.now ≤ later.around.now

theorem lastBan?_concat (address : PeerAddress) (manager : Manager) (earlier : List Step)
    (step : Step) :
    lastBan? address manager (earlier ++ [step]) =
      if step.bans (run manager earlier) address then some step.around.now
      else lastBan? address manager earlier := by
  induction earlier generalizing manager with
  | nil =>
      unfold lastBan?
      rfl
  | cons first rest hypothesis =>
      show (lastBan? address (first.apply manager) (rest ++ [step])).orElse _ = _
      rw [hypothesis, run_cons]
      split <;> rfl

theorem now_le_of_inOrder {steps earlier : List Step} {step : Step} (ordered : InOrder steps)
    (initial : earlier ++ [step] <+: steps) :
    ∀ past ∈ earlier, past.around.now ≤ step.around.now := by
  intro past member
  have pairs := (ordered.sublist initial.sublist)
  exact (List.pairwise_append.1 pairs).2.2 past member step (List.mem_singleton_self step)

/-- As long as nobody dials the address, the book keeps the end of the last ban
that has not expired. -/
theorem bannedUntil?_run {address : PeerAddress} {manager : Manager} {steps : List Step}
    (calm : ∀ earlier step, earlier ++ [step] <+: steps →
      BanRuns address manager earlier step.around.now →
        ¬ step.Redials (run manager earlier) address)
    {earlier : List Step} (initial : earlier <+: steps) {banned : Nat}
    (last : lastBan? address manager earlier = some banned)
    (running : ∀ step ∈ earlier, step.around.now < banned + AddressBook.banDuration) :
    (run manager earlier).book.bannedUntil? address =
      some (banned + AddressBook.banDuration) := by
  induction earlier using List.reverseRecOn generalizing banned with
  | nil => simp [lastBan?] at last
  | append_singleton earlier step hypothesis =>
      rw [lastBan?_concat] at last
      rw [run_append]
      show (step.apply (run manager earlier)).book.bannedUntil? address = _
      cases bans : step.bans (run manager earlier) address with
      | true =>
          rw [bans, if_pos rfl] at last
          rw [Step.bannedUntil?_of_bans bans, Option.some.inj last]
      | false =>
          rw [bans, if_neg Bool.false_ne_true] at last
          have early : step.around.now < banned + AddressBook.banDuration :=
            running step (by simp)
          have before : (run manager earlier).book.bannedUntil? address =
              some (banned + AddressBook.banDuration) := by
            apply hypothesis (prefix_of_initial initial) last
            intro past member
            exact running past (List.mem_append_left [step] member)
          have out := Step.keptOut_of_not_redials (calm earlier step initial ⟨banned, last, early⟩)
            early before
          rw [bans, if_neg Bool.false_ne_true] at out
          exact out.banned

/-- Bans of an address hold all along a run if and only if nobody dials the
address on request while it is banned. -/
theorem bansHold_iff_not_redialed (address : PeerAddress) (manager : Manager)
    (steps : List Step) (ordered : InOrder steps) :
    BansHold address manager steps ↔
      ∀ earlier step, earlier ++ [step] <+: steps →
        BanRuns address manager earlier step.around.now →
          ¬ step.Redials (run manager earlier) address := by
  constructor
  · intro hold earlier step initial runs redials
    obtain ⟨lost, calm⟩ := Step.bannedUntil?_of_redials redials
    have lasts : BanRuns address manager (earlier ++ [step]) step.around.now := by
      unfold BanRuns
      rw [lastBan?_concat, calm, if_neg Bool.false_ne_true]
      exact runs
    have past : ∀ past ∈ earlier ++ [step], past.around.now ≤ step.around.now := by
      intro past member
      rcases List.mem_append.1 member with earlier | own
      · exact now_le_of_inOrder ordered initial past earlier
      · exact Nat.le_of_eq (by rw [List.mem_singleton.1 own])
    have banned := hold.banned (earlier ++ [step]) initial step.around.now past lasts
    rw [run_append] at banned
    obtain ⟨moment, known, _⟩ := (AddressBook.isBanned_iff _ address step.around.now).1 banned
    have none : (step.apply (run manager earlier)).book.bannedUntil? address = some moment :=
      known
    rw [lost] at none
    simp at none
  · intro calm
    constructor
    · rintro earlier initial now past ⟨banned, last, early⟩
      apply (AddressBook.isBanned_iff _ address now).2
      refine ⟨_, bannedUntil?_run calm initial last ?_, early⟩
      intro step member
      exact Nat.lt_of_le_of_lt (past step member) early
    · rintro earlier step initial ⟨banned, last, early⟩ id peer live same
      have before : (run manager earlier).book.bannedUntil? address =
          some (banned + AddressBook.banDuration) := by
        apply bannedUntil?_run calm ((List.prefix_append earlier [step]).trans initial) last
        intro past member
        exact Nat.lt_of_le_of_lt (now_le_of_inOrder ordered initial past member) early
      have out := Step.keptOut_of_not_redials (calm earlier step initial ⟨banned, last, early⟩)
        early before
      exact out.peers id peer live same

/-- A host comes in through a link and announces itself. -/
def arrival (id : LinkId) : List Step :=
  [.plain (Table.empty.insert id (.opened id .inbound .direct (some (.ip "2.2.2.2")) none))
      (.event (.connection id)),
    .plain .empty (.event (.handshake
      { link := id
        address := hostAddress "2.2.2.2"
        version := 2
        startHeight := 0
        totalWork := 0 }))]

/-- The peer of a link is banned, and its link ends. -/
def expulsion (id : LinkId) : List Step :=
  [.plain .empty (.event (.ban id "invalid signal ttl")),
    .plain .empty (.event (.closed id false))]

/-- A banned peer that comes back is turned away. -/
theorem bansHold_turnedAway :
    InOrder (arrival 1 ++ expulsion 1 ++ arrival 2) ∧
      BansHold (hostAddress "2.2.2.2") (atHost "1.1.1.1")
        (arrival 1 ++ expulsion 1 ++ arrival 2) ∧
      (run (atHost "1.1.1.1") (arrival 1 ++ expulsion 1 ++ arrival 2)).peerOf? 2 = none := by
  have ordered : InOrder (arrival 1 ++ expulsion 1 ++ arrival 2) := by
    unfold InOrder
    decide
  refine ⟨ordered, ?_, by decide⟩
  apply (bansHold_iff_not_redialed _ _ _ ordered).2
  rintro earlier step initial _ ⟨other, move, _⟩
  have member : step ∈ arrival 1 ++ expulsion 1 ++ arrival 2 :=
    initial.subset (List.mem_append_right earlier (List.mem_singleton_self step))
  simp only [arrival, expulsion, List.mem_append, List.mem_cons, List.not_mem_nil,
    or_false] at member
  rcases member with (((rfl | rfl) | rfl | rfl) | rfl | rfl) <;> simp [Step.plain] at move

/-- A banned peer is dialed on request before it comes back. -/
def letBackIn : List Step :=
  arrival 1 ++ expulsion 1 ++ [.plain .empty (.control (.dial (hostAddress "2.2.2.2")))] ++
    arrival 2

/-- The ban has not expired, and the peer is back. -/
theorem ban_lost_by_dialing :
    lastBan? (hostAddress "2.2.2.2") (atHost "1.1.1.1") letBackIn = some 0 ∧
      (run (atHost "1.1.1.1") letBackIn).book.isBanned (hostAddress "2.2.2.2") 0 = false ∧
      ((run (atHost "1.1.1.1") letBackIn).peerOf? 2).map Peer.address =
        some ((hostAddress "2.2.2.2").withNetAddress (.ip "2.2.2.2")) ∧
      ¬ BansHold (hostAddress "2.2.2.2") (atHost "1.1.1.1") letBackIn := by
  have last : lastBan? (hostAddress "2.2.2.2") (atHost "1.1.1.1") letBackIn = some 0 := by decide
  have free : (run (atHost "1.1.1.1") letBackIn).book.isBanned (hostAddress "2.2.2.2") 0 =
      false := by decide
  refine ⟨last, free, by decide, ?_⟩
  intro hold
  have banned := hold.banned letBackIn (List.prefix_refl letBackIn) 0 (by decide)
    ⟨0, last, by decide⟩
  rw [free] at banned
  simp at banned

end PeerOverlay.Manager
