import PeerOverlay.Proofs.Manager.Signals

/-!
# Signals along a line of relays

The managers of a line pass a plain signal on from one to the next.  It reaches
the connector of the last one if it has a hop left for every relay on the way.
Otherwise the relay at which the hops are used up sends it back, flagged.
-/

namespace PeerOverlay

/-- A signal that has taken some hops. -/
def Signal.after (signal : Signal) (hops : Nat) : Signal :=
  { signal with ttl := .ofNat (signal.ttl.toNat - hops) }

namespace Signal

theorem after_zero (signal : Signal) : signal.after 0 = signal := by
  simp [after]

theorem toNat_ttl_after (signal : Signal) (hops : Nat) :
    (signal.after hops).ttl.toNat = signal.ttl.toNat - hops := by
  have fits : signal.ttl.toNat - hops < UInt8.size :=
    Nat.lt_of_le_of_lt (Nat.sub_le signal.ttl.toNat hops) signal.ttl.toNat_lt
  exact UInt8.toNat_ofNat_of_lt fits

theorem after_after (signal : Signal) (first second : Nat) :
    (signal.after first).after second = signal.after (first + second) := by
  have ttl : (signal.after first).ttl.toNat - second = signal.ttl.toNat - (first + second) := by
    rw [toNat_ttl_after]
    omega
  show { signal with ttl := .ofNat ((signal.after first).ttl.toNat - second) } = _
  rw [ttl]
  rfl

theorem after_one_eq {signal : Signal} (hops : signal.ttl ≠ 0) :
    signal.after 1 = { signal with ttl := signal.ttl - 1 } := by
  have ttl : UInt8.ofNat (signal.ttl.toNat - 1) = signal.ttl - 1 := by
    apply UInt8.toNat_inj.1
    rw [UInt8.toNat_sub_of_le _ _ (one_le_ttl hops)]
    exact toNat_ttl_after signal 1
  unfold after
  rw [ttl]

end Signal

namespace Manager

/-! ## Lines -/

/-- A manager at a place in a line, and the link through which signals come to it. -/
structure Station where
  manager : Manager
  links : Links
  around : Surroundings
  arrival : LinkId

/-- A manager that stands between others, and the link to the next one. -/
structure Relay extends Station where
  next : LinkId

/-- Nothing has come. -/
def Station.idle (station : Station) : Turn :=
  .start station.manager station.links

/-- Handle the signals that come, in order. -/
def Station.hear (station : Station) (signals : List Signal) : Turn :=
  signals.foldl
    (fun turn signal => handle station.around (.signal station.arrival signal) turn)
    station.idle

def queueOf (links : Links) (id : LinkId) : List Message :=
  ((links.get? id).map Link.outbound).getD []

theorem queueOf_queue_self {links : Links} {id : LinkId} (room : links.canSend id = true)
    (message : Message) :
    queueOf (links.queue id message) id = queueOf links id ++ [message] := by
  obtain ⟨link, found, _⟩ := (Option.any_eq_true _ _).1 room
  simp [queueOf, Links.queue, Table.get?_modify, found]

theorem queueOf_queue_of_ne {links : Links} {id tested : LinkId} (different : tested ≠ id)
    (message : Message) :
    queueOf (links.queue id message) tested = queueOf links tested := by
  unfold queueOf Links.queue
  rw [Table.get?_modify, Option.map_map]
  simp [different, Function.comp_def]

/-- The signals that a relay queues for the next manager when some signals come. -/
def Relay.passed (relay : Relay) (signals : List Signal) : List Signal :=
  ((queueOf (relay.hear signals).links relay.next).drop
    (queueOf relay.links relay.next).length).filterMap Message.signal?

/-- The turns of the relays of a line and of the recipient at its end when signals come
to the line. -/
def carry (recipient : Station) : List Relay → List Signal → List Turn
  | [], signals => [recipient.hear signals]
  | relay :: others, signals =>
      relay.hear signals :: carry recipient others (relay.passed signals)

/-! ## What becomes of a signal -/

/-- Whether a relay leads a signal of another node on to a third one. -/
structure Relay.Leads (relay : Relay) (signal : Signal) : Prop where
  foreign : signal.senderId ≠ relay.manager.config.signalId
  onward : signal.recipientId ≠ relay.manager.config.signalId
  moderate : signal.ttl ≤ relay.manager.config.signalTtlInitial
  arrival : relay.links.canSend relay.arrival = true
  route : relay.manager.book.lookup? relay.links.isOpen signal.recipientId = some relay.next
  next : relay.links.canSend relay.next = true
  ahead : relay.next ≠ relay.arrival

/-- Whether a signal of another node is for a manager with a connector. -/
structure Station.Receives (station : Station) (signal : Signal) : Prop where
  foreign : signal.senderId ≠ station.manager.config.signalId
  here : signal.recipientId = station.manager.config.signalId
  moderate : signal.ttl ≤ station.manager.config.signalTtlInitial
  connected : station.around.connectors.relayed.isSome = true

/-- The signal goes to the connector. -/
def Station.handed (station : Station) (signal : Signal) : Turn where
  manager := station.manager
  links := station.links
  effects := [.handSignal station.arrival signal]

/-- The signal is queued for the next manager with one hop less, and recorded. -/
def Relay.sentOn (relay : Relay) (signal : Signal) : Turn where
  manager :=
    { relay.manager with
      forwards := relay.manager.forwards.add (forwardOf signal) relay.around.now }
  links := relay.links.queue relay.next (.signal (signal.after 1))
  effects := []

/-- After that the store knows sender, recipient and number of the signal, as of now. -/
theorem Relay.remembered_sentOn (relay : Relay) (signal : Signal) :
    (relay.sentOn signal).manager.forwards.lastSeen.get?
      ⟨signal.senderId, signal.recipientId, signal.nonce⟩ = some relay.around.now :=
  ForwardStore.get?_add_self ..

/-- An answer that the hops were used up is queued where the signal came from. -/
def Relay.sentBack (relay : Relay) (signal : Signal) : Turn where
  manager := relay.manager
  links := relay.links.queue relay.arrival (.signal {
    senderId := signal.recipientId
    recipientId := signal.senderId
    nonce := signal.nonce
    ttl := relay.manager.config.signalTtlInitial
    flags := .ttlExceeded
    payload := none })
  effects := []

/-! ## One station -/

theorem Station.hear_of_receives {station : Station} {signal : Signal}
    (plain : signal.isPlain = true) (receives : station.Receives signal) :
    station.hear [signal] = station.handed signal := by
  show handle station.around (.signal station.arrival signal) station.idle = _
  rw [handle_signal receives.moderate receives.foreign, onSignal_of_isPlain plain]
  refine (if_pos receives.here).trans ?_
  exact receive_of_isPlain plain receives.connected

namespace Relay

variable {relay : Relay} {signal : Signal}

theorem hear_of_leads (plain : signal.isPlain = true) (leads : relay.Leads signal) :
    relay.hear [signal] = if signal.ttl = 0 then relay.sentBack signal else relay.sentOn signal := by
  show handle relay.around (.signal relay.arrival signal) relay.idle = _
  rw [handle_signal leads.moderate leads.foreign, onSignal_of_isPlain plain]
  refine (if_neg leads.onward).trans ?_
  unfold passOn
  split
  · exact sendBack_of_isPlain plain leads.arrival .ttlExceeded
  · next hops =>
      have route : relay.idle.manager.book.lookup? relay.idle.links.isOpen
          signal.recipientId = some relay.next := leads.route
      rw [route]
      dsimp only
      rw [if_neg leads.ahead, forward_of_isPlain plain leads.next]
      rw [← Signal.after_one_eq hops]
      rfl

theorem passed_nil : relay.passed [] = [] := by
  show ((queueOf relay.links relay.next).drop _).filterMap Message.signal? = []
  rw [List.drop_length]
  rfl

theorem passed_of_leads (plain : signal.isPlain = true) (leads : relay.Leads signal) :
    relay.passed [signal] = if signal.ttl = 0 then [] else [signal.after 1] := by
  unfold passed
  rw [hear_of_leads plain leads]
  split
  · show ((queueOf (relay.links.queue relay.arrival _) relay.next).drop _).filterMap _ = []
    rw [queueOf_queue_of_ne leads.ahead, List.drop_length]
    rfl
  · show ((queueOf (relay.links.queue relay.next _) relay.next).drop _).filterMap _ = _
    rw [queueOf_queue_self leads.next, List.drop_left]
    rfl

/-- With a hop less a signal is led on in the same way. -/
theorem Leads.after (leads : relay.Leads signal) (hops : Nat) :
    relay.Leads (signal.after hops) := by
  refine ⟨leads.foreign, leads.onward, ?_, leads.arrival, leads.route, leads.next, leads.ahead⟩
  have moderate := UInt8.le_iff_toNat_le.1 leads.moderate
  rw [UInt8.le_iff_toNat_le, Signal.toNat_ttl_after]
  omega

end Relay

theorem Station.Receives.after {station : Station} {signal : Signal}
    (receives : station.Receives signal) (hops : Nat) :
    station.Receives (signal.after hops) := by
  refine ⟨receives.foreign, receives.here, ?_, receives.connected⟩
  have moderate := UInt8.le_iff_toNat_le.1 receives.moderate
  rw [UInt8.le_iff_toNat_le, Signal.toNat_ttl_after]
  omega

/-! ## Whole lines -/

theorem carry_nil (recipient : Station) (relays : List Relay) :
    carry recipient relays [] =
      (relays.map fun relay => relay.idle) ++ [recipient.idle] := by
  induction relays with
  | nil => rfl
  | cons relay others hypothesis =>
      show relay.idle :: carry recipient others (relay.passed []) = _
      rw [relay.passed_nil, hypothesis]
      rfl

section

variable {recipient : Station} {relays : List Relay} {signal : Signal}

/-- With a hop left, the first relay passes the signal on to the rest of the line. -/
theorem carry_cons_of_hops {relay : Relay} (plain : signal.isPlain = true)
    (leads : relay.Leads signal) (hops : signal.ttl ≠ 0) :
    carry recipient (relay :: relays) [signal] =
      relay.sentOn signal :: carry recipient relays [signal.after 1] := by
  show relay.hear [signal] :: carry recipient relays (relay.passed [signal]) = _
  rw [Relay.hear_of_leads plain leads, if_neg hops]
  rw [Relay.passed_of_leads plain leads, if_neg hops]

theorem carry_cons_of_used {relay : Relay} (plain : signal.isPlain = true)
    (leads : relay.Leads signal) (used : signal.ttl = 0) :
    carry recipient (relay :: relays) [signal] =
      relay.sentBack signal :: carry recipient relays [] := by
  show relay.hear [signal] :: carry recipient relays (relay.passed [signal]) = _
  rw [Relay.hear_of_leads plain leads, if_pos used]
  rw [Relay.passed_of_leads plain leads, if_pos used]

theorem leads_after_of_cons {relay : Relay}
    (leads : ∀ other ∈ relay :: relays, other.Leads signal) :
    ∀ other ∈ relays, other.Leads (signal.after 1) := by
  intro other member
  exact (leads other (List.mem_cons_of_mem relay member)).after 1

/-- With a hop for every relay, all of them pass the signal on. -/
theorem carry_of_enough (plain : signal.isPlain = true)
    (leads : ∀ relay ∈ relays, relay.Leads signal) (receives : recipient.Receives signal)
    (enough : relays.length ≤ signal.ttl.toNat) :
    carry recipient relays [signal] =
      (relays.mapIdx fun hops relay => relay.sentOn (signal.after hops)) ++
        [recipient.handed (signal.after relays.length)] := by
  -- The signal varies, since what comes to the rest of the line has a hop less.
  induction relays generalizing signal with
  | nil =>
      rw [List.length_nil, signal.after_zero]
      exact congrArg (fun turn => [turn]) (Station.hear_of_receives plain receives)
  | cons relay others hypothesis =>
      have first : relay.Leads signal := leads relay (List.mem_cons_self ..)
      have hops : signal.ttl ≠ 0 := by
        intro used
        simp [used] at enough
      have still : (signal.after 1).isPlain = true := plain
      have left : others.length ≤ (signal.after 1).ttl.toNat := by
        rw [List.length_cons] at enough
        rw [Signal.toNat_ttl_after]
        omega
      rw [carry_cons_of_hops plain first hops]
      rw [hypothesis still (leads_after_of_cons leads) (receives.after 1) left]
      simp only [Signal.after_after, Nat.add_comm 1, List.mapIdx_cons, Signal.after_zero,
        List.length_cons, List.cons_append]

/-- Without a hop for every relay, one of them sends the signal back, and nothing
reaches the managers behind it. -/
theorem carry_of_few (plain : signal.isPlain = true)
    (leads : ∀ relay ∈ relays, relay.Leads signal)
    (few : signal.ttl.toNat < relays.length) :
    ∃ relay, relays[signal.ttl.toNat]? = some relay ∧
      carry recipient relays [signal] =
        ((relays.take signal.ttl.toNat).mapIdx fun hops relay =>
            relay.sentOn (signal.after hops)) ++
          relay.sentBack (signal.after signal.ttl.toNat) ::
            ((relays.drop (signal.ttl.toNat + 1)).map fun relay => relay.idle) ++
          [recipient.idle] := by
  induction relays generalizing signal with
  | nil => exact absurd few (Nat.not_lt_zero _)
  | cons relay others hypothesis =>
      have first : relay.Leads signal := leads relay (List.mem_cons_self ..)
      -- A hop is asked for only by a relay, so with none left this relay answers, and
      -- nothing comes to the others.
      by_cases used : signal.ttl = 0
      · refine ⟨relay, ?_, ?_⟩
        · simp [used]
        · rw [carry_cons_of_used plain first used, carry_nil]
          simp [used, Signal.after_zero]
      · obtain ⟨hops, left⟩ : ∃ hops, signal.ttl.toNat = hops + 1 :=
          ⟨_, (Signal.toNat_ttl_sub_one used).symm⟩
        have still : (signal.after 1).isPlain = true := plain
        have fewer : (signal.after 1).ttl.toNat = hops := by
          rw [Signal.toNat_ttl_after, left]
          rfl
        have short : (signal.after 1).ttl.toNat < others.length := by
          rw [List.length_cons] at few
          omega
        obtain ⟨last, found, rest⟩ := hypothesis still (leads_after_of_cons leads) short
        rw [fewer] at found rest
        rw [left]
        refine ⟨last, found, ?_⟩
        rw [carry_cons_of_hops plain first used, rest]
        simp only [Signal.after_after, Nat.add_comm 1, List.take_succ_cons,
          List.mapIdx_cons, Signal.after_zero, List.drop_succ_cons, List.cons_append]

/-- A plain signal is passed on along a line of relays that lead to its recipient.  If it
has a hop left for every relay, the connector of the recipient is given it, with the hops
taken off and otherwise unchanged.  Else the relay at which no hop is left answers the
node from which the signal came, and the others behind it hear nothing.  Every relay that passes
the signal on remembers it from then on. -/
theorem line_delivers_or_answers (plain : signal.isPlain = true)
    (leads : ∀ relay ∈ relays, relay.Leads signal) (receives : recipient.Receives signal) :
    (relays.length ≤ signal.ttl.toNat →
      carry recipient relays [signal] =
        (relays.mapIdx fun hops relay => relay.sentOn (signal.after hops)) ++
          [recipient.handed (signal.after relays.length)]) ∧
      (signal.ttl.toNat < relays.length →
        ∃ relay, relays[signal.ttl.toNat]? = some relay ∧
          carry recipient relays [signal] =
            ((relays.take signal.ttl.toNat).mapIdx fun hops relay =>
                relay.sentOn (signal.after hops)) ++
              relay.sentBack (signal.after signal.ttl.toNat) ::
                ((relays.drop (signal.ttl.toNat + 1)).map fun relay => relay.idle) ++
              [recipient.idle]) ∧
      ∀ relay ∈ relays, ∀ hops,
        (relay.sentOn (signal.after hops)).manager.forwards.lastSeen.get?
          ⟨signal.senderId, signal.recipientId, signal.nonce⟩ = some relay.around.now :=
  ⟨carry_of_enough plain leads receives, carry_of_few plain leads,
    fun relay _ hops => relay.remembered_sentOn (signal.after hops)⟩

end

/-! ## A line of two relays -/

/-- Two links of which the second one leads to the recipient. -/
def linksOfRelay : Links :=
  (Table.empty.insert 1 (.opened 1 .inbound .direct none none)).insert 2
    (.opened 2 .outbound .direct none none)

/-- The recipient was heard of through the second link. -/
def bookOfRelay : AddressBook :=
  { AddressBook.empty with routes := Table.empty.insert "bbbb" [⟨2, 1⟩] }

def relayNamed (signalId : SignalId) : Relay where
  manager := .new (.full (.fresh (.direct "3.3.3.3" defaultPort) .full 0) signalId) bookOfRelay
  links := linksOfRelay
  around := ⟨0, .none, [], []⟩
  arrival := 1
  next := 2

/-- A relayed node with a connector that only listens. -/
def listener : Station where
  manager := .new (.full (.fresh (.relayed "bbbb") .nano 0) "") .empty
  links := Table.empty.insert 1 (.opened 1 .inbound .direct none none)
  around := ⟨0, ⟨none, some ⟨fun _ _ => false, fun _ => false⟩⟩, [], []⟩
  arrival := 1

/-- A signal that may take some hops to the listener. -/
def signalWithHops (ttl : UInt8) : Signal where
  senderId := "aaaa"
  recipientId := "bbbb"
  nonce := 99
  ttl := ttl
  flags := .none
  payload := none

theorem leads_relayNamed {signalId : SignalId} {ttl : UInt8} (other : signalId ≠ "aaaa")
    (between : signalId ≠ "bbbb") (moderate : ttl ≤ 3) :
    (relayNamed signalId).Leads (signalWithHops ttl) := by
  have route : bookOfRelay.lookup? linksOfRelay.isOpen "bbbb" = some 2 := by decide
  exact ⟨other.symm, between.symm, moderate, rfl, route, rfl, Nat.succ_ne_self 1⟩

theorem line_of_two_relays :
    carry listener [relayNamed "r1", relayNamed "r2"] [signalWithHops 3] =
        [(relayNamed "r1").sentOn (signalWithHops 3), (relayNamed "r2").sentOn (signalWithHops 2),
          listener.handed (signalWithHops 1)] ∧
      carry listener [relayNamed "r1", relayNamed "r2"] [signalWithHops 1] =
        [(relayNamed "r1").sentOn (signalWithHops 1), (relayNamed "r2").sentBack (signalWithHops 0),
          listener.idle] := by
  have leads {ttl : UInt8} (moderate : ttl ≤ 3) :
      ∀ relay ∈ [relayNamed "r1", relayNamed "r2"], relay.Leads (signalWithHops ttl) := by
    rw [List.forall_mem_cons, List.forall_mem_singleton]
    constructor
    · exact leads_relayNamed (by decide) (by decide) moderate
    · exact leads_relayNamed (by decide) (by decide) moderate
  have foreign : "aaaa" ≠ "bbbb" := by decide
  have receives {ttl : UInt8} (moderate : ttl ≤ 3) : listener.Receives (signalWithHops ttl) :=
    ⟨foreign, rfl, moderate, rfl⟩
  constructor
  · have three : (3 : UInt8) ≤ 3 := by decide
    exact (line_delivers_or_answers rfl (leads three) (receives three)).1 (by decide)
  · have one : (1 : UInt8) ≤ 3 := by decide
    obtain ⟨relay, found, answered⟩ :=
      (line_delivers_or_answers rfl (leads one) (receives one)).2.1 (by decide)
    obtain rfl : relayNamed "r2" = relay := Option.some.inj found
    exact answered

end Manager

end PeerOverlay
