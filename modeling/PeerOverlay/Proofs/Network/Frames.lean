import Mathlib
import PeerOverlay.Proofs.Manager.Places
import PeerOverlay.Proofs.Message.Size
import PeerOverlay.Proofs.Network.Places
import PeerOverlay.Proofs.Network.Reached

/-!
# Addresses that fit a frame

The number of addresses in a message is limited, but the size of an address is
not.  If what the addresses are made of is short, then all that agents tell of
addresses fits into a frame.  If not, then two addresses that have come in
different messages can be too much for one.
-/

namespace PeerOverlay

open Manager (Part)

namespace Network

/-- What agents may queue for their peers in the next step of the network. -/
inductive Queues (network : Network) (task : Agent.Task) (message : Message) : Prop where
  | step (id : LinkId) (attendance : Attendance) (link : Link) (member : Member)
      (timers : Timers Agent.Alarm Agent.Alarm) (choices : Choices) (queued : List Message)
      (attends : network.agents.get? id = some attendance)
      (known : network.links.get? id = some link)
      (owner : network.members.get? attendance.owner = some member)
      (next : { attendance.agent with timers := timers }.nextTask? link = some task)
      (outbound : (Agent.perform (network.agentSurroundings member choices) task
        ⟨{ attendance.agent with timers := timers }, link, []⟩).link.outbound =
          link.outbound ++ queued)
      (present : message ∈ queued)

/-- How much there may be in one message, and in one address. -/
structure Sizes where
  addresses : Nat
  /-- The most bytes of an endpoint. -/
  endpoint : Nat
  /-- The most bytes of a network address. -/
  netAddress : Nat
  one_le_addresses : 1 ≤ addresses

namespace Sizes

variable (sizes : Sizes)

/-- The endpoints and network addresses that are short enough. -/
def places : Places where
  endpoint := fun endpoint => endpoint.toJson.render.length ≤ sizes.endpoint
  netAddress := fun netAddress => netAddress.toJson.render.length ≤ sizes.netAddress

/-- The most bytes of a message with as many addresses as are allowed. -/
def message : Nat :=
  sizes.addresses * (sizes.endpoint + sizes.netAddress + 130) + 11

/-- Whether a node keeps to the sizes and knows of short addresses only. -/
structure Suits (manager : Manager) : Prop where
  knows : sizes.places.Knows manager
  answers : manager.config.maxAddrPerMessage ≤ sizes.addresses
  batches : manager.config.relayBatchMax ≤ sizes.addresses

def Carries : Message → Prop
  | .version version => sizes.places.Admits version.peerAddress
  | .addresses told => ∀ address ∈ told, sizes.places.Admits address
  | _ => True

/-- What is found in a network in which all addresses are short. -/
def rules : Rules where
  manager := sizes.Suits
  address := sizes.places.Admits
  netAddress := sizes.places.netAddress
  message := sizes.Carries
  event := sizes.places.Tells
  part := sizes.places.Leaves
  relay := fun addresses =>
    addresses.length ≤ sizes.addresses ∧ ∀ address ∈ addresses, sizes.places.Admits address

variable {sizes}

/-! ## Nodes keep to the sizes -/

theorem endsAll {links : Links} (onLinks : sizes.rules.OnLinks links) :
    sizes.places.EndsAll links :=
  Places.endsAll onLinks (fun _ admits => admits) (fun _ short => short)

theorem carries_of_spoken {around : Agent.Surroundings} {task : Agent.Task} {said : Message}
    {owner : Manager} (suits : sizes.Suits owner) (reads : around.Reads owner)
    (inTask : sizes.rules.InTask task) (speaks : Agent.Says around task said) :
    sizes.Carries said := by
  refine Places.carries_of_spoken suits.knows reads ?_ speaks
  rintro addresses others rfl
  exact inTask.2

theorem length_le_of_spoken {around : Agent.Surroundings} {task : Agent.Task}
    {told : List PeerAddress} {owner : Manager} (suits : sizes.Suits owner)
    (reads : around.Reads owner) (inTask : sizes.rules.InTask task)
    (speaks : Agent.Says around task (.addresses told)) : told.length ≤ sizes.addresses := by
  cases speaks with
  | answer protocols services told stored few =>
      rw [reads.config] at few
      exact Nat.le_trans few suits.answers
  | passOn addresses told others asked among =>
      subst asked
      exact Nat.le_trans among.length_le inTask.1
  | announce => exact sizes.one_le_addresses

theorem tells_of_told {around : Agent.Surroundings} {id : LinkId} {task : Agent.Task}
    {told : Event} (inTask : sizes.rules.InTask task)
    (known : ∀ peer, told.handshake? = some peer → sizes.places.Admits peer.address)
    (tells : Agent.Tells around id task told) : sizes.places.Tells told := by
  refine Places.tells_of_told ?_ known tells
  rintro addresses others rfl
  exact inTask

theorem relay_of_relays {owner : Manager} {part : Part} {addresses : List PeerAddress}
    (suits : sizes.Suits owner) (leaves : sizes.places.Leaves part)
    (relays : part.Relays owner addresses) : sizes.rules.relay addresses := by
  have few : addresses.length ≤ owner.config.relayBatchMax := by
    cases relays with
    | relayed source addresses few => exact few
    | joined peer slot known few => exact few
  exact ⟨Nat.le_trans few suits.batches, Places.admits_relayed suits.knows leaves relays⟩

theorem suits_follow {around : Manager.Surroundings} {turn : Manager.Turn}
    {control : Manager.Control} (suits : sizes.Suits turn.manager)
    (asked : sizes.rules.InControl control) :
    sizes.Suits (Manager.follow around control turn).2.manager := by
  have followed := Manager.followed_follow around control turn
  have config := (Manager.SameSeats.followed followed).config
  refine ⟨suits.knows.followed ?_ followed, ?_, ?_⟩
  · rintro address rfl
    exact asked
  · rw [config]
    exact suits.answers
  · rw [config]
    exact suits.batches

/-- The sizes are a custom. -/
def custom (sizes : Sizes) : Custom where
  toRules := sizes.rules
  speaks := fun suits reads inTask speaks => carries_of_spoken suits reads inTask speaks
  tells := fun _ _ inTask known tells => tells_of_told inTask known tells
  completes := fun suits admits => Places.admits_completed suits.knows admits
  takes := by
    intro turn taken suits tells
    obtain ⟨knows, leaves⟩ := suits.knows.taken tells
    have config := Manager.config_take taken turn
    refine ⟨⟨knows, ?_, ?_⟩, leaves⟩
    · rw [config]
      exact suits.answers
    · rw [config]
      exact suits.batches
  performs := by
    intro around turn done suits onLinks leaves
    have config := Manager.config_perform around done turn
    refine ⟨suits.knows.performed (endsAll onLinks) leaves around, ?_, ?_⟩
    · rw [config]
      exact suits.answers
    · rw [config]
      exact suits.batches
  follows := fun _ _ _ => trivial
  relays := fun suits leaves relays => relay_of_relays suits leaves relays
  obeys := fun suits asked => suits_follow suits asked
  checks := ⟨trivial, trivial⟩

theorem length_encode_le {told : List PeerAddress} (few : told.length ≤ sizes.addresses)
    (admits : ∀ address ∈ told, sizes.places.Admits address) :
    (Message.addresses told).encode.length ≤ sizes.message := by
  have each : ∀ address ∈ told,
      address.toJson.render.length ≤ sizes.endpoint + sizes.netAddress + 129 := by
    intro address member
    have whole := address.length_render_le
    have endpoint : address.endpoint.toJson.render.length ≤ sizes.endpoint :=
      (admits address member).endpoint
    cases known : address.netAddress with
    | none =>
        have absent : (Json.ofOption NetAddress.toJson none).render.length = 4 := by decide
        rw [known, absent] at whole
        omega
    | some netAddress =>
        have short : netAddress.toJson.render.length ≤ sizes.netAddress :=
          (admits address member).netAddress netAddress known
        have same : Json.ofOption NetAddress.toJson (some netAddress) = netAddress.toJson := rfl
        rw [known, same] at whole
        omega
  refine Nat.le_trans (Message.length_encode_addresses_le each) ?_
  exact Nat.add_le_add_right (Nat.mul_le_mul_right _ few) 11

end Sizes

/-! ## All that is told fits -/

/-- In every state that a network can reach in which nothing from outside is too
long, all addresses that an agent may queue next are of bounded size, and if that
size is not too large for a frame, they can be sent. -/
theorem queued_addresses_fit_frame {sizes : Sizes} {network : Network} {task : Agent.Task}
    {told : List PeerAddress} (reached : Reached sizes.rules network)
    (queues : network.Queues task (.addresses told)) :
    told.length ≤ sizes.addresses ∧
      (Message.addresses told).encode.length ≤ sizes.message ∧
      (sizes.message ≤ Frame.maxBodySize → ∀ buffer,
        Frame.encode (.addresses told) buffer =
          (.ok (), buffer ++ Frame.wrap (Message.addresses told).encode)) := by
  have keeps : Keeps sizes.custom.toRules network := Reached.keeps reached
  obtain ⟨id, attendance, link, member, timers, choices, queued, attends, known, owner, next,
    outbound, present⟩ := queues
  have inAgent := keeps.agents id attendance attends
  have timed : sizes.custom.InAgent { attendance.agent with timers := timers } :=
    ⟨inAgent.relays, inAgent.peer⟩
  have inTask : sizes.custom.InTask task :=
    sizes.custom.inTask (keeps.links id link known) timed next
  have suits : sizes.Suits member.manager := (keeps.members attendance.owner member owner).manager
  have reads : (network.agentSurroundings member choices).Reads member.manager := ⟨rfl, rfl⟩
  have accounted : Agent.Accounted (network.agentSurroundings member choices) task
    { attendance.agent with timers := timers } link _ := Agent.accounted_perform next
  obtain ⟨others, added, said⟩ := accounted.outbound
  rw [outbound] at added
  rw [List.append_cancel_left added] at present
  have speaks := said _ present
  have few := Sizes.length_le_of_spoken suits reads inTask speaks
  have admits : sizes.Carries (.addresses told) :=
    Sizes.carries_of_spoken suits reads inTask speaks
  have bounded := Sizes.length_encode_le few admits
  refine ⟨few, bounded, ?_⟩
  intro fits buffer
  exact Frame.encode_of_le (Nat.le_trans bounded fits) buffer

/-! ## A run with two addresses -/

def hiddenAddress (peerId : String) : PeerAddress :=
  .fresh (.unreachable peerId) .full 0

def hiddenVersion (peerId : String) : Version where
  version := 2
  peerAddress := hiddenAddress peerId
  genesisHash := ""
  startHeight := 0
  totalWork := 0

def actAll (network : Network) (tasks : List Task) : Network :=
  tasks.foldl (act (.plain 0)) network

/-- A peer has come to the node through a link. -/
def meeting (network : Network) (link : LinkId) (peerId : String) : Network :=
  let network := network.openLink (.opened link .inbound .direct none none)
  let network := network.handOver "n" link
  let network := network.actAll [.manager "n", .manager "n", .agent link]
  let network := (network.deliver link (.version (hiddenVersion peerId))).2
  network.actAll [.agent link, .manager "n", .manager "n"]

/-- An address has come to the node through a link. -/
def hearing (network : Network) (link : LinkId) (address : PeerAddress) : Network :=
  let network := (network.deliver link (.addresses [address])).2
  network.actAll [.agent link, .manager "n", .manager "n", .manager "n"]

def hiddenManager : Manager :=
  .new (.full (hiddenAddress "n") "") .empty

/-- One peer has told a node of two addresses, and another one asks for them. -/
def asked (host : String) (signalId : SignalId) : Network :=
  let network := ((Network.empty 0).join "n" (.new hiddenManager ⟨"", 0, 0⟩ .none)).run "n"
  let network := network.meeting 1 "p"
  let network := network.hearing 1 (.fresh (.direct host defaultPort) .full 0)
  let network := network.hearing 1 (.fresh (.relayed signalId) .full 0)
  let network := network.meeting 2 "g"
  (network.deliver 2 (.getAddresses .dialable .all)).2

/-- The addresses that are told to the other peer. -/
def answer (host : String) (signalId : SignalId) : List PeerAddress :=
  [.fresh (.direct host defaultPort) .full 0,
    { PeerAddress.fresh (.relayed signalId) .full 0 with distance := 1 }]

namespace Reached

variable {rules : Rules} {network : Network}

theorem actAll (reached : Reached rules network) (tasks : List Task) :
    Reached rules (network.actAll tasks) := by
  induction tasks generalizing network with
  | nil => exact reached
  | cons task others hypothesis => exact hypothesis (reached.acted (.plain 0) task)

theorem meeting (reached : Reached rules network) {link : LinkId} {peerId : String}
    (connection : rules.event (.connection link))
    (version : rules.message (.version (hiddenVersion peerId))) :
    Reached rules (network.meeting link peerId) := by
  have onLink : rules.OnLink (.opened link .inbound .direct none none) :=
    ⟨fun _ member => absurd member List.not_mem_nil,
      fun _ member => absurd member List.not_mem_nil,
      (fun _ known => by cases known), (fun _ known => by cases known)⟩
  have handed := (reached.opened _ onLink).handed "n" link connection
  exact ((handed.actAll _).delivered link _ version).actAll _

theorem hearing (reached : Reached rules network) {address : PeerAddress}
    (fits : rules.message (.addresses [address])) (link : LinkId) :
    Reached rules (network.hearing link address) :=
  (reached.delivered link _ fits).actAll _

theorem asked (manager : rules.manager hiddenManager)
    (connection : ∀ link, rules.event (.connection link))
    (version : ∀ peerId ∈ ["p", "g"], rules.message (.version (hiddenVersion peerId)))
    (request : rules.message (.getAddresses .dialable .all)) {host : String}
    {signalId : SignalId}
    (direct : rules.message (.addresses [.fresh (.direct host defaultPort) .full 0]))
    (relayed : rules.message (.addresses [.fresh (.relayed signalId) .full 0])) :
    Reached rules (asked host signalId) := by
  have empty : Reached rules (.empty 0) := .empty 0
  have started := (empty.joined "n" hiddenManager ⟨"", 0, 0⟩ .none manager).started "n"
  have first := started.meeting (connection 1) (version "p" (by decide))
  have second := ((first.hearing direct 1).hearing relayed 1).meeting (connection 2)
    (version "g" (by decide))
  exact second.delivered 2 _ request

end Reached

/-- The next task of an agent, with what is queued on its link before and after. -/
def queueing? (network : Network) (id : LinkId) (task : Agent.Task) :
    Option (Option Agent.Task × List Message × List Message) := do
  let attendance ← network.agents.get? id
  let link ← network.links.get? id
  let member ← network.members.get? attendance.owner
  let around := network.agentSurroundings member (.plain 0)
  pure (attendance.agent.nextTask? link, link.outbound,
    (Agent.perform around task ⟨attendance.agent, link, []⟩).link.outbound)

theorem Queues.of_queueing? {network : Network} {id : LinkId} {task : Agent.Task}
    {waiting queued : List Message} {message : Message}
    (queueing : network.queueing? id task = some (some task, waiting, waiting ++ queued))
    (present : message ∈ queued) : network.Queues task message := by
  obtain ⟨attendance, attends, queueing⟩ := Option.bind_eq_some_iff.1 queueing
  obtain ⟨link, known, queueing⟩ := Option.bind_eq_some_iff.1 queueing
  obtain ⟨member, owner, queueing⟩ := Option.bind_eq_some_iff.1 queueing
  obtain ⟨next, outbound⟩ := Prod.mk.inj (Option.some.inj queueing)
  obtain ⟨before, after⟩ := Prod.mk.inj outbound
  rw [← before] at after
  exact .step id attendance link member attendance.agent.timers (.plain 0) queued attends known
    owner next after present

/-- The node may answer with both addresses in one message. -/
theorem queues_asked (host : String) (signalId : SignalId) :
    (asked host signalId).Queues (.message (.getAddresses .dialable .all) [])
      (.addresses (answer host signalId)) := by
  have queueing : (asked host signalId).queueing? 2
      (.message (.getAddresses .dialable .all) []) =
        some (some (.message (.getAddresses .dialable .all) []),
          [.version (hiddenVersion "n"), .getAddresses .dialable .all],
          [.version (hiddenVersion "n"), .getAddresses .dialable .all] ++
            [.addresses (answer host signalId)]) := by
    cbv
  exact .of_queueing? queueing (List.mem_singleton.2 rfl)

/-- With short addresses both are in a frame. -/
def shortSizes : Sizes where
  addresses := 2000
  endpoint := 1800
  netAddress := 64
  one_le_addresses := by decide

theorem asked_reached_short : Reached shortSizes.rules (asked "h" "s") := by
  have own (peerId : String) (short : (hiddenAddress peerId).endpoint.toJson.render.length ≤ 1800) :
      shortSizes.places.Admits (hiddenAddress peerId) :=
    ⟨short, fun _ known => by cases known⟩
  apply Reached.asked
  · refine ⟨⟨own "n" (by decide), ?_, ?_⟩, by decide, by decide⟩
    · intro endpoint entry known
      cases known
    · intro id slot known
      cases known
  · exact fun _ => trivial
  · intro peerId member
    rcases List.mem_cons.1 member with rfl | last
    · exact own "p" (by decide)
    · rw [List.mem_singleton.1 last]
      exact own "g" (by decide)
  · trivial
  · intro address member
    rw [List.mem_singleton.1 member]
    have short : (Endpoint.direct "h" defaultPort).toJson.render.length ≤ 1800 := by decide
    exact ⟨short, fun _ known => by cases known⟩
  · intro address member
    rw [List.mem_singleton.1 member]
    have short : (Endpoint.relayed "s").toJson.render.length ≤ 1800 := by decide
    exact ⟨short, fun _ known => by cases known⟩

theorem queued_addresses_fit_frame_asked :
    Reached shortSizes.rules (asked "h" "s") ∧
      (asked "h" "s").Queues (.message (.getAddresses .dialable .all) [])
        (.addresses (answer "h" "s")) ∧
      ∀ buffer, Frame.encode (.addresses (answer "h" "s")) buffer =
        (.ok (), buffer ++ Frame.wrap (Message.addresses (answer "h" "s")).encode) := by
  have queues := queues_asked "h" "s"
  obtain ⟨_, _, fits⟩ := queued_addresses_fit_frame asked_reached_short queues
  exact ⟨asked_reached_short, queues, fits (by decide)⟩

/-! ## Two long addresses do not fit -/

/-- What comes from outside in a network in which every message has come in a
frame. -/
def framed : Rules where
  manager := fun _ => True
  address := fun _ => True
  netAddress := fun _ => True
  message := fun message => message.encode.length ≤ Frame.maxBodySize
  event := fun _ => True
  part := fun _ => True
  relay := fun _ => True

def longText : String :=
  String.ofList (List.replicate 3000000 'a')

theorem textSize_longText : Json.textSize longText = 3000000 := by
  have one : Json.written 'a' = 1 := by decide
  unfold longText
  rw [Json.textSize_ofList, List.map_replicate, one, List.sum_replicate_nat]

theorem framed_of_endpoint {endpoint : Endpoint}
    (short : endpoint.toJson.render.length ≤ 3000039) :
    framed.message (.addresses [.fresh endpoint .full 0]) := by
  have each : ∀ address ∈ [PeerAddress.fresh endpoint .full 0],
      address.toJson.render.length ≤ 3000200 := by
    intro address member
    have whole := address.length_render_le
    rw [List.mem_singleton.1 member] at whole ⊢
    have absent : (Json.ofOption NetAddress.toJson none).render.length = 4 := by decide
    have written : (PeerAddress.fresh endpoint .full 0).toJson.render.length ≤
        endpoint.toJson.render.length +
          (Json.ofOption NetAddress.toJson none).render.length + 125 := whole
    omega
  have whole := Message.length_encode_addresses_le each
  rw [List.length_singleton] at whole
  exact Nat.le_trans whole (by decide)

theorem asked_reached_framed : Reached framed (asked longText longText) := by
  have long := textSize_longText
  apply Reached.asked
  · trivial
  · exact fun _ => trivial
  · intro peerId member
    show (Message.version (hiddenVersion peerId)).encode.length ≤ Frame.maxBodySize
    rcases List.mem_cons.1 member with rfl | last
    · decide +kernel
    · rw [List.mem_singleton.1 last]
      decide +kernel
  · show (Message.getAddresses .dialable .all).encode.length ≤ Frame.maxBodySize
    decide
  · apply framed_of_endpoint
    have size := (Endpoint.length_render_direct longText defaultPort).2
    omega
  · apply framed_of_endpoint
    have size := (Endpoint.length_render_relayed longText).2
    omega

theorem endpoints_le_length_encode_answer (host : String) (signalId : SignalId) :
    (Endpoint.direct host defaultPort).toJson.render.length +
        (Endpoint.relayed signalId).toJson.render.length ≤
      (Message.addresses (answer host signalId)).encode.length := by
  have parts := Message.sum_le_length_encode_addresses (answer host signalId)
  unfold answer at parts ⊢
  rw [List.map_cons, List.map_cons, List.sum_cons, List.sum_cons, List.map_nil,
    List.sum_nil] at parts
  exact parts

/-- Although every message has come in a frame, an answer may be too large for
one. -/
theorem answer_too_large_for_frame :
    Reached framed (asked longText longText) ∧
      (asked longText longText).Queues (.message (.getAddresses .dialable .all) [])
        (.addresses (answer longText longText)) ∧
      Frame.maxBodySize < (Message.addresses (answer longText longText)).encode.length ∧
      ∀ buffer, Frame.encode (.addresses (answer longText longText)) buffer =
        (.error .tooLarge, buffer) := by
  have long := textSize_longText
  have direct := (Endpoint.length_render_direct longText defaultPort).1
  have relayed := (Endpoint.length_render_relayed longText).1
  have parts := endpoints_le_length_encode_answer longText longText
  have most : Frame.maxBodySize = 4194304 := rfl
  have large : Frame.maxBodySize <
      (Message.addresses (answer longText longText)).encode.length := by omega
  exact ⟨asked_reached_framed, queues_asked longText longText, large,
    Frame.encode_of_lt large⟩

end Network

end PeerOverlay
