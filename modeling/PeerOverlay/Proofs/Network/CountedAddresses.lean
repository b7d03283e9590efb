import PeerOverlay.Proofs.Manager.CountedAddresses
import PeerOverlay.Proofs.Message.RoundTrip
import PeerOverlay.Proofs.Network.Frames
import PeerOverlay.Proofs.Network.Places

/-!
# Where the keys of a network come from

The network addresses under which the managers of a network count links all come from
outside: from transports, from what peers announce or tell, and from what nodes start
with.  If all of these are usable, then so are the keys.  A peer that announces another
text is counted under that text.
-/

namespace PeerOverlay

open Manager (Part)

/-! ## Places -/

namespace Places

variable (places : Places)

/-- Whether a manager counts links at given places only, and at physical ones. -/
def Counts (manager : Manager) : Prop :=
  ∀ netAddress, manager.connectionCounts.contains netAddress →
    places.netAddress netAddress ∧ netAddress.isPseudo = false

/-- What is found in a network that knows of given places only. -/
def rules : Network.Rules where
  manager := fun manager => places.Knows manager ∧ places.Counts manager
  address := places.Admits
  netAddress := places.netAddress
  message := places.Carries
  event := places.Tells
  part := places.Leaves
  relay := fun addresses => ∀ address ∈ addresses, places.Admits address

variable {places}

namespace Counts

variable {before after : Manager}

theorem new (config : Config) (book : AddressBook) : places.Counts (.new config book) := by
  intro netAddress counted
  exact absurd counted Bool.false_ne_true

theorem fewer (counts : places.Counts before) (fewer : Manager.Fewer before after) :
    places.Counts after :=
  fun netAddress counted => counts netAddress (fewer.counts counted)

theorem kept (counts : places.Counts before) (same : Manager.SameSeats before after) :
    places.Counts after :=
  counts.fewer (.of_seats same)

/-- What is newly counted is at one of the places. -/
theorem counted (counts : places.Counts before) {netAddress : Option NetAddress}
    (admits : ∀ own, netAddress = some own → places.netAddress own)
    (same : after.connectionCounts =
      ((Manager.countable netAddress).elim before before.count).connectionCounts) :
    places.Counts after := by
  intro tested counted
  rw [same] at counted
  rcases (Manager.contains_elim_count before _ tested).1 counted with own | earlier
  · obtain ⟨known, physical⟩ := Manager.isPseudo_of_countable own
    exact ⟨admits tested known, physical⟩
  · exact counts tested earlier

end Counts

/-- No part of a reaction makes up places to count at. -/
theorem Counts.performed {turn : Manager.Turn} (counts : places.Counts turn.manager)
    (knows : places.Knows turn.manager) (ends : places.EndsAll turn.links) {part : Part}
    (leaves : places.Leaves part) (around : Manager.Surroundings) :
    places.Counts (part.perform around turn).manager := by
  cases part.brings around turn with
  | nothing fewer => exact counts.fewer fewer
  | link id link handed known slots same =>
      exact counts.counted (ends id link known).netAddress same
  | peer peer slot announced known admitted slots same =>
      rw [announced] at leaves
      have located := (knows.slots peer.link slot known).locate leaves
      by_cases counted : slot.countedUnder.isSome
      · rw [Manager.Slot.uncounted, if_pos counted] at same
        intro tested stored
        rw [same] at stored
        exact counts tested stored
      · rw [Manager.Slot.uncounted, if_neg counted] at same
        exact counts.counted located.netAddress same

/-! ## The custom -/

/-- To know of given places only is a custom. -/
def custom (places : Places) : Network.Custom where
  toRules := places.rules
  speaks := by
    intro owner around task said holds reads inTask speaks
    apply carries_of_spoken holds.1 reads _ speaks
    rintro addresses others rfl
    exact inTask
  tells := by
    intro owner around id task told _ _ inTask known tells
    apply tells_of_told _ known tells
    rintro addresses others rfl
    exact inTask
  completes := fun holds admits => admits_completed holds.1 admits
  takes := by
    intro turn taken holds tells
    obtain ⟨knows, leaves⟩ := holds.1.taken tells
    refine ⟨⟨knows, ?_⟩, leaves⟩
    cases taken with
    | addresses link told => exact holds.2.kept (.learned link told turn)
    | _ => exact holds.2
  performs := by
    intro around turn part holds onLinks leaves
    have ends : places.EndsAll turn.links :=
      endsAll onLinks (fun _ admits => admits) (fun _ admits => admits)
    exact ⟨holds.1.performed ends leaves around, holds.2.performed holds.1 ends leaves around⟩
  follows := fun _ _ _ => trivial
  relays := fun holds leaves relays => admits_relayed holds.1 leaves relays
  obeys := by
    intro around turn control holds asked
    have followed := Manager.followed_follow around control turn
    refine ⟨holds.1.followed ?_ followed, holds.2.kept (.followed followed)⟩
    rintro address rfl
    exact asked
  checks := ⟨trivial, trivial⟩

end Places

namespace Network

/-! ## Keys -/

/-- In every state that a network can reach, links are counted under network addresses
that came from outside. -/
theorem counted_came_from_outside {places : Places} {network : Network}
    (reached : Reached places.rules network) {node : NodeName} {member : Member}
    (known : network.members.get? node = some member) : places.Counts member.manager := by
  have keeps : Keeps places.custom.toRules network := Reached.keeps reached
  exact (keeps.members node member known).manager.2

/-- The places with the placeholder and canonical addresses only. -/
def usable : Places where
  endpoint := fun _ => True
  netAddress := fun netAddress => netAddress = .unknown ∨ netAddress.Canonical

/-- If only usable network addresses come from outside, then all keys are canonical. -/
theorem keysCanonical_of_usable {network : Network} (reached : Reached usable.rules network)
    {node : NodeName} {member : Member} (known : network.members.get? node = some member) :
    member.manager.KeysCanonical := by
  intro netAddress counted
  obtain ⟨came, physical⟩ := counted_came_from_outside reached known netAddress counted
  rcases came with unknown | canonical
  · rw [unknown] at physical
    exact absurd physical (by decide)
  · exact canonical

/-! ## A text that is no address -/

/-- What comes from outside if managers are new, transports see parsed addresses, the
placeholder or nothing, and every message has been read. -/
def decoded : Rules where
  manager := fun manager => ∃ config book, manager = .new config book
  address := fun _ => True
  netAddress := NetAddress.Seen
  message := fun message => ∃ bytes, Message.decode? bytes = some message
  event := fun event => ∃ link, event = .connection link
  part := fun _ => False
  relay := fun _ => False

/-- A peer has come through a link without a network address, and has announced a text as
its own one. -/
def claimed (text : String) : Network :=
  let network := ((Network.empty 0).join "n" (.new hiddenManager ⟨"", 0, 0⟩ .none)).run "n"
  let network := network.openLink (.opened 1 .inbound .relayed none none)
  let network := network.handOver "n" 1
  let network := network.actAll [.manager "n", .manager "n", .agent 1]
  let network := (network.deliver 1 (.version (Manager.versionAt text))).2
  network.actAll [.agent 1, .manager "n", .manager "n"]

theorem claimed_reached (text : String) : Reached decoded (claimed text) := by
  have empty : Reached decoded (.empty 0) := .empty 0
  have started := (empty.joined "n" hiddenManager ⟨"", 0, 0⟩ .none ⟨_, _, rfl⟩).started "n"
  have onLink : decoded.OnLink (.opened 1 .inbound .relayed none none) :=
    ⟨fun _ member => absurd member List.not_mem_nil,
      fun _ member => absurd member List.not_mem_nil,
      (fun _ known => by cases known), (fun _ known => by cases known)⟩
  have handed := (started.opened _ onLink).handed "n" 1 ⟨1, rfl⟩
  have read : decoded.message (.version (Manager.versionAt text)) :=
    ⟨_, Message.decode?_encode _⟩
  exact ((handed.actAll _).delivered 1 _ read).actAll _

/-- The number of links that a node counts under a network address. -/
def countedAt (network : Network) (node : NodeName) (netAddress : NetAddress) : Option Nat :=
  (network.members.get? node).bind fun member =>
    member.manager.connectionCounts.get? netAddress

/-- A peer that announces a text that is no address is counted under it. -/
theorem nowhere_is_counted :
    Reached decoded (claimed "nowhere") ∧
      (claimed "nowhere").countedAt "n" (.ip "nowhere") = some 1 ∧
        ¬ (NetAddress.ip "nowhere").Canonical := by
  refine ⟨claimed_reached "nowhere", by decide, ?_⟩
  rintro ⟨text, same, sane⟩
  rw [← NetAddress.ip.inj same] at sane
  exact absurd sane (by decide)

end Network

end PeerOverlay
