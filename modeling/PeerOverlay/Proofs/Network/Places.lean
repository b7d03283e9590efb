import PeerOverlay.Proofs.Agent.Says
import PeerOverlay.Proofs.Manager.Places
import PeerOverlay.Proofs.Manager.Relays
import PeerOverlay.Proofs.Network.Customs

/-!
# Places in messages

What agents say and tell is made of the endpoints and network addresses that their
managers and peers know of.
-/

namespace PeerOverlay.Places

open Manager (Part)

variable {places : Places}

/-- Whether the addresses in a message are made of given places. -/
def Carries (places : Places) : Message → Prop
  | .version version => places.Admits version.peerAddress
  | .addresses told => ∀ address ∈ told, places.Admits address
  | _ => True

theorem carries_of_spoken {around : Agent.Surroundings} {task : Agent.Task} {said : Message}
    {owner : Manager} (knows : places.Knows owner) (reads : around.Reads owner)
    (relayed : ∀ addresses others, task = .relay addresses others →
      ∀ address ∈ addresses, places.Admits address)
    (speaks : Agent.Says around task said) : places.Carries said := by
  have own : places.Admits around.config.peerAddress := by
    rw [reads.config]
    exact knows.own
  cases speaks with
  | version => exact own
  | answer protocols services told stored few =>
      intro address member
      have answers := stored.subset member
      rw [reads.book] at answers
      exact knows.book.query answers
  | passOn addresses told others asked among =>
      intro address member
      exact relayed addresses others asked address (among.subset member)
  | announce =>
      intro address member
      rw [List.mem_singleton.1 member]
      exact ⟨own.endpoint, own.netAddress⟩
  | _ => trivial

theorem tells_of_told {around : Agent.Surroundings} {id : LinkId} {task : Agent.Task}
    {told : Event}
    (heard : ∀ addresses others, task = .message (.addresses addresses) others →
      ∀ address ∈ addresses, places.Admits address)
    (known : ∀ peer, told.handshake? = some peer → places.Admits peer.address)
    (tells : Agent.Tells around id task told) : places.Tells told := by
  cases tells with
  | handshake peer => exact known peer rfl
  | addresses addresses others came few => exact heard addresses others came
  | _ => trivial

theorem admits_completed {owner : Manager} (knows : places.Knows owner) {version : Version}
    (admits : places.Admits version.peerAddress) :
    places.Admits (Agent.completed owner.book version.peerAddress) := by
  refine ⟨admits.endpoint, netAddress_of_orElse admits.netAddress ?_⟩
  intro netAddress known
  obtain ⟨stored, found, own⟩ := Option.bind_eq_some_iff.1 known
  exact (knows.book.stored found).netAddress netAddress own

theorem admits_relayed {owner : Manager} {part : Part} {addresses : List PeerAddress}
    (knows : places.Knows owner) (leaves : places.Leaves part)
    (relays : part.Relays owner addresses) : ∀ address ∈ addresses, places.Admits address := by
  cases relays with
  | relayed source addresses few => exact leaves
  | joined peer slot known few =>
      intro address member
      rw [List.mem_singleton.1 member]
      exact (knows.slots peer.link slot known).locate leaves

/-- Links on which only given places are found end there. -/
theorem endsAll {rules : Network.Rules} {links : Links} (onLinks : rules.OnLinks links)
    (address : ∀ address, rules.address address → places.Admits address)
    (netAddress : ∀ netAddress, rules.netAddress netAddress → places.netAddress netAddress) :
    places.EndsAll links := by
  intro id link known
  have onLink := onLinks id link known
  exact ⟨fun own same => address own (onLink.peerAddress own same),
    fun own same => netAddress own (onLink.netAddress own same)⟩

end PeerOverlay.Places
