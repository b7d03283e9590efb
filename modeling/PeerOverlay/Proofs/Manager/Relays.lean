import PeerOverlay.Proofs.Manager.Effects

/-!
# What a manager has passed on

Only two parts of a reaction have agents pass addresses on: addresses that are
to be relayed, and a peer that has announced itself.  There are never more of
them than the configuration allows.
-/

namespace PeerOverlay.Manager

/-- The addresses that an agent is to pass on. -/
def Effect.relay? : Effect → Option (List PeerAddress)
  | .relay _ addresses => some addresses
  | _ => none

/-- What agents are to pass on when a part of a reaction is done. -/
inductive Part.Relays (manager : Manager) : Part → List PeerAddress → Prop where
  | relayed (source : LinkId) (addresses : List PeerAddress)
      (few : addresses.length ≤ manager.config.relayBatchMax) :
      Relays manager (.relay source addresses) addresses
  | joined (peer : Peer) (slot : Slot) (known : manager.slots.get? peer.link = some slot)
      (few : 1 ≤ manager.config.relayBatchMax) :
      Relays manager (.handshake peer) [(slot.locate peer).address]

/-- What agents are to pass on after a turn. -/
def Turn.relays (turn : Turn) : List (List PeerAddress) :=
  turn.effects.filterMap Effect.relay?

theorem Effect.OfAttempt.relay?_eq_none {address : PeerAddress} {effect : Effect}
    (own : effect.OfAttempt address) : effect.relay? = none := by
  cases own <;> rfl

theorem Part.Emits.relays {manager : Manager} {part : Part} {effect : Effect}
    {passed : List PeerAddress} (emits : part.Emits manager effect)
    (relayed : effect.relay? = some passed) : part.Relays manager passed := by
  cases emits with
  | relay source other addresses different few =>
      rw [← Option.some.inj relayed]
      exact .relayed source addresses few
  | introduce peer slot other known different few =>
      rw [← Option.some.inj relayed]
      exact .joined peer slot known few
  | attempt address effect wanted own =>
      rw [own.relay?_eq_none] at relayed
      exact absurd relayed (Option.some_ne_none passed).symm
  | _ => exact absurd relayed (Option.some_ne_none passed).symm

variable {around : Surroundings}

theorem mem_relays_perform {part : Part} {passed : List PeerAddress} {turn : Turn}
    (member : passed ∈ (part.perform around turn).relays) :
    passed ∈ turn.relays ∨ part.Relays turn.manager passed := by
  refine ((adds_perform around part turn).mem_filterMap member).imp id ?_
  rintro ⟨effect, emits, relayed⟩
  exact emits.relays relayed

theorem relays_take (event : Event) (turn : Turn) : (take event turn).2.relays = turn.relays := by
  cases event <;> rfl

theorem relays_follow (control : Control) (turn : Turn) :
    (follow around control turn).2.relays = turn.relays := by
  apply (adds_follow around control turn).filterMap_eq
  rintro effect ⟨address, own⟩
  exact own.relay?_eq_none

end PeerOverlay.Manager
