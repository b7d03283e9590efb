import PeerOverlay.Network.Act

/-!
# Moves of a pump

A pump may notice late that a link is closed: it goes on with what it holds and with what
waits.  What it does next by itself is one of these moves, and it stops for a reason only.
A move changes the two links of the pump and the pump itself.
-/

namespace PeerOverlay.Network

/-- What a pump may do between two links.  It may come to its end at any time, since it may
notice late that a link is closed or be stopped. -/
inductive Pump.May (pump : Pump) (source target : Link) : Pump.Move → Prop where
  | take (message : Message) (others : List Message) (free : pump.held = none)
      (waits : source.outbound = message :: others) : May pump source target (.take message others)
  | deliver (message : Message) (holds : pump.held = some message)
      (reads : target.attended = true) (room : target.inbound.length < queueCapacity) :
      May pump source target (.deliver message)
  | finish : May pump source target .finish

/-- Whether a pump between two links has a reason to come to its end. -/
def Severed (source target : Link) : Prop :=
  source.closed = true ∨ target.closed = true ∨ target.attended = false

/-- A pump does only what it may do, and it does not come to its end without a reason. -/
theorem Pump.may_of_next? {pump : Pump} {source target : Link} {move : Pump.Move}
    (next : pump.next? source target = some move) :
    pump.May source target move ∧ (move = .finish → Severed source target) := by
  unfold Pump.next? at next
  split at next
  · next message holds =>
      split at next
      · next unattended =>
          cases next
          exact ⟨.finish, fun _ => .inr (.inr (by simpa using unattended))⟩
      · next reads =>
          split at next
          · next room =>
              cases next
              exact ⟨.deliver message holds (by simpa using reads) room, nofun⟩
          · cases next
  · next free =>
      split at next
      · next closed =>
          cases next
          rw [Bool.or_eq_true] at closed
          exact ⟨.finish, fun _ => closed.imp_right .inl⟩
      · split at next
        · next message others waits =>
            cases next
            exact ⟨.take message others free waits, nofun⟩
        · cases next

/-- A network after a move of a pump. -/
def afterMove (network : Network) (id : LinkId) (pump : Pump) (source target : Link)
    (move : Pump.Move) : Network :=
  let turn := pump.perform source target move
  { network with
    links := (network.links.insert id turn.source).insert pump.target turn.target
    pumps :=
      match turn.pump with
      | none => network.pumps.erase id
      | some pump => network.pumps.insert id pump }

theorem actPump_eq (network : Network) (id : LinkId) (pump : Pump) (source target : Link) :
    network.actPump id pump source target =
      (pump.next? source target).elim network (network.afterMove id pump source target) := by
  unfold actPump
  cases pump.next? source target <;> rfl

theorem afterMove_source {network : Network} {id : LinkId} {pump : Pump} {source target : Link}
    {move : Pump.Move} (different : id ≠ pump.target) :
    (network.afterMove id pump source target move).links.get? id =
      some (pump.perform source target move).source := by
  unfold afterMove
  dsimp only
  rw [Table.get?_insert, if_neg different.symm, Table.get?_insert, if_pos rfl]

theorem afterMove_target {network : Network} {id : LinkId} {pump : Pump} {source target : Link}
    {move : Pump.Move} :
    (network.afterMove id pump source target move).links.get? pump.target =
      some (pump.perform source target move).target := by
  unfold afterMove
  dsimp only
  rw [Table.get?_insert, if_pos rfl]

theorem get?_pumps_afterMove (network : Network) (id : LinkId) (pump : Pump)
    (source target : Link) (move : Pump.Move) (tested : LinkId) :
    (network.afterMove id pump source target move).pumps.get? tested =
      if id = tested then (pump.perform source target move).pump
      else network.pumps.get? tested := by
  unfold afterMove
  dsimp only
  cases (pump.perform source target move).pump with
  | none => exact Table.get?_erase _ _ _
  | some moved => exact Table.get?_insert _ _ _ _

end PeerOverlay.Network
