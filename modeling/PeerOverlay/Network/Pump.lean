import PeerOverlay.Message.Encoding
import PeerOverlay.Frame
import PeerOverlay.Link

/-!
# Pumps

Two links that are joined to each other have a pump in each direction, which
moves messages from the one link to the other until either is closed.  A pump
waits with a message for which there is no room.
-/

namespace PeerOverlay.Network

structure Pump where
  target : LinkId
  /-- A message that was taken but not delivered. -/
  held : Option Message
  deriving Repr

inductive Pump.Move where
  | take (message : Message) (others : List Message)
  | deliver (message : Message)
  | finish
  deriving Repr

/-- What a pump between two links does next, if there is anything to do. -/
def Pump.next? (pump : Pump) (source target : Link) : Option Pump.Move :=
  match pump.held with
  | some message =>
      if !target.attended then
        some .finish
      else if target.inbound.length < queueCapacity then
        some (.deliver message)
      else
        none
  | none =>
      if source.closed || target.closed then
        some .finish
      else
        match source.outbound with
        | message :: others => some (.take message others)
        | [] => none

/-- Two links and the pump from the one to the other, if it still runs. -/
structure Pump.Turn where
  pump : Option Pump
  source : Link
  target : Link

/-- Do what comes next.  Both ends count the bytes that a message has on a
stream. -/
def Pump.perform (pump : Pump) (source target : Link) : Pump.Move → Pump.Turn
  | .take message others =>
      let bytes := UInt64.ofNat message.wireSize
      {
        pump := some { pump with held := some message }
        source := { source.countSent bytes with outbound := others }
        target := target.countReceived bytes
      }
  | .deliver message =>
      {
        pump := some { pump with held := none }
        source := source
        target := { target with inbound := target.inbound ++ [message] }
      }
  | .finish =>
      {
        pump := none
        source := { source with takes := false, outbound := [] }
        target := { target with delivers := false }
      }

end PeerOverlay.Network
