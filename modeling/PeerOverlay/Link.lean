import PeerOverlay.Message
import PeerOverlay.Table

/-!
# Links

A link is one connection to another node.  The transport takes the messages
that this node queues and delivers the messages of the other node, through a
bounded queue in each direction.  A link is closed once and for all, and the
first reason given stays.
-/

namespace PeerOverlay

abbrev LinkId := Nat

inductive Direction where
  | inbound
  | outbound
  deriving DecidableEq, Repr

def Direction.name : Direction → String
  | inbound => "inbound"
  | outbound => "outbound"

/-- The most messages that wait in one direction. -/
def queueCapacity : Nat := 256

structure Link where
  id : LinkId
  direction : Direction
  protocol : Protocol
  /-- Where the transport sees the other end. -/
  netAddress : Option NetAddress
  /-- The address that was dialed, or the one that the other node announced. -/
  peerAddress : Option PeerAddress
  /-- Messages that wait for the transport. -/
  outbound : List Message
  /-- Whether the transport still takes messages. -/
  takes : Bool
  /-- Messages that wait for this node. -/
  inbound : List Message
  /-- Whether the transport may still deliver messages. -/
  delivers : Bool
  /-- Whether this node still reads what is delivered. -/
  attended : Bool
  sent : UInt64
  received : UInt64
  closed : Bool
  reason : Option String
  deriving Repr

namespace Link

def opened (id : LinkId) (direction : Direction) (protocol : Protocol)
    (netAddress : Option NetAddress) (peerAddress : Option PeerAddress) : Link where
  id := id
  direction := direction
  protocol := protocol
  netAddress := netAddress
  peerAddress := peerAddress
  outbound := []
  takes := true
  inbound := []
  delivers := true
  attended := true
  sent := 0
  received := 0
  closed := false
  reason := none

/-! ## This node's side -/

def canSend (link : Link) : Bool :=
  !link.closed && link.takes && link.outbound.length < queueCapacity

/-- Queue a message for the transport, if that is possible. -/
def send (link : Link) (message : Message) : Bool × Link :=
  if link.canSend then
    (true, { link with outbound := link.outbound ++ [message] })
  else
    (false, link)

/-- The queue of the transport never holds more than it can. -/
theorem length_outbound_send_le {link : Link} (message : Message)
    (fits : link.outbound.length ≤ queueCapacity) :
    (link.send message).2.outbound.length ≤ queueCapacity := by
  unfold send canSend
  split
  · next possible =>
      simp only [Bool.and_eq_true, decide_eq_true_eq] at possible
      simp only [List.length_append, List.length_singleton]
      omega
  · exact fits

/-- Close the link.  The first reason given stays. -/
def close (link : Link) (reason : String) : Link :=
  { link with closed := true, reason := some (link.reason.getD reason) }

theorem close_close (link : Link) (first second : String) :
    (link.close first).close second = link.close first := rfl

/-- Record the address of the other node, unless it is known. -/
def learnPeer (link : Link) (address : PeerAddress) : Link :=
  { link with peerAddress := some (link.peerAddress.getD address) }

/-- Stop reading; what was delivered is lost. -/
def abandon (link : Link) : Link :=
  { link with attended := false, inbound := [] }

/-! ## The transport's side -/

/-- Deliver a message to this node, if it still reads and there is room. -/
def deliver (link : Link) (message : Message) : Bool × Link :=
  if link.delivers ∧ link.attended ∧ link.inbound.length < queueCapacity then
    (true, { link with inbound := link.inbound ++ [message] })
  else
    (false, link)

def take (link : Link) (count : Nat) : List Message × Link :=
  (link.outbound.take count, { link with outbound := link.outbound.drop count })

/-- The transport is gone: nothing is taken or delivered any more. -/
def drop (link : Link) : Link :=
  { link with takes := false, outbound := [], delivers := false }

def countSent (link : Link) (bytes : UInt64) : Link :=
  { link with sent := link.sent + bytes }

def countReceived (link : Link) (bytes : UInt64) : Link :=
  { link with received := link.received + bytes }

/-- The transport reports the bytes that it has carried, unless it is gone. -/
def report (link : Link) (sent received : UInt64) : Link :=
  if link.takes then (link.countSent sent).countReceived received else link

/-- The transport closes the link without a reason, unless it is gone. -/
def cancel (link : Link) : Link :=
  if link.takes then { link with closed := true } else link

/-! ## Descriptions -/

/-- A link in a few words; a link is known by the given name. -/
def describe (link : Link) (name : String) : String :=
  match link.peerAddress, link.netAddress with
  | some address, _ => "#" ++ name ++ " " ++ address.text
  | none, some netAddress => "#" ++ name ++ " " ++ netAddress.text
  | none, none => "#" ++ name ++ " <pending>"

end Link

abbrev Links := Table LinkId Link

namespace Links

def isOpen (links : Links) (id : LinkId) : Bool :=
  ((links.get? id).map fun link => !link.closed).getD false

def close (links : Links) (id : LinkId) (reason : String) : Links :=
  links.modify id fun link => link.close reason

theorem get?_close (links : Links) (id : LinkId) (reason : String) (tested : LinkId) :
    (links.close id reason).get? tested =
      (links.get? tested).map fun link => if tested = id then link.close reason else link := by
  rw [close, Table.get?_modify]

def closeAll (links : Links) (ids : List LinkId) (reason : String) : Links :=
  ids.foldl (fun links id => links.close id reason) links

theorem get?_closeAll (links : Links) (ids : List LinkId) (reason : String)
    (tested : LinkId) :
    (links.closeAll ids reason).get? tested =
      (links.get? tested).map fun link => if tested ∈ ids then link.close reason else link := by
  induction ids generalizing links with
  | nil => simp [closeAll]
  | cons first rest hypothesis =>
      rw [closeAll, List.foldl_cons, ← closeAll, hypothesis, get?_close, Option.map_map]
      congr 1
      funext link
      by_cases same : tested = first <;> by_cases later : tested ∈ rest <;>
        simp [same, later, Link.close_close]

/-- Queue a message on a link; whether that was possible. -/
def send (links : Links) (id : LinkId) (message : Message) : Bool × Links :=
  match links.get? id with
  | none => (false, links)
  | some link =>
      let (queued, link) := link.send message
      (queued, links.insert id link)

def peerAddress? (links : Links) (id : LinkId) : Option PeerAddress :=
  (links.get? id).bind Link.peerAddress

end Links

end PeerOverlay
