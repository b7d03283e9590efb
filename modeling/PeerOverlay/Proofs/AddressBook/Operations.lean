import Mathlib.Data.List.Induction
import PeerOverlay.Proofs.AddressBook.News

/-!
# Histories of an address book

The book of a node is empty at first, and knows the address of the node or not.  What it holds
later is the outcome of the operations on it, in any order and with any arguments.
-/

namespace PeerOverlay.AddressBook

/-- What is done to an address book. -/
inductive Operation where
  | add (address : PeerAddress)
  | markConnecting (address : PeerAddress)
  | markConnected (link : LinkId) (address : PeerAddress)
  | markDisconnected (link : LinkId)
  | markUnreachable (address : PeerAddress)
  | markUnroutable (link : LinkId) (signalId : SignalId)
  | ban (address : PeerAddress) (now : Nat)
  | ingest (link : LinkId) (addresses : List PeerAddress)

def Operation.apply (operation : Operation) (book : AddressBook) : AddressBook :=
  match operation with
  | add address => (book.add address).2
  | markConnecting address => book.markConnecting address
  | markConnected link address => book.markConnected link address
  | markDisconnected link => book.markDisconnected link
  | markUnreachable address => book.markUnreachable address
  | markUnroutable link signalId => book.markUnroutable link signalId
  | ban address now => book.ban address now
  | ingest link addresses => (book.ingest link addresses).2

/-- The book of a node at first, which knows the address of the node or not. -/
def blank (localEndpoint : Option Endpoint) : AddressBook :=
  localEndpoint.elim empty withLocal

/-- The book of a node after some operations. -/
def after (localEndpoint : Option Endpoint) (operations : List Operation) : AddressBook :=
  operations.foldl (fun book operation => operation.apply book) (blank localEndpoint)

variable (localEndpoint : Option Endpoint)

@[simp]
theorem after_nil : after localEndpoint [] = blank localEndpoint := rfl

theorem after_concat (earlier : List Operation) (operation : Operation) :
    after localEndpoint (earlier ++ [operation]) =
      operation.apply (after localEndpoint earlier) :=
  List.foldl_append

theorem routes_blank : (blank localEndpoint).routes = .empty := by
  cases localEndpoint <;> rfl

theorem localEndpoint_blank : (blank localEndpoint).localEndpoint = localEndpoint := by
  cases localEndpoint <;> rfl

/-! ## The address of the node -/

theorem localEndpoint_markDisconnected (book : AddressBook) (link : LinkId) :
    (book.markDisconnected link).localEndpoint = book.localEndpoint := by
  unfold markDisconnected
  split <;> rfl

theorem localEndpoint_markUnroutable (book : AddressBook) (link : LinkId)
    (signalId : SignalId) :
    (book.markUnroutable link signalId).localEndpoint = book.localEndpoint := by
  unfold markUnroutable
  split <;> rfl

theorem localEndpoint_ingest (book : AddressBook) (link : LinkId)
    (addresses : List PeerAddress) :
    (book.ingest link addresses).2.localEndpoint = book.localEndpoint := by
  unfold ingest
  generalize addresses.take maxAddressesPerMessage = heard
  induction heard generalizing book with
  | nil => rfl
  | cons address rest hypothesis =>
      exact (hypothesis _).trans (localEndpoint_ingestOne book link address)

theorem Operation.localEndpoint_apply (operation : Operation) (book : AddressBook) :
    (operation.apply book).localEndpoint = book.localEndpoint := by
  cases operation with
  | add address =>
      show (book.add address).2.localEndpoint = _
      unfold AddressBook.add
      split <;> rfl
  | markConnecting address => rfl
  | markConnected link address => rfl
  | markDisconnected link => exact localEndpoint_markDisconnected book link
  | markUnreachable address => rfl
  | markUnroutable link signalId => exact localEndpoint_markUnroutable book link signalId
  | ban address now => rfl
  | ingest link addresses => exact localEndpoint_ingest book link addresses

/-- No operation changes which address a book takes for that of its node. -/
theorem localEndpoint_after (operations : List Operation) :
    (after localEndpoint operations).localEndpoint = localEndpoint := by
  induction operations using List.reverseRecOn with
  | nil => exact localEndpoint_blank localEndpoint
  | append_singleton earlier operation hypothesis =>
      rw [after_concat, operation.localEndpoint_apply, hypothesis]

/-! ## Addresses that are known -/

/-- No operation forgets an address. -/
theorem Operation.knows_apply (operation : Operation) {book : AddressBook}
    {address : PeerAddress} (knows : book.Knows address) :
    (operation.apply book).Knows address := by
  cases operation with
  | add other =>
      show (book.add other).2.Knows address
      unfold AddressBook.add
      split
      · exact knows
      · unfold Knows find?
        rw [Table.get?_insert]
        split
        · rfl
        · exact knows
  | markConnecting other => exact knows.markConnecting other
  | markConnected link other => exact knows.markConnected link other
  | markDisconnected link => exact knows.markDisconnected link
  | markUnreachable other => exact knows.markUnreachable other
  | markUnroutable link signalId => exact knows.markUnroutable link signalId
  | ban other now => exact knows.ban other now
  | ingest link addresses => exact knows.ingest link addresses

end PeerOverlay.AddressBook
