import PeerOverlay.Table
import PeerOverlay.PeerAddress

/-!
# Forwarded signals

A node remembers the signals that it passed on, so that a signal that comes
back can be told from one that it never saw.  The oldest forward makes place
for a new one, and forwards that are too old are dropped when one of them is
asked for.
-/

namespace PeerOverlay

/-- What tells one forwarded signal from another. -/
structure ForwardedSignal where
  senderId : SignalId
  recipientId : SignalId
  nonce : UInt32
  deriving DecidableEq, Repr

/-- The forwards that are remembered, and when each was last seen. -/
structure ForwardStore where
  capacity : Nat
  maxAge : Nat
  queue : List ForwardedSignal
  lastSeen : Table ForwardedSignal Nat

namespace ForwardStore

/-- A store has room for at least one forward. -/
def withLimits (capacity maxAge : Nat) : ForwardStore where
  capacity := max capacity 1
  maxAge := maxAge
  queue := []
  lastSeen := .empty

def defaultCapacity : Nat := 1000
def defaultMaxAge : Nat := 10000

def empty : ForwardStore :=
  withLimits defaultCapacity defaultMaxAge

def size (store : ForwardStore) : Nat :=
  store.queue.length

def contains (store : ForwardStore) (signal : ForwardedSignal) : Bool :=
  store.lastSeen.contains signal

/-- Forget the oldest forward if there is no room for another one. -/
def makeRoom (store : ForwardStore) : ForwardStore :=
  if store.queue.length < store.capacity then
    store
  else
    match store.queue with
    | [] => store
    | oldest :: rest =>
        { store with queue := rest, lastSeen := store.lastSeen.erase oldest }

def add (store : ForwardStore) (signal : ForwardedSignal) (now : Nat) : ForwardStore :=
  if store.contains signal then
    { store with
      queue := store.queue.filter (· ≠ signal) ++ [signal]
      lastSeen := store.lastSeen.insert signal now }
  else
    let store := store.makeRoom
    { store with
      queue := store.queue ++ [signal]
      lastSeen := store.lastSeen.insert signal now }

theorem get?_add_self (store : ForwardStore) (signal : ForwardedSignal) (now : Nat) :
    (store.add signal now).lastSeen.get? signal = some now := by
  unfold add
  split <;> simp [Table.get?_insert]

/-- Forget forwards from the oldest one up to the given one. -/
def purge (signal : ForwardedSignal) :
    List ForwardedSignal → Table ForwardedSignal Nat →
      List ForwardedSignal × Table ForwardedSignal Nat
  | [], lastSeen => ([], lastSeen)
  | oldest :: rest, lastSeen =>
      if oldest = signal then
        (rest, lastSeen.erase oldest)
      else
        purge signal rest (lastSeen.erase oldest)

/-- Whether a forward was seen less than the greatest age ago.  One that is too
old is forgotten together with all older ones. -/
def wasRecentlyForwarded (store : ForwardStore) (signal : ForwardedSignal) (now : Nat) :
    Bool × ForwardStore :=
  match store.lastSeen.get? signal with
  | none => (false, store)
  | some seen =>
      if now - seen < store.maxAge then
        (true, store)
      else
        let (queue, lastSeen) := purge signal store.queue store.lastSeen
        (false, { store with queue := queue, lastSeen := lastSeen })

end ForwardStore

end PeerOverlay
