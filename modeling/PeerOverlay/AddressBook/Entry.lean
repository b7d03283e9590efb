import PeerOverlay.AddressBook.Weight
import PeerOverlay.Link

/-!
# What an address book knows of an address

An entry holds the address with its latest news, where the connection to it
stands, and how often connecting was tried and failed.
-/

namespace PeerOverlay.AddressBook

/-- Where the connection to an address stands. -/
inductive Standing where
  | new
  | connecting
  | connected
  | failed
  | banned
  deriving DecidableEq, Repr

def Standing.name : Standing → String
  | new => "New"
  | connecting => "Connecting"
  | connected => "Connected"
  | failed => "Failed"
  | banned => "Banned"

/-- Failures after which an address is not dialed again. -/
def maxFailures : Nat := 3

/-- How long a ban holds, in milliseconds. -/
def banDuration : Nat := 600000

/-- Relayed addresses that are further away are not stored. -/
def maxDistance : UInt8 := 4

/-- An address and what is known of it. -/
structure Entry where
  address : PeerAddress
  standing : Standing
  attempts : Nat
  /-- Failures since the last success. -/
  failures : Nat
  bannedUntil : Option Nat
  /-- The link to the peer, if it is connected. -/
  link : Option LinkId
  deriving Repr

namespace Entry

def ofAddress (address : PeerAddress) : Entry where
  address := address
  standing := .new
  attempts := 0
  failures := 0
  bannedUntil := none
  link := none

/-- Too many failures to try again. -/
def isTerrible (entry : Entry) : Bool :=
  maxFailures ≤ entry.failures

def isBanned (entry : Entry) (now : Nat) : Bool :=
  match entry.standing, entry.bannedUntil with
  | .banned, some until_ => now < until_
  | _, _ => false

def weight (entry : Entry) : Weight :=
  .ofCounts entry.attempts entry.failures

/-! ## Transitions -/

def dialed (entry : Entry) : Entry :=
  { entry with standing := .connecting, attempts := entry.attempts + 1 }

/-- The peer is connected through a link and has announced an address. -/
def connected (entry : Entry) (link : LinkId) (announced : PeerAddress) : Entry :=
  { entry with
    standing := .connected
    failures := 0
    link := some link
    address :=
      { entry.address with
        timestamp :=
          if entry.address.timestamp < announced.timestamp then announced.timestamp
          else entry.address.timestamp
        netAddress := announced.netAddress.orElse fun _ => entry.address.netAddress } }

def disconnected (entry : Entry) : Entry :=
  { entry with
    standing := if entry.standing = .connected then .new else entry.standing
    link := none }

/-- Connecting has failed.  A ban stays as it is. -/
def unreached (entry : Entry) : Entry :=
  if entry.standing = .banned then
    entry
  else
    { entry with standing := .failed, failures := entry.failures + 1, link := none }

def bannedTo (entry : Entry) (moment : Nat) : Entry :=
  { entry with standing := .banned, bannedUntil := some moment }

def heard (entry : Entry) (news : PeerAddress) : Entry :=
  { entry with
    address :=
      { entry.address with
        timestamp :=
          if entry.address.timestamp < news.timestamp then news.timestamp
          else entry.address.timestamp
        netAddress := entry.address.netAddress.orElse fun _ => news.netAddress
        distance :=
          if news.distance < entry.address.distance then news.distance
          else entry.address.distance } }

/-! ## Endpoints -/

/-- Whether a transition leaves every address at its endpoint. -/
def KeepsEndpoint (step : Entry → Entry) : Prop :=
  ∀ entry, (step entry).address.endpoint = entry.address.endpoint

theorem keepsEndpoint_dialed : KeepsEndpoint dialed := fun _ => rfl

theorem keepsEndpoint_connected (link : LinkId) (announced : PeerAddress) :
    KeepsEndpoint fun entry => entry.connected link announced := fun _ => rfl

theorem keepsEndpoint_disconnected : KeepsEndpoint disconnected := fun _ => rfl

theorem keepsEndpoint_unreached : KeepsEndpoint unreached := by
  intro entry
  unfold unreached
  split <;> rfl

theorem keepsEndpoint_bannedTo (moment : Nat) :
    KeepsEndpoint fun entry => entry.bannedTo moment := fun _ => rfl

theorem keepsEndpoint_heard (news : PeerAddress) :
    KeepsEndpoint fun entry => entry.heard news := fun _ => rfl

end Entry

end PeerOverlay.AddressBook
