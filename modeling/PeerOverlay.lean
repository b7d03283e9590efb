import PeerOverlay.Bootstrap
import PeerOverlay.Config.Setting
import PeerOverlay.Link.Details
import PeerOverlay.Main
import PeerOverlay.Network.Control
import PeerOverlay.Node
import PeerOverlay.Proofs.AddressBook.Standing
import PeerOverlay.Proofs.Table.Count
import PeerOverlay.Proofs.Manager.Turn
import PeerOverlay.Proofs.Manager.Run
import PeerOverlay.Proofs.Manager.Attempts
import PeerOverlay.Proofs.Manager.Slots
import PeerOverlay.Proofs.Manager.PeerLimit
import PeerOverlay.Proofs.Manager.LinkCounts
import PeerOverlay.Proofs.Manager.LivePeers
import PeerOverlay.Proofs.AddressBook.Connected
import PeerOverlay.Proofs.Manager.Mirror
import PeerOverlay.Proofs.Agent.Exchange
import PeerOverlay.Proofs.Agent.Run
import PeerOverlay.Proofs.Agent.Handshake
import PeerOverlay.Proofs.Manager.Signals
import PeerOverlay.Proofs.Manager.Effects
import PeerOverlay.Proofs.Manager.Containment
import PeerOverlay.Proofs.Manager.SignalLine
import PeerOverlay.Proofs.Manager.Switches
import PeerOverlay.Proofs.Manager.AutoConnect
import PeerOverlay.Proofs.Network.Budget
import PeerOverlay.Proofs.Agent.Signals
import PeerOverlay.Proofs.Network.Signals
import PeerOverlay.Proofs.Network.Order
import PeerOverlay.Proofs.Network.Flood
import PeerOverlay.Proofs.AddressBook.Bans
import PeerOverlay.Proofs.Manager.Bans
import PeerOverlay.Proofs.Agent.Says
import PeerOverlay.Proofs.Manager.Relays
import PeerOverlay.Proofs.Network.Customs
import PeerOverlay.Proofs.Network.Honesty
import PeerOverlay.Proofs.AddressBook.Places
import PeerOverlay.Proofs.Manager.Places
import PeerOverlay.Proofs.Message.Size
import PeerOverlay.Proofs.Network.Frames
import PeerOverlay.Proofs.Agent.Lasting
import PeerOverlay.Proofs.Manager.Arrivals
import PeerOverlay.Proofs.Network.Agreement
import PeerOverlay.Proofs.Frame.Stream
import PeerOverlay.Proofs.Text.Pieces
import PeerOverlay.Proofs.Text.Flags
import PeerOverlay.Proofs.Json.RoundTrip
import PeerOverlay.Proofs.Message.RoundTrip
import PeerOverlay.Proofs.Manager.Intake
import PeerOverlay.Proofs.Manager.PeersPerIp
import PeerOverlay.Proofs.Ip.Canonical
import PeerOverlay.Proofs.Manager.CountedAddresses
import PeerOverlay.Proofs.Manager.CountedPeers
import PeerOverlay.Proofs.Manager.Offline
import PeerOverlay.Proofs.Network.Places
import PeerOverlay.Proofs.Network.CountedAddresses
import PeerOverlay.Proofs.Manager.PeerNews
import PeerOverlay.Proofs.Manager.Traffic
import PeerOverlay.Proofs.AddressBook.Entries
import PeerOverlay.Proofs.AddressBook.Links
import PeerOverlay.Proofs.Manager.Books
import PeerOverlay.Proofs.Manager.Residue
import PeerOverlay.Proofs.Manager.Connecting
import PeerOverlay.Proofs.ForwardStore.History
import PeerOverlay.Proofs.AddressBook.Routes
import PeerOverlay.Proofs.Manager.Forwards
import PeerOverlay.Proofs.Manager.Feedback
import PeerOverlay.Proofs.Manager.Detours
import PeerOverlay.Proofs.Network.Pipes
import PeerOverlay.Proofs.Manager.Refusals
import PeerOverlay.Proofs.Agent.Course
import PeerOverlay.Proofs.Agent.Opening
import PeerOverlay.Proofs.Agent.Gossip
import PeerOverlay.Proofs.Agent.Throttle
import PeerOverlay.Proofs.Agent.Losses
import PeerOverlay.Proofs.Agent.Pings
import PeerOverlay.Proofs.Agent.Deadline
import PeerOverlay.Proofs.Agent.Ending
import PeerOverlay.Proofs.Manager.Rumours
import PeerOverlay.Proofs.AddressBook.News
import PeerOverlay.Proofs.AddressBook.Operations
import PeerOverlay.Proofs.AddressBook.RouteTable
import PeerOverlay.Proofs.AddressBook.OwnAddress
import PeerOverlay.Proofs.AddressBook.Patience
import PeerOverlay.Proofs.Manager.Rechecks
import PeerOverlay.Proofs.AddressBook.ExpiredBans
import PeerOverlay.Proofs.Ip.Grammar
import PeerOverlay.Proofs.Ip.Denotation
import PeerOverlay.Proofs.Ip.NormalForm
import PeerOverlay.Proofs.Ip.Spellings
import PeerOverlay.Proofs.Bootstrap.Entries
import PeerOverlay.Proofs.ForwardStore.Queue
import PeerOverlay.Proofs.Timers.Stale
