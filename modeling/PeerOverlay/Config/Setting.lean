import PeerOverlay.Config

/-!
# Settings by name

Every number of a configuration has a name under which it can be read and
changed.  Sets of flags count as the numbers of their bits.
-/

namespace PeerOverlay

structure Config.Setting where
  name : String
  read : Config → Nat
  write : Config → Nat → Config

namespace Config

def settings : List Setting :=
  [
    {
      name := "protocol_mask"
      read := fun config => config.protocolMask.bits.toNat
      write := fun config number => { config with protocolMask := ⟨UInt8.ofNat number⟩ }
    },
    {
      name := "service_mask"
      read := fun config => config.serviceMask.bits.toNat
      write := fun config number => { config with serviceMask := ⟨UInt32.ofNat number⟩ }
    },
    {
      name := "peer_count_desired"
      read := fun config => config.peerCountDesired
      write := fun config number => { config with peerCountDesired := number }
    },
    {
      name := "peer_count_max"
      read := fun config => config.peerCountMax
      write := fun config number => { config with peerCountMax := number }
    },
    {
      name := "peer_count_per_ip_direct_max"
      read := fun config => config.peerCountPerIpDirectMax
      write := fun config number => { config with peerCountPerIpDirectMax := number }
    },
    {
      name := "peer_count_per_ip_relayed_max"
      read := fun config => config.peerCountPerIpRelayedMax
      write := fun config number => { config with peerCountPerIpRelayedMax := number }
    },
    {
      name := "connecting_count_max"
      read := fun config => config.connectingCountMax
      write := fun config number => { config with connectingCountMax := number }
    },
    {
      name := "peer_count_relay"
      read := fun config => config.peerCountRelay
      write := fun config number => { config with peerCountRelay := number }
    },
    {
      name := "relay_batch_max"
      read := fun config => config.relayBatchMax
      write := fun config number => { config with relayBatchMax := number }
    },
    {
      name := "address_update_delay"
      read := fun config => config.addressUpdateDelay
      write := fun config number => { config with addressUpdateDelay := number }
    },
    {
      name := "peer_count_check_interval"
      read := fun config => config.peerCountCheckInterval
      write := fun config number => { config with peerCountCheckInterval := number }
    },
    {
      name := "signal_ttl_initial"
      read := fun config => config.signalTtlInitial.toNat
      write := fun config number => { config with signalTtlInitial := UInt8.ofNat number }
    },
    {
      name := "signal_store_capacity"
      read := fun config => config.signalStoreCapacity
      write := fun config number => { config with signalStoreCapacity := number }
    },
    {
      name := "signal_max_age"
      read := fun config => config.signalMaxAge
      write := fun config number => { config with signalMaxAge := number }
    },
    {
      name := "handshake_timeout"
      read := fun config => config.handshakeTimeout
      write := fun config number => { config with handshakeTimeout := number }
    },
    {
      name := "ping_timeout"
      read := fun config => config.pingTimeout
      write := fun config number => { config with pingTimeout := number }
    },
    {
      name := "connectivity_check_interval"
      read := fun config => config.connectivityCheckInterval
      write := fun config number => { config with connectivityCheckInterval := number }
    },
    {
      name := "announce_addr_interval"
      read := fun config => config.announceAddrInterval
      write := fun config number => { config with announceAddrInterval := number }
    },
    {
      name := "relay_throttle"
      read := fun config => config.relayThrottle
      write := fun config number => { config with relayThrottle := number }
    },
    {
      name := "version_attempts_max"
      read := fun config => config.versionAttemptsMax
      write := fun config number => { config with versionAttemptsMax := number }
    },
    {
      name := "version_retry_delay"
      read := fun config => config.versionRetryDelay
      write := fun config number => { config with versionRetryDelay := number }
    },
    {
      name := "max_addr_per_message"
      read := fun config => config.maxAddrPerMessage
      write := fun config number => { config with maxAddrPerMessage := number }
    },
    {
      name := "max_relay_distance"
      read := fun config => config.maxRelayDistance.toNat
      write := fun config number => { config with maxRelayDistance := UInt8.ofNat number }
    }
  ]

/-- A configuration with the settings that a table of names gives, if it gives
any. -/
def adjust (config : Config) (given? : String → Option Nat) : Config :=
  settings.foldl
    (fun config setting =>
      match given? setting.name with
      | none => config
      | some number => setting.write config number)
    config

end Config

end PeerOverlay
