import PeerOverlay.Digest.Sha256
import PeerOverlay.Json.Value

/-!
# The announced chain

Nodes announce the tip of their chain and talk only to nodes whose chain starts
with the same block.
-/

namespace PeerOverlay

structure Chain where
  genesisHash : String
  height : UInt32
  totalWork : UInt64
  deriving DecidableEq, Repr

namespace Chain

/-- The seed of the network that is used unless another is asked for. -/
def defaultSeed : String := "evo-genesis-block"

/-- A chain that has only its first block, which is known by the digest of a
seed. -/
def ofSeed (seed : List UInt8) : Chain where
  genesisHash := Digest.sha256 seed
  height := 0
  totalWork := 0

def default : Chain :=
  ofSeed (Json.utf8 defaultSeed)

def withTip (chain : Chain) (height : UInt32) (totalWork : UInt64) : Chain :=
  { chain with height := height, totalWork := totalWork }

end Chain

end PeerOverlay
