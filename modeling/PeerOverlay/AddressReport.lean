import PeerOverlay.NetAddress
import PeerOverlay.Text.Quoted

/-!
# Reports on addresses

What a node makes of an IP address, for its owner to read.
-/

namespace PeerOverlay

/-- Why there is no report on a text. -/
inductive ReportError where
  | notAnAddress (text : String)
  | unusable (error : Ip.IpError)
  deriving DecidableEq, Repr

def ReportError.details : ReportError → String
  | notAnAddress text => Text.quoted ("❌ Not an IP address: " ++ text)
  | unusable (.malformed text) => "Malformed(" ++ Text.quoted text ++ ")"

/-- What a command leaves behind. -/
structure Outcome where
  exitCode : UInt8
  output : String
  errors : String
  deriving Repr

namespace AddressReport

def kind? (text : String) : Option String :=
  if Ip.isIpv4 text then
    some "IPv4"
  else if Ip.isIpv6 text then
    some "IPv6"
  else
    none

def lines (text kind normalized : String) (isPrivate : Bool) : List String :=
  [
    "📍 " ++ text,
    "   Type:       " ++ kind,
    "   Normalized: " ++ normalized,
    "   Private:    " ++ toString isPrivate
  ]

def render (text : String) : Except ReportError (List String) := do
  match kind? text with
  | none => throw (.notAnAddress text)
  | some kind =>
      let netAddress ← (NetAddress.parse text).mapError .unusable
      let normalized ← (Ip.normalize text).mapError .unusable
      return lines text kind normalized netAddress.isPrivate

/-- What the command that asks for a report leaves behind. -/
def outcome (text : String) : Outcome :=
  match render text with
  | .ok lines => ⟨0, String.join (lines.map fun line => line ++ "\n"), ""⟩
  | .error error => ⟨1, "", "Error: " ++ error.details ++ "\n"⟩

end AddressReport

end PeerOverlay
