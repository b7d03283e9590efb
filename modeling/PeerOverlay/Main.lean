import PeerOverlay.AddressReport

/-!
# Command line

`address IP` prints a report on an IP address.
-/

namespace PeerOverlay

def usage : String :=
  "Usage: peer-overlay address <IP>"

/-- The text that the arguments ask for a report on. -/
def reportArgument? : List String → Option String
  | ["address", text] => some text
  | ["address", "--", text] => some text
  | _ => none

end PeerOverlay

open PeerOverlay in
def main (arguments : List String) : IO UInt32 := do
  match reportArgument? arguments with
  | none =>
      IO.eprintln usage
      return 2
  | some text =>
      let outcome := AddressReport.outcome text
      IO.print outcome.output
      IO.eprint outcome.errors
      return outcome.exitCode.toUInt32
