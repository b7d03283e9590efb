import PeerOverlay.Ip.Groups

/-!
# Address literals

Which texts are IPv4 or IPv6 literals, the canonical text of a literal, and
whether it names a private address.  A text that is no literal is refused and
never repaired.
-/

namespace PeerOverlay.Ip

open PeerOverlay.Text

/-- A text that is not the literal of a usable address. -/
inductive IpError where
  | malformed (text : String)
  deriving DecidableEq, Repr

def IpError.message : IpError → String
  | .malformed text => "Malformed IP address " ++ text

def isHexDigit (char : Char) : Bool :=
  (Numeral.digitValue? 16 char).isSome

def isHexGroup (part : List Char) : Bool :=
  part.length ≤ 4 && part.all isHexDigit

def isQuadLiteral (text : List Char) : Bool :=
  (Quad.read? text).isSome

/-- The colon-separated parts of a text in small letters. -/
def colonParts (text : List Char) : List (List Char) :=
  pieces ':' (text.map Char.toLower)

def lastPart (parts : List (List Char)) : List Char :=
  parts.getLast?.getD []

/-- The parts that are neither the first nor the last one. -/
def innerParts (parts : List (List Char)) : List (List Char) :=
  parts.tail.dropLast

/-- A dotted quad may take the place of the last group of fewer than eight. -/
def groupParts (parts : List (List Char)) : List (List Char) :=
  if isQuadLiteral (lastPart parts) ∧ parts.length < 8 then
    parts.dropLast
  else
    parts

/-- Before a dotted quad and the part in front of it, only zeros may stand. -/
def quadIsPadded (parts : List (List Char)) : Bool :=
  !isQuadLiteral (lastPart parts) ||
    (parts.take (parts.length - 2)).all fun part => part.all (· == '0')

/-- An empty first or last part must be one half of a doubled colon; with no
such part, fewer than eight parts need an empty one inside. -/
def elisionFits (parts : List (List Char)) : Bool :=
  match parts with
  | [] :: second :: _ => second.isEmpty
  | _ =>
      match parts.reverse with
      | [] :: previous :: _ => previous.isEmpty
      | _ => parts.length == 8 || (innerParts parts).any List.isEmpty

def partsFormLiteral (parts : List (List Char)) : Bool :=
  3 ≤ parts.length && parts.length ≤ 8 &&
    (groupParts parts).all isHexGroup &&
    (innerParts parts).countP List.isEmpty ≤ 1 &&
    quadIsPadded parts &&
    elisionFits parts

def isIpv4 (text : String) : Bool :=
  isQuadLiteral text.toList

/-- Three to eight parts of at most four hexadecimal digits with colons between
them, at most one inner part empty, possibly with a dotted quad at the end. -/
def isIpv6 (text : String) : Bool :=
  partsFormLiteral (colonParts text.toList)

/-- The dotted quad at the end of an IPv6 literal. -/
def embeddedQuad? (parts : List (List Char)) : Option Quad :=
  Quad.read? (lastPart parts)

/-- What a text denotes: a dotted quad, by itself or at the end of an IPv6
literal, or an IPv6 literal without one. -/
inductive Literal where
  | quad (quad : Quad)
  | colons (parts : List (List Char))
  deriving DecidableEq, Repr

def literal? (text : String) : Except IpError Literal :=
  match Quad.read? text.toList with
  | some quad => .ok (.quad quad)
  | none =>
      if isIpv6 text then
        let parts := colonParts text.toList
        match embeddedQuad? parts with
        | some quad => .ok (.quad quad)
        | none => .ok (.colons parts)
      else
        .error (.malformed text)

/-- Whether the first part of an IPv6 literal lies in a private range. -/
def isPrivateParts : List (List Char) → Bool
  | first :: _ => ((group? first).map isPrivateGroup).getD false
  | [] => false

/-- Whether a literal names an address of a private, shared carrier or
link-local range. -/
def isPrivate (text : String) : Except IpError Bool :=
  (literal? text).map fun
    | .quad quad => quad.isPrivate
    | .colons parts => isPrivateParts parts

/-- The canonical text of a literal: no leading zeros, small letters, the first
longest run of zero groups elided, and a dotted quad in place of an IPv6 literal
that ends in one. -/
def normalize (text : String) : Except IpError String := do
  match ← literal? text with
  | .quad quad => return String.ofList quad.render
  | .colons parts =>
      match Groups.expand? (glue ':' parts) with
      | some groups => return String.ofList groups.render
      | none => throw (.malformed text)

/-- Canonical texts of addresses that name no peer. -/
def meaninglessAddresses : List String :=
  ["0.0.0.0", "127.0.0.1", "255.255.255.255", "::", "::1"]

/-- The canonical text of a literal that can name a peer. -/
def sanitize (text : String) : Except IpError String := do
  let sane ← normalize text
  if meaninglessAddresses.contains sane then
    throw (.malformed text)
  return sane

end PeerOverlay.Ip
