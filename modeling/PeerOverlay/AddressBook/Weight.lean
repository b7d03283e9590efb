import PeerOverlay.Text.Numeral

/-!
# How likely an address is picked

Every failure halves the weight of an address, and a success among its attempts
doubles it.  The weight never falls below one thousandth.  A count of failures
of `2 ^ 31` or more counts as negative.
-/

namespace PeerOverlay.AddressBook

/-- The weight of an address among the addresses to pick from. -/
inductive Weight where
  | least
  | powerOfTwo (exponent : Int)
  /-- Beyond every number that can be told. -/
  | unbounded
  deriving DecidableEq, Repr

namespace Weight

/-- How often a weight of one is doubled, halving counting as negative. -/
def doublings (attempts failures : Nat) : Int :=
  (if failures < attempts then 1 else 0) - Int.bmod failures UInt32.size

def ofCounts (attempts failures : Nat) : Weight :=
  let exponent := doublings attempts failures
  if 1024 ≤ exponent then .unbounded
  else if exponent < -9 then .least
  else .powerOfTwo exponent

/-! ## The decimal text of a weight -/

/-- A row of digits with zeros in front up to a length. -/
def padded (length : Nat) (digits : List Char) : List Char :=
  List.replicate (length - digits.length) '0' ++ digits

/-- Whether a number and a power of two above `2 ^ 53` have the same nearest
number of 53 significant bits. -/
def roundsToPower (exponent number : Nat) : Bool :=
  Nat.pow 2 exponent - Nat.pow 2 (exponent - 54) ≤ number &&
    number ≤ Nat.pow 2 exponent + Nat.pow 2 (exponent - 53)

/-- The number with a few significant digits that stands for a power of two of
the given number of digits, if there is one.  Of the two numbers next to the
power, the nearer one is taken if both stand for it; below a power of two the
numbers of 53 bits are closer together, so the farther one may be the only one. -/
def withDigits? (exponent length count : Nat) : Option Nat :=
  let power := Nat.pow 2 exponent
  let unit := Nat.pow 10 (length - count)
  let below := power / unit * unit
  let above := below + unit
  let nearest := if power - below ≤ above - power then [below, above] else [above, below]
  nearest.find? (roundsToPower exponent)

/-- The number with the fewest significant digits that stands for a power of
two; up to `2 ^ 53` the power itself. -/
def shortest (exponent : Nat) : Nat :=
  let power := Nat.pow 2 exponent
  if exponent < 54 then
    power
  else
    let length := (Numeral.render 10 power).length
    ((List.range 17).findSome? fun count =>
      withDigits? exponent length (count + 1)).getD power

/-- The fewest decimal digits that tell a weight from every other one. -/
def text : Weight → String
  | least => "0.001"
  | powerOfTwo (.ofNat exponent) => String.ofList (Numeral.render 10 (shortest exponent))
  | powerOfTwo (.negSucc exponent) =>
      "0." ++ String.ofList
        (padded (exponent + 1) (Numeral.render 10 (Nat.pow 5 (exponent + 1))))
  | unbounded => "inf"

end Weight

end PeerOverlay.AddressBook
