import PeerOverlay.Ip.Quad

/-!
# Eight groups

An IPv6 address is eight groups of sixteen bits.  Expanding a text fills the
place of the doubled colon with zero groups; compressing puts the doubled colon
in place of the first longest run of at least two zero groups.
-/

namespace PeerOverlay.Ip

open PeerOverlay.Text

structure Groups where
  toList : List UInt16
  eight : toList.length = 8
  deriving DecidableEq

/-- The value of one group of hexadecimal digits; an empty group is zero. -/
def group? (digits : List Char) : Option UInt16 :=
  if digits = [] then
    some 0
  else
    match Numeral.read? 16 digits with
    | some value => if value < 65536 then some (UInt16.ofNat value) else none
    | none => none

/-- The groups of a text that has single colons only; an empty text has none. -/
def groupRow? (text : List Char) : Option (List UInt16) :=
  if text = [] then some [] else (pieces ':' text).mapM group?

namespace Groups

/-- Zero groups between two rows, as many as are missing from eight. -/
def fill? (front back : List UInt16) : Option Groups :=
  if fits : front.length + back.length ≤ 8 then
    some {
      toList :=
        front ++ List.replicate (8 - (front.length + back.length)) 0 ++ back
      eight := by simp; omega
    }
  else
    none

/-- The eight groups that a text with or without a doubled colon denotes. -/
def expand? (text : List Char) : Option Groups :=
  match cutAtDouble? ':' text with
  | some (front, back) => do fill? (← groupRow? front) (← groupRow? back)
  | none => do
      let row ← groupRow? text
      if full : row.length = 8 then some ⟨row, full⟩ else none

/-- The number of zero groups that a row starts with. -/
def leadingZeros (row : List UInt16) : Nat :=
  (row.takeWhile (· == 0)).length

/-- Start and length of the first longest run of zero groups of a row. -/
def longestZeroRun (row : List UInt16) : Nat × Nat :=
  (List.range row.length).foldl
    (fun best start =>
      let run := leadingZeros (row.drop start)
      if best.2 < run then (start, run) else best)
    (0, 0)

/-- Groups in small hexadecimal digits with single colons between them. -/
def renderRow (row : List UInt16) : List Char :=
  glue ':' (row.map fun group => Numeral.render 16 group.toNat)

/-- The shortest text of an address: a doubled colon stands for the first
longest run of at least two zero groups. -/
def render (groups : Groups) : List Char :=
  let (start, run) := longestZeroRun groups.toList
  if 1 < run then
    renderRow (groups.toList.take start) ++ [':', ':'] ++
      renderRow (groups.toList.drop (start + run))
  else
    renderRow groups.toList

/-- The dotted quad in the last two groups of an address whose first five
groups are zero and whose sixth group has all bits set. -/
def mappedQuad? (groups : Groups) : Option Quad :=
  match groups.toList with
  | [0, 0, 0, 0, 0, 65535, high, low] =>
      some ⟨(high >>> 8).toUInt8, high.toUInt8, (low >>> 8).toUInt8, low.toUInt8⟩
  | _ => none

/-- The text in which a socket reports an address: a mapped dotted quad stays
visible as such. -/
def renderSocket (groups : Groups) : List Char :=
  match groups.mappedQuad? with
  | some quad => "::ffff:".toList ++ quad.render
  | none => groups.render

end Groups

/-- Unique-local and link-local addresses, told by their first group. -/
def isPrivateGroup (group : UInt16) : Bool :=
  group &&& 0xfe00 == 0xfc00 || group &&& 0xffc0 == 0xfe80

end PeerOverlay.Ip
