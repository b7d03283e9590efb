import PeerOverlay.Text.Numeral

/-!
# SHA-256

The message is padded to blocks of sixteen words.  Each block is expanded to
sixty-four words, which are mixed into the state one after the other.
-/

namespace PeerOverlay.Digest

structure State where
  a : UInt32
  b : UInt32
  c : UInt32
  d : UInt32
  e : UInt32
  f : UInt32
  g : UInt32
  h : UInt32

def initialState : State where
  a := 0x6a09e667
  b := 0xbb67ae85
  c := 0x3c6ef372
  d := 0xa54ff53a
  e := 0x510e527f
  f := 0x9b05688c
  g := 0x1f83d9ab
  h := 0x5be0cd19

def roundConstants : List UInt32 :=
  [0x428a2f98, 0x71374491, 0xb5c0fbcf, 0xe9b5dba5, 0x3956c25b, 0x59f111f1,
    0x923f82a4, 0xab1c5ed5, 0xd807aa98, 0x12835b01, 0x243185be, 0x550c7dc3,
    0x72be5d74, 0x80deb1fe, 0x9bdc06a7, 0xc19bf174, 0xe49b69c1, 0xefbe4786,
    0x0fc19dc6, 0x240ca1cc, 0x2de92c6f, 0x4a7484aa, 0x5cb0a9dc, 0x76f988da,
    0x983e5152, 0xa831c66d, 0xb00327c8, 0xbf597fc7, 0xc6e00bf3, 0xd5a79147,
    0x06ca6351, 0x14292967, 0x27b70a85, 0x2e1b2138, 0x4d2c6dfc, 0x53380d13,
    0x650a7354, 0x766a0abb, 0x81c2c92e, 0x92722c85, 0xa2bfe8a1, 0xa81a664b,
    0xc24b8b70, 0xc76c51a3, 0xd192e819, 0xd6990624, 0xf40e3585, 0x106aa070,
    0x19a4c116, 0x1e376c08, 0x2748774c, 0x34b0bcb5, 0x391c0cb3, 0x4ed8aa4a,
    0x5b9cca4f, 0x682e6ff3, 0x748f82ee, 0x78a5636f, 0x84c87814, 0x8cc70208,
    0x90befffa, 0xa4506ceb, 0xbef9a3f7, 0xc67178f2]

def rotate (word amount : UInt32) : UInt32 :=
  word >>> amount ||| word <<< (32 - amount)

/-- A number below `2 ^ 64` as eight bytes, the highest first. -/
def bitCountBytes (count : Nat) : List UInt8 :=
  (List.range 8).map fun index => UInt8.ofNat (count >>> (8 * (7 - index)))

/-- The message with a one bit, zeros and its number of bits behind it. -/
def pad (message : List UInt8) : List UInt8 :=
  message ++ 0x80 :: List.replicate ((119 - message.length % 64) % 64) 0 ++
    bitCountBytes (8 * message.length)

/-- Bytes as words, the highest byte first. -/
def words : List UInt8 → List UInt32
  | a :: b :: c :: d :: rest =>
      (a.toUInt32 <<< 24 ||| b.toUInt32 <<< 16 ||| c.toUInt32 <<< 8 ||| d.toUInt32) ::
        words rest
  | _ => []

/-- The next word of the schedule, from the last sixteen words, latest first. -/
def nextWord (latest : List UInt32) : UInt32 :=
  let word := fun index => latest.getD index 0
  let s0 := rotate (word 14) 7 ^^^ rotate (word 14) 18 ^^^ word 14 >>> 3
  let s1 := rotate (word 1) 17 ^^^ rotate (word 1) 19 ^^^ word 1 >>> 10
  word 15 + s0 + word 6 + s1

/-- The words of a schedule, latest first, with more words in front. -/
def extendSchedule : Nat → List UInt32 → List UInt32
  | 0, latest => latest
  | count + 1, latest => extendSchedule count (nextWord latest :: latest)

/-- The sixty-four words that a block is expanded to. -/
def schedule (block : List UInt32) : List UInt32 :=
  (extendSchedule 48 block.reverse).reverse

def round (state : State) (input : UInt32 × UInt32) : State :=
  let s1 := rotate state.e 6 ^^^ rotate state.e 11 ^^^ rotate state.e 25
  let choice := (state.e &&& state.f) ^^^ (~~~state.e &&& state.g)
  let first := state.h + s1 + choice + input.1 + input.2
  let s0 := rotate state.a 2 ^^^ rotate state.a 13 ^^^ rotate state.a 22
  let majority := (state.a &&& state.b) ^^^ (state.a &&& state.c) ^^^ (state.b &&& state.c)
  {
    a := first + (s0 + majority)
    b := state.a
    c := state.b
    d := state.c
    e := state.d + first
    f := state.e
    g := state.f
    h := state.g
  }

def compress (state : State) (block : List UInt32) : State :=
  let mixed := (roundConstants.zip (schedule block)).foldl round state
  {
    a := state.a + mixed.a
    b := state.b + mixed.b
    c := state.c + mixed.c
    d := state.d + mixed.d
    e := state.e + mixed.e
    f := state.f + mixed.f
    g := state.g + mixed.g
    h := state.h + mixed.h
  }

/-- The state after all whole blocks of a row of words. -/
def absorb : Nat → State → List UInt32 → State
  | 0, state, _ => state
  | blocks + 1, state, row =>
      absorb blocks (compress state (row.take 16)) (row.drop 16)

/-- A word as eight small hexadecimal digits. -/
def renderWord (word : UInt32) : List Char :=
  let digits := Numeral.render 16 word.toNat
  List.replicate (8 - digits.length) '0' ++ digits

/-- The digest of a message in hexadecimal digits. -/
def sha256 (message : List UInt8) : String :=
  let padded := words (pad message)
  let state := absorb (padded.length / 16) initialState padded
  String.ofList
    ([state.a, state.b, state.c, state.d, state.e, state.f, state.g, state.h].flatMap renderWord)

end PeerOverlay.Digest
