import PeerOverlay.Json.Value
import PeerOverlay.Text.Numeral

/-!
# Reading JSON

Each reader takes a value off the front of the bytes and returns the bytes
behind it.  Strings are read byte by byte, so the bytes of a text that is not
UTF-8 only spoil the string they stand in.
-/

namespace PeerOverlay.Json

def isBlank (byte : UInt8) : Bool :=
  byte == 0x20 || byte == 0x09 || byte == 0x0a || byte == 0x0d

def skipBlanks (bytes : List UInt8) : List UInt8 :=
  bytes.dropWhile isBlank

/-! ## Strings -/

def codePointBytes (code : Nat) : List UInt8 :=
  if code < 0x80 then
    [UInt8.ofNat code]
  else if code < 0x800 then
    [UInt8.ofNat (0xc0 + code / 64), UInt8.ofNat (0x80 + code % 64)]
  else if code < 0x10000 then
    [UInt8.ofNat (0xe0 + code / 4096), UInt8.ofNat (0x80 + code / 64 % 64),
      UInt8.ofNat (0x80 + code % 64)]
  else
    [UInt8.ofNat (0xf0 + code / 262144), UInt8.ofNat (0x80 + code / 4096 % 64),
      UInt8.ofNat (0x80 + code / 64 % 64), UInt8.ofNat (0x80 + code % 64)]

/-- The byte that a one-letter escape stands for. -/
def letterEscape? (letter : UInt8) : Option UInt8 :=
  if letter = quote ∨ letter = backslash ∨ letter = 0x2f then some letter
  else if letter = 0x62 then some 0x08
  else if letter = 0x66 then some 0x0c
  else if letter = 0x6e then some 0x0a
  else if letter = 0x72 then some 0x0d
  else if letter = 0x74 then some 0x09
  else none

def hexUnit? (a b c d : UInt8) : Option Nat :=
  Numeral.read? 16 ([a, b, c, d].map fun byte => Char.ofNat byte.toNat)

def isHighSurrogate (unit : Nat) : Bool :=
  0xd800 ≤ unit && unit ≤ 0xdbff

def isLowSurrogate (unit : Nat) : Bool :=
  0xdc00 ≤ unit && unit ≤ 0xdfff

def pairedCodePoint (high low : Nat) : Nat :=
  0x10000 + (high - 0xd800) * 0x400 + (low - 0xdc00)

/-- The second half of a surrogate pair at the front of the bytes. -/
def lowSurrogate? : List UInt8 → Option (Nat × List UInt8)
  | backslash :: letterU :: a :: b :: c :: d :: rest =>
      match hexUnit? a b c d with
      | some low => if isLowSurrogate low then some (low, rest) else none
      | none => none
  | _ => none

/-- The bytes of an escaped code unit, with the second half of its pair taken
off the front of the bytes behind it; no bytes for a half without the other. -/
def escapedUnit (unit : Nat) (rest : List UInt8) : Option (List UInt8) × List UInt8 :=
  if isHighSurrogate unit then
    match lowSurrogate? rest with
    | some (low, rest) => (some (codePointBytes (pairedCodePoint unit low)), rest)
    | none => (none, rest)
  else if isLowSurrogate unit then
    (none, rest)
  else
    (some (codePointBytes unit), rest)

theorem length_escapedUnit_le (unit : Nat) (rest : List UInt8) :
    (escapedUnit unit rest).2.length ≤ rest.length := by
  unfold escapedUnit
  split
  · split
    · next low tail found =>
        unfold lowSurrogate? at found
        split at found
        · split at found
          · split at found
            · simp only [Option.some.injEq, Prod.mk.injEq] at found
              simp [found.2]
              omega
            · simp at found
          · simp at found
        · simp at found
    · exact Nat.le_refl _
  · split <;> exact Nat.le_refl _

/-- Puts bytes in front of a string read backwards, unless it is spoilt. -/
def extendContent (reversed : Option (List UInt8)) (bytes : Option (List UInt8)) :
    Option (List UInt8) :=
  match reversed, bytes with
  | some reversed, some bytes => some (bytes.reverse ++ reversed)
  | _, _ => none

/-- The content of a string, behind its opening quote, and the bytes behind its
closing quote.  The content read so far is kept backwards. -/
def readContent (reversed : Option (List UInt8)) :
    List UInt8 → Option (JsonString × List UInt8)
  | [] => none
  | quote :: rest => some (reversed.bind fun bytes => ofUtf8? bytes.reverse, rest)
  | backslash :: letterU :: a :: b :: c :: d :: rest =>
      match hexUnit? a b c d with
      | none => none
      | some unit =>
          readContent (extendContent reversed (escapedUnit unit rest).1)
            (escapedUnit unit rest).2
  | backslash :: letter :: rest =>
      match letterEscape? letter with
      | none => none
      | some byte => readContent (extendContent reversed (some [byte])) rest
  | byte :: rest =>
      if byte = backslash ∨ byte < 0x20 then
        none
      else
        readContent (extendContent reversed (some [byte])) rest
  termination_by bytes => bytes.length
  decreasing_by
    · have := length_escapedUnit_le unit rest
      simp only [List.length_cons]
      omega
    · simp only [List.length_cons]; omega
    · simp only [List.length_cons]; omega

/-! ## Numbers and words -/

def isDigit (byte : UInt8) : Bool :=
  0x30 ≤ byte && byte ≤ 0x39

def readDigits (bytes : List UInt8) : Option (List UInt8 × List UInt8) :=
  match bytes.span isDigit with
  | ([], _) => none
  | (digits, rest) => some (digits, rest)

/-- The whole part of a number: zero, or digits that do not start with zero. -/
def readWhole : List UInt8 → Option (List UInt8 × List UInt8)
  | 0x30 :: rest => some ([0x30], rest)
  | bytes => readDigits bytes

/-- A fraction, if there is one; whether there was one, and what follows. -/
def readFraction : List UInt8 → Option (Bool × List UInt8)
  | point :: rest => (readDigits rest).map fun (_, rest) => (true, rest)
  | bytes => some (false, bytes)

/-- An exponent, if there is one; whether there was one, and what follows. -/
def readExponent : List UInt8 → Option (Bool × List UInt8)
  | letter :: rest =>
      if letter = 0x65 ∨ letter = 0x45 then
        let digits :=
          match rest with
          | sign :: tail => if sign = plus ∨ sign = minus then tail else rest
          | [] => []
        (readDigits digits).map fun (_, rest) => (true, rest)
      else
        some (false, letter :: rest)
  | [] => some (false, [])

def digitsValue (digits : List UInt8) : Nat :=
  digits.foldl (fun value digit => value * 10 + (digit.toNat - 0x30)) 0

/-- A number.  Only one without fraction and exponent is an integer, and minus
zero is none. -/
def readNumber (bytes : List UInt8) : Option (Json × List UInt8) := do
  let (negative, bytes) :=
    match bytes with
    | minus :: rest => (true, rest)
    | bytes => (false, bytes)
  let (digits, bytes) ← readWhole bytes
  let (hasFraction, bytes) ← readFraction bytes
  let (hasExponent, bytes) ← readExponent bytes
  let value := digitsValue digits
  if hasFraction || hasExponent || (negative && value == 0) then
    return (.fraction, bytes)
  else
    return (.integer (if negative then -value else value), bytes)

/-- The bytes behind a word, if they start with it. -/
def dropWord? (word bytes : List UInt8) : Option (List UInt8) :=
  if word.isPrefixOf bytes then some (bytes.drop word.length) else none

/-- A value that is neither a string nor made of other values. -/
def readScalar (bytes : List UInt8) : Option (Json × List UInt8) :=
  match dropWord? (ascii "null") bytes with
  | some rest => some (.null, rest)
  | none =>
      match dropWord? (ascii "true") bytes with
      | some rest => some (.bool true, rest)
      | none =>
          match dropWord? (ascii "false") bytes with
          | some rest => some (.bool false, rest)
          | none => readNumber bytes

/-! ## Values -/

def readName (bytes : List UInt8) : Option (JsonString × List UInt8) :=
  match skipBlanks bytes with
  | quote :: rest => do
      let (name, rest) ← readContent (some []) rest
      match skipBlanks rest with
      | colon :: rest => some (name, rest)
      | _ => none
  | _ => none

mutual

def readValue : Nat → List UInt8 → Option (Json × List UInt8)
  | 0, _ => none
  | fuel + 1, bytes =>
      match skipBlanks bytes with
      | openBracket :: rest =>
          match skipBlanks rest with
          | closeBracket :: rest => some (.array [], rest)
          | rest => readItems fuel [] rest
      | openBrace :: rest =>
          match skipBlanks rest with
          | closeBrace :: rest => some (.object [], rest)
          | rest => readFields fuel [] rest
      | quote :: rest =>
          (readContent (some []) rest).map fun (content, rest) => (.string content, rest)
      | bytes => readScalar bytes

/-- At least one more item of an array, after the given items in reverse. -/
def readItems : Nat → List Json → List UInt8 → Option (Json × List UInt8)
  | 0, _, _ => none
  | fuel + 1, reversed, bytes =>
      match readValue fuel bytes with
      | none => none
      | some (item, rest) =>
          match skipBlanks rest with
          | comma :: rest => readItems fuel (item :: reversed) rest
          | closeBracket :: rest => some (.array (item :: reversed).reverse, rest)
          | _ => none

/-- At least one more field of an object, after the given fields in reverse. -/
def readFields : Nat → List (JsonString × Json) → List UInt8 →
    Option (Json × List UInt8)
  | 0, _, _ => none
  | fuel + 1, reversed, bytes =>
      match readName bytes with
      | none => none
      | some (name, rest) =>
          match readValue fuel rest with
          | none => none
          | some (value, rest) =>
              match skipBlanks rest with
              | comma :: rest => readFields fuel ((name, value) :: reversed) rest
              | closeBrace :: rest =>
                  some (.object ((name, value) :: reversed).reverse, rest)
              | _ => none

end

/-- The value that a whole text denotes.  Every byte costs at most two readers,
so the text itself bounds the reading. -/
def parse? (bytes : List UInt8) : Option Json :=
  match readValue (2 * bytes.length + 2) bytes with
  | some (value, rest) => if skipBlanks rest = [] then some value else none
  | none => none

end PeerOverlay.Json
