/-!
# JSON values

The values that a JSON text can denote, as far as messages need them.  Numbers
are integers or something else, because no message field is a fraction.  A
string token can denote no Unicode text; it is kept as such, since a reader may
have to step over it.
-/

namespace PeerOverlay

/-- What a string token denotes; `none` for bytes that are not UTF-8 or for an
escaped half of a surrogate pair. -/
abbrev JsonString := Option String

inductive Json where
  | null
  | bool (value : Bool)
  | integer (value : Int)
  /-- A number with a fraction or an exponent, or minus zero. -/
  | fraction
  | string (content : JsonString)
  | array (items : List Json)
  | object (fields : List (JsonString × Json))
  deriving Repr

namespace Json

/-! ## The bytes with a meaning of their own -/

@[match_pattern] abbrev quote : UInt8 := 0x22
@[match_pattern] abbrev backslash : UInt8 := 0x5c
@[match_pattern] abbrev comma : UInt8 := 0x2c
@[match_pattern] abbrev colon : UInt8 := 0x3a
@[match_pattern] abbrev openBracket : UInt8 := 0x5b
@[match_pattern] abbrev closeBracket : UInt8 := 0x5d
@[match_pattern] abbrev openBrace : UInt8 := 0x7b
@[match_pattern] abbrev closeBrace : UInt8 := 0x7d
@[match_pattern] abbrev minus : UInt8 := 0x2d
@[match_pattern] abbrev plus : UInt8 := 0x2b
@[match_pattern] abbrev point : UInt8 := 0x2e
@[match_pattern] abbrev letterU : UInt8 := 0x75

def ascii (text : String) : List UInt8 :=
  text.toList.map fun char => UInt8.ofNat char.toNat

def utf8 (text : String) : List UInt8 :=
  text.toUTF8.data.toList

/-- The text with the given UTF-8 bytes, if there is one. -/
def ofUtf8? (bytes : List UInt8) : Option String :=
  String.fromUTF8? ⟨bytes.toArray⟩

end Json

end PeerOverlay
