import PeerOverlay.Json.Value
import PeerOverlay.Text.Numeral

/-!
# Writing JSON

The compact text of a JSON value: no blanks, fields in the given order, and no
character escaped that need not be.
-/

namespace PeerOverlay.Json

def hexDigitByte (value : Nat) : UInt8 :=
  UInt8.ofNat value.digitChar.toNat

/-- The bytes that stand for one byte of a string.  Quotes, backslashes and
control characters are escaped, the common control characters by a letter. -/
def escapeByte (byte : UInt8) : List UInt8 :=
  if byte = quote then ascii "\\\""
  else if byte = backslash then ascii "\\\\"
  else if byte = 0x08 then ascii "\\b"
  else if byte = 0x09 then ascii "\\t"
  else if byte = 0x0a then ascii "\\n"
  else if byte = 0x0c then ascii "\\f"
  else if byte = 0x0d then ascii "\\r"
  else if byte < 0x20 then
    ascii "\\u00" ++ [hexDigitByte (byte.toNat / 16), hexDigitByte (byte.toNat % 16)]
  else [byte]

def renderString (text : String) : List UInt8 :=
  quote :: (utf8 text).flatMap escapeByte ++ [quote]

def renderInteger : Int → List UInt8
  | .ofNat value => decimal value
  | .negSucc value => minus :: decimal (value + 1)
where
  decimal (value : Nat) : List UInt8 :=
    (Numeral.render 10 value).map fun digit => UInt8.ofNat digit.toNat

mutual

/-- The compact text of a value.  A string token that denotes no text and a
number that is no integer are written as `null`. -/
def render : Json → List UInt8
  | .null => ascii "null"
  | .bool true => ascii "true"
  | .bool false => ascii "false"
  | .integer value => renderInteger value
  | .fraction => ascii "null"
  | .string none => ascii "null"
  | .string (some text) => renderString text
  | .array items => openBracket :: renderItems items ++ [closeBracket]
  | .object fields => openBrace :: renderFields fields ++ [closeBrace]

def renderItems : List Json → List UInt8
  | [] => []
  | [item] => item.render
  | item :: next :: rest => item.render ++ comma :: renderItems (next :: rest)

def renderFields : List (JsonString × Json) → List UInt8
  | [] => []
  | [(name, value)] => renderString (name.getD "") ++ colon :: value.render
  | (name, value) :: next :: rest =>
      renderString (name.getD "") ++ colon :: value.render ++
        comma :: renderFields (next :: rest)

end

def text (value : Json) : String :=
  (ofUtf8? value.render).getD ""

end PeerOverlay.Json
