import PeerOverlay.Text.Numeral
import PeerOverlay.Text.Unprintable

/-!
# Quoted texts

A text between quotes in which nothing is hidden: quotes, backslashes and line
ends are escaped, and so is every character that is not printed as it is.
-/

namespace PeerOverlay.Text

/-- The character behind the backslash, for characters with a short escape. -/
def shortEscape? : Char → Option Char
  | '\x00' => some '0'
  | '\t' => some 't'
  | '\r' => some 'r'
  | '\n' => some 'n'
  | '\\' => some '\\'
  | '"' => some '"'
  | _ => none

def escape (char : Char) : List Char :=
  match shortEscape? char with
  | some short => ['\\', short]
  | none =>
      if isUnprintable char then
        ['\\', 'u', '\x7b'] ++ Numeral.render 16 char.toNat ++ ['\x7d']
      else
        [char]

def quoted (text : String) : String :=
  String.ofList ('"' :: text.toList.flatMap escape ++ ['"'])

end PeerOverlay.Text
