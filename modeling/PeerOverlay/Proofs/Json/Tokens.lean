import Mathlib.Data.List.TakeDrop
import Mathlib.Tactic.SplitIfs
import PeerOverlay.Json.Reader
import PeerOverlay.Json.Writer

/-!
# Tokens of a JSON text

A string and an integer that have been written are read back, whatever comes behind
the closing quote, and whatever cannot go on with the digits.
-/

namespace PeerOverlay.Json

/-! ## Strings -/

theorem ofUtf8?_utf8 (text : String) : ofUtf8? (utf8 text) = some text := by
  have valid : text.toByteArray.IsValidUTF8 := text.isValidUTF8
  unfold ofUtf8? utf8
  show String.fromUTF8? ⟨text.toByteArray.data.toList.toArray⟩ = some text
  rw [Array.toArray_toList]
  exact dif_pos valid

theorem readContent_quote (reversed : Option (List UInt8)) (rest : List UInt8) :
    readContent reversed (quote :: rest) =
      some (reversed.bind fun bytes => ofUtf8? bytes.reverse, rest) :=
  readContent.eq_2 reversed rest

theorem readContent_unescaped (read : List UInt8) {byte : UInt8} (rest : List UInt8)
    (closing : byte ≠ quote) (unescaped : byte ≠ backslash) (printed : ¬ byte < 0x20) :
    readContent (some read) (byte :: rest) = readContent (some (byte :: read)) rest := by
  refine (readContent.eq_5 (some read) byte rest closing ?_ ?_).trans ?_
  · intro a b c d behind same
    exact absurd same unescaped
  · intro letter behind same
    exact absurd same unescaped
  · rw [if_neg (not_or.2 ⟨unescaped, printed⟩)]
    rfl

theorem readContent_letter (read : List UInt8) {letter byte : UInt8} (rest : List UInt8)
    (stands : letterEscape? letter = some byte) :
    readContent (some read) (backslash :: letter :: rest) =
      readContent (some (byte :: read)) rest := by
  have other : letter ≠ letterU := by
    rintro rfl
    have none : letterEscape? letterU = none := by decide
    rw [none] at stands
    cases stands
  refine (readContent.eq_4 (some read) letter rest ?_).trans ?_
  · intro a b c d behind same
    exact absurd same other
  · rw [stands]
    rfl

theorem readContent_unit (read : List UInt8) {a b c d byte : UInt8} (rest : List UInt8)
    (control : byte < 0x20) (stands : hexUnit? a b c d = some byte.toNat) :
    readContent (some read) (backslash :: letterU :: a :: b :: c :: d :: rest) =
      readContent (some (byte :: read)) rest := by
  have small : byte.toNat < 32 := UInt8.lt_iff_toNat_lt.1 control
  have high : isHighSurrogate byte.toNat = false := by
    simp only [isHighSurrogate, Bool.and_eq_false_iff, decide_eq_false_iff_not]
    omega
  have low : isLowSurrogate byte.toNat = false := by
    simp only [isLowSurrogate, Bool.and_eq_false_iff, decide_eq_false_iff_not]
    omega
  have single : codePointBytes byte.toNat = [byte] := by
    rw [codePointBytes, if_pos (by omega), UInt8.ofNat_toNat]
  have unit : escapedUnit byte.toNat rest = (some [byte], rest) := by
    rw [escapedUnit, high, low, single]
    rfl
  refine (readContent.eq_3 (some read) a b c d rest).trans ?_
  rw [stands]
  dsimp only
  rw [unit]
  rfl

theorem hexUnit?_hexDigitByte {byte : UInt8} (control : byte < 0x20) :
    hexUnit? 0x30 0x30 (hexDigitByte (byte.toNat / 16)) (hexDigitByte (byte.toNat % 16)) =
      some byte.toNat := by
  have all : ∀ code : Fin 32,
      hexUnit? 0x30 0x30 (hexDigitByte (code.val / 16)) (hexDigitByte (code.val % 16)) =
        some code.val := by
    decide
  exact all ⟨byte.toNat, UInt8.lt_iff_toNat_lt.1 control⟩

/-- What stands for a byte is read as that byte. -/
theorem readContent_escapeByte (read : List UInt8) (byte : UInt8) (rest : List UInt8) :
    readContent (some read) (escapeByte byte ++ rest) =
      readContent (some (byte :: read)) rest := by
  unfold escapeByte
  split_ifs with isQuote isBackslash isBackspace isTab isNewline isFormFeed isReturn control
  · exact isQuote ▸ readContent_letter read rest (by decide)
  · exact isBackslash ▸ readContent_letter read rest (by decide)
  · exact isBackspace ▸ readContent_letter read rest (by decide)
  · exact isTab ▸ readContent_letter read rest (by decide)
  · exact isNewline ▸ readContent_letter read rest (by decide)
  · exact isFormFeed ▸ readContent_letter read rest (by decide)
  · exact isReturn ▸ readContent_letter read rest (by decide)
  · exact readContent_unit read rest control (hexUnit?_hexDigitByte control)
  · exact readContent_unescaped read rest isQuote isBackslash control

theorem readContent_flatMap_escapeByte (read bytes rest : List UInt8) :
    readContent (some read) (bytes.flatMap escapeByte ++ quote :: rest) =
      some (ofUtf8? (read.reverse ++ bytes), rest) := by
  induction bytes generalizing read with
  | nil =>
      rw [List.flatMap_nil, List.nil_append, readContent_quote, Option.bind_some,
        List.append_nil]
  | cons byte others hypothesis =>
      rw [List.flatMap_cons, List.append_assoc, readContent_escapeByte, hypothesis,
        List.reverse_cons, List.append_assoc, List.singleton_append]

/-- The text of a string is read back behind its opening quote. -/
theorem readContent_renderString (text : String) (rest : List UInt8) :
    ∃ content, renderString text ++ rest = quote :: content ∧
      readContent (some []) content = some (some text, rest) := by
  refine ⟨(utf8 text).flatMap escapeByte ++ quote :: rest, ?_, ?_⟩
  · unfold renderString
    rw [List.cons_append, List.cons_append, List.append_assoc, List.singleton_append]
  · rw [readContent_flatMap_escapeByte, List.reverse_nil, List.nil_append, ofUtf8?_utf8]

/-! ## Integers -/

/-- The byte of a decimal digit. -/
def digitByte (digit : Nat) : UInt8 :=
  UInt8.ofNat digit.digitChar.toNat

theorem digitByte_spec {digit : Nat} (below : digit < 10) :
    isDigit (digitByte digit) ∧ (digitByte digit).toNat - 0x30 = digit ∧
      (digitByte digit = 0x30 → digit = 0) := by
  have all : ∀ digit : Fin 10, isDigit (digitByte digit.val) ∧
      (digitByte digit.val).toNat - 0x30 = digit.val ∧
        (digitByte digit.val = 0x30 → digit.val = 0) := by
    decide
  exact all ⟨digit, below⟩

theorem decimal_of_lt {value : Nat} (below : value < 10) :
    renderInteger.decimal value = [digitByte value] := by
  rw [renderInteger.decimal, Numeral.render, Nat.toDigits_of_lt_base below]
  rfl

theorem decimal_of_le {value : Nat} (above : 10 ≤ value) :
    renderInteger.decimal value =
      renderInteger.decimal (value / 10) ++ [digitByte (value % 10)] := by
  rw [renderInteger.decimal, Numeral.render, Nat.toDigits_of_base_le (by decide) above,
    List.map_append]
  rfl

/-- Whether a row of bytes is made of the decimal digits of a number, without
leading zeros. -/
structure Decimal (row : List UInt8) (number : Nat) : Prop where
  digits : ∀ digit ∈ row, isDigit digit
  first : ∃ digit others, row = digit :: others ∧ (digit = 0x30 → number = 0 ∧ others = [])
  value : digitsValue row = number

theorem decimal_decimal (number : Nat) : Decimal (renderInteger.decimal number) number := by
  induction number using Nat.strongRecOn with
  | ind number hypothesis =>
      by_cases below : number < 10
      · obtain ⟨digit, value, zero⟩ := digitByte_spec below
        rw [decimal_of_lt below]
        refine ⟨?_, ⟨digitByte number, [], rfl, fun same => ⟨zero same, rfl⟩⟩, ?_⟩
        · intro other member
          rwa [List.mem_singleton.1 member]
        · show 0 * 10 + ((digitByte number).toNat - 0x30) = number
          omega
      · have above : 10 ≤ number := Nat.le_of_not_lt below
        have smaller : number / 10 < number := by omega
        obtain ⟨digits, ⟨first, others, start, zero⟩, value⟩ := hypothesis _ smaller
        obtain ⟨digit, last, _⟩ := digitByte_spec (Nat.mod_lt number (by decide : 0 < 10))
        rw [decimal_of_le above]
        refine ⟨?_, ⟨first, others ++ [digitByte (number % 10)], ?_, ?_⟩, ?_⟩
        · intro other member
          rcases List.mem_append.1 member with earlier | own
          · exact digits other earlier
          · rwa [List.mem_singleton.1 own]
        · rw [start, List.cons_append]
        · intro same
          have none := (zero same).1
          omega
        · unfold digitsValue at value ⊢
          rw [List.foldl_append, value, List.foldl_cons, List.foldl_nil, last]
          omega

/-- Bytes that cannot go on with a value: there are none, or the first one ends an
item, an array or an object. -/
def EndsValue (rest : List UInt8) : Prop :=
  ∀ byte ∈ rest.head?, byte = comma ∨ byte = closeBracket ∨ byte = closeBrace

theorem EndsValue.of_cons {byte : UInt8} {rest : List UInt8} (ends : EndsValue (byte :: rest)) :
    isDigit byte = false ∧ byte ≠ point ∧ byte ≠ 0x65 ∧ byte ≠ 0x45 := by
  rcases ends byte rfl with rfl | rfl | rfl <;> decide

theorem readDigits_append {row rest : List UInt8} (some? : row ≠ [])
    (digits : ∀ digit ∈ row, isDigit digit) (ends : EndsValue rest) :
    readDigits (row ++ rest) = some (row, rest) := by
  have stops : rest.takeWhile isDigit = [] ∧ rest.dropWhile isDigit = rest := by
    cases rest with
    | nil => exact ⟨rfl, rfl⟩
    | cons byte behind =>
        have other := ends.of_cons.1
        exact ⟨List.takeWhile_cons_of_neg (by simp [other]),
          List.dropWhile_cons_of_neg (by simp [other])⟩
  rw [readDigits, List.span_eq_takeWhile_dropWhile, List.takeWhile_append_of_pos digits,
    List.dropWhile_append_of_pos digits, stops.1, stops.2, List.append_nil]
  cases row with
  | nil => exact absurd rfl some?
  | cons digit others => rfl

theorem readWhole_append {row rest : List UInt8} {number : Nat} (decimal : Decimal row number)
    (ends : EndsValue rest) : readWhole (row ++ rest) = some (row, rest) := by
  obtain ⟨digit, others, start, zero⟩ := decimal.first
  by_cases same : digit = 0x30
  · rw [start, same, (zero same).2]
    rfl
  · have digits := readDigits_append (by simp [start]) decimal.digits ends
    rw [start] at digits ⊢
    refine Eq.trans ?_ digits
    exact readWhole.eq_2 _ fun behind front => same (List.cons.inj front).1

theorem readFraction_of_endsValue {rest : List UInt8} (ends : EndsValue rest) :
    readFraction rest = some (false, rest) := by
  refine readFraction.eq_2 rest ?_
  rintro behind rfl
  exact ends.of_cons.2.1 rfl

theorem readExponent_of_endsValue {rest : List UInt8} (ends : EndsValue rest) :
    readExponent rest = some (false, rest) := by
  cases rest with
  | nil => rfl
  | cons byte behind =>
      obtain ⟨_, _, small, large⟩ := ends.of_cons
      exact if_neg (not_or.2 ⟨small, large⟩)

/-- A number behind its sign. -/
def readUnsigned (negative : Bool) (bytes : List UInt8) : Option (Json × List UInt8) := do
  let (digits, bytes) ← readWhole bytes
  let (hasFraction, bytes) ← readFraction bytes
  let (hasExponent, bytes) ← readExponent bytes
  let value := digitsValue digits
  if hasFraction || hasExponent || (negative && value == 0) then
    return (.fraction, bytes)
  else
    return (.integer (if negative then -value else value), bytes)

theorem readNumber_minus (bytes : List UInt8) :
    readNumber (minus :: bytes) = readUnsigned true bytes := rfl

theorem readNumber_of_ne {byte : UInt8} (unsigned : byte ≠ minus) (rest : List UInt8) :
    readNumber (byte :: rest) = readUnsigned false (byte :: rest) := by
  unfold readNumber
  split
  next negative bytes sign =>
    split at sign
    · next same => exact absurd (List.cons.inj same).1 unsigned
    · obtain ⟨rfl, rfl⟩ := Prod.mk.inj sign
      rfl

theorem readUnsigned_append {row rest : List UInt8} {number : Nat} (decimal : Decimal row number)
    (ends : EndsValue rest) (negative : Bool) (nonzero : negative → number ≠ 0) :
    readUnsigned negative (row ++ rest) =
      some (.integer (if negative then -number else number), rest) := by
  have integer : (negative && number == 0) = false := by
    cases negative with
    | false => rfl
    | true => exact beq_eq_false_iff_ne.2 (nonzero rfl)
  unfold readUnsigned
  rw [readWhole_append decimal ends]
  show (readFraction rest).bind _ = _
  rw [readFraction_of_endsValue ends]
  show (readExponent rest).bind _ = _
  rw [readExponent_of_endsValue ends, Option.bind_some]
  show (if false || false || (negative && digitsValue row == 0) then _ else _) = _
  rw [decimal.value, integer]
  rfl

/-- An integer is read back. -/
theorem readNumber_renderInteger (value : Int) {rest : List UInt8} (ends : EndsValue rest) :
    readNumber (renderInteger value ++ rest) = some (.integer value, rest) := by
  cases value with
  | ofNat number =>
      have decimal := decimal_decimal number
      obtain ⟨digit, others, start, _⟩ := decimal.first
      have unsigned : digit ≠ minus := by
        rintro rfl
        have digit := decimal.digits minus (by simp [start])
        exact absurd digit (by decide)
      have read := readUnsigned_append decimal ends false (by simp)
      show readNumber (renderInteger.decimal number ++ rest) = _
      rw [start, List.cons_append] at read ⊢
      rw [readNumber_of_ne unsigned, read]
      rfl
  | negSucc number =>
      have decimal := decimal_decimal (number + 1)
      have read := readUnsigned_append decimal ends true fun _ => Nat.succ_ne_zero number
      show readNumber (minus :: (renderInteger.decimal (number + 1) ++ rest)) = _
      rw [readNumber_minus, read]
      rfl

end PeerOverlay.Json
