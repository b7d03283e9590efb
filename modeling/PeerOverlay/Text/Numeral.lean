/-!
# Numerals

Natural numbers written in a base up to sixteen.  Writing uses no leading zeros
and small letters; reading accepts leading zeros and letters of either case.
`read?_render` says that reading undoes writing.
-/

namespace PeerOverlay.Numeral

/-- The value of a digit, letters counting from ten.  Only ASCII digits and the
letters of hexadecimal are digits. -/
def digitValue? (base : Nat) (digit : Char) : Option Nat :=
  let value :=
    if '0' ≤ digit ∧ digit ≤ '9' then
      digit.toNat - '0'.toNat
    else if 'a' ≤ digit ∧ digit ≤ 'f' then
      digit.toNat - 'a'.toNat + 10
    else if 'A' ≤ digit ∧ digit ≤ 'F' then
      digit.toNat - 'A'.toNat + 10
    else
      base
  if value < base then some value else none

/-- Continue a number by further digits. -/
def extend? (base : Nat) : Nat → List Char → Option Nat
  | value, [] => some value
  | value, digit :: rest =>
      match digitValue? base digit with
      | some next => extend? base (value * base + next) rest
      | none => none

/-- The number that a nonempty row of digits denotes. -/
def read? (base : Nat) (digits : List Char) : Option Nat :=
  if digits = [] then none else extend? base 0 digits

/-- The number that a row of digits denotes, where one plus sign may stand in
front of the digits. -/
def readSigned? (base : Nat) : List Char → Option Nat
  | '+' :: digits => read? base digits
  | digits => read? base digits

/-- The digits of a number without leading zeros. -/
def render (base value : Nat) : List Char :=
  Nat.toDigits base value

theorem digitValue?_digitChar {base digit : Nat} (small : base ≤ 16) (below : digit < base) :
    digitValue? base digit.digitChar = some digit := by
  have : digit < 16 := Nat.lt_of_lt_of_le below small
  have cases16 : digit = 0 ∨ digit = 1 ∨ digit = 2 ∨ digit = 3 ∨ digit = 4 ∨ digit = 5 ∨
      digit = 6 ∨ digit = 7 ∨ digit = 8 ∨ digit = 9 ∨ digit = 10 ∨ digit = 11 ∨ digit = 12 ∨
      digit = 13 ∨ digit = 14 ∨ digit = 15 := by omega
  rcases cases16 with h | h | h | h | h | h | h | h | h | h | h | h | h | h | h | h <;>
    subst h <;> simp [digitValue?, Nat.digitChar, below]

theorem extend?_append (base value : Nat) (front back : List Char) :
    extend? base value (front ++ back) =
      (extend? base value front).bind fun middle => extend? base middle back := by
  induction front generalizing value with
  | nil => rfl
  | cons digit rest hypothesis =>
      simp only [List.cons_append, extend?]
      cases digitValue? base digit with
      | none => rfl
      | some next => exact hypothesis _

theorem extend?_render {base : Nat} (large : 1 < base) (small : base ≤ 16) (value : Nat) :
    extend? base 0 (render base value) = some value := by
  induction value using Nat.strongRecOn with
  | ind value hypothesis =>
      by_cases below : value < base
      · rw [render, Nat.toDigits_of_lt_base below]
        simp [extend?, digitValue?_digitChar small below]
      · have above : base ≤ value := Nat.le_of_not_lt below
        rw [render, Nat.toDigits_of_base_le large above, extend?_append]
        have smaller : value / base < value :=
          Nat.div_lt_self (by omega) large
        have front := hypothesis _ smaller
        rw [render] at front
        have remainder : value % base < base := Nat.mod_lt _ (by omega)
        rw [front]
        simp [extend?, digitValue?_digitChar small remainder, Nat.div_add_mod' value base]

/-- Reading undoes writing. -/
theorem read?_render {base : Nat} (large : 1 < base) (small : base ≤ 16) (value : Nat) :
    read? base (render base value) = some value := by
  have nonempty : render base value ≠ [] := Nat.toDigits_ne_nil
  simp [read?, nonempty, extend?_render large small]

end PeerOverlay.Numeral
