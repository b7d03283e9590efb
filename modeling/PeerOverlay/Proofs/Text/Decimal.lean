import Mathlib.Data.Nat.Digits.Lemmas
import PeerOverlay.Proofs.Text.Pieces

/-!
# Decimal numbers in a text

A row of decimal digits has a value, whatever its length and however many zeros it starts with.
The reader of numerals accepts exactly these rows and finds their value
(`read?_ten_eq_some_iff`).  What stands behind the last separator of a text is told by having no
separator.
-/

namespace PeerOverlay

namespace Numeral

/-! ## Rows of decimal digits -/

def IsDecimalDigit (char : Char) : Prop :=
  '0' ≤ char ∧ char ≤ '9'

instance : DecidablePred IsDecimalDigit :=
  fun char => inferInstanceAs (Decidable ('0' ≤ char ∧ char ≤ '9'))

structure IsDecimal (row : List Char) : Prop where
  some? : row ≠ []
  digits : ∀ char ∈ row, IsDecimalDigit char

/-- The number that a row of decimal digits writes, the last digit counting once. -/
def decimalValue (row : List Char) : Nat :=
  Nat.ofDigits 10 (row.reverse.map fun digit => digit.toNat - '0'.toNat)

theorem decimalValue_cons (digit : Char) (rest : List Char) :
    decimalValue (digit :: rest) =
      (digit.toNat - '0'.toNat) * 10 ^ rest.length + decimalValue rest := by
  rw [decimalValue, List.reverse_cons, List.map_append, Nat.ofDigits_append, List.length_map,
    List.length_reverse, List.map_singleton, Nat.ofDigits_singleton, Nat.mul_comm, Nat.add_comm]
  rfl

theorem digitValue?_ten_eq_some_iff {char : Char} {value : Nat} :
    digitValue? 10 char = some value ↔
      IsDecimalDigit char ∧ char.toNat - '0'.toNat = value := by
  have codes : '0'.toNat = 48 ∧ '9'.toNat = 57 ∧ 'a'.toNat = 97 ∧ 'A'.toNat = 65 := by decide
  have order (first second : Char) : first ≤ second ↔ first.toNat ≤ second.toNat := Iff.rfl
  unfold digitValue? IsDecimalDigit
  simp only [order, codes]
  split
  · next decimal => simp [decimal]; omega
  · next other =>
      -- Letters count from ten, and everything else counts as the base.
      have none : ¬ (48 ≤ char.toNat ∧ char.toNat ≤ 57) := other
      split
      · simp [none]
      · split
        · simp [none]
        · simp [none]

/-- Reading goes on from a number by as many places as there are digits. -/
theorem extend?_ten_eq_some_iff {value number : Nat} {row : List Char} :
    extend? 10 value row = some number ↔
      (∀ char ∈ row, IsDecimalDigit char) ∧
        value * 10 ^ row.length + decimalValue row = number := by
  induction row generalizing value with
  | nil => simp [extend?, decimalValue]
  | cons digit rest hypothesis =>
      rw [extend?, List.forall_mem_cons, decimalValue_cons]
      by_cases decimal : IsDecimalDigit digit
      · have known := digitValue?_ten_eq_some_iff.2 ⟨decimal, rfl⟩
        have places : value * 10 ^ (digit :: rest).length =
            value * 10 * 10 ^ rest.length := by
          rw [List.length_cons, Nat.pow_succ, Nat.mul_comm (10 ^ rest.length), Nat.mul_assoc]
        rw [known, places, ← Nat.add_assoc, ← Nat.add_mul]
        simp only [hypothesis, decimal, true_and]
      · cases known : digitValue? 10 digit with
        | none => simp [decimal]
        | some next => exact absurd (digitValue?_ten_eq_some_iff.1 known).1 decimal

/-- Exactly the rows of decimal digits are read, as their value. -/
theorem read?_ten_eq_some_iff {row : List Char} {value : Nat} :
    read? 10 row = some value ↔ IsDecimal row ∧ decimalValue row = value := by
  by_cases none : row = []
  · rw [read?, if_pos none]
    exact iff_of_false (Option.some_ne_none value).symm fun decimal => decimal.1.some? none
  · rw [read?, if_neg none, extend?_ten_eq_some_iff, Nat.zero_mul, Nat.zero_add]
    exact and_congr_left' ⟨fun digits => ⟨none, digits⟩, fun decimal => decimal.digits⟩

theorem isDecimal_render (value : Nat) :
    IsDecimal (render 10 value) ∧ decimalValue (render 10 value) = value :=
  read?_ten_eq_some_iff.1 (read?_render (by decide) (by decide) value)

theorem IsDecimal.not_mem {row : List Char} (decimal : IsDecimal row) {char : Char}
    (other : ¬ IsDecimalDigit char) : char ∉ row :=
  fun member => other (decimal.digits char member)

end Numeral

/-! ## The last separator -/

namespace Text

variable {separator : Char}

theorem cutAtLast?_eq_none_iff {text : List Char} :
    cutAtLast? separator text = none ↔ separator ∉ text := by
  induction text with
  | nil => exact iff_of_true rfl List.not_mem_nil
  | cons head rest hypothesis =>
      rw [cutAtLast?, List.mem_cons, not_or, ← hypothesis]
      cases cutAtLast? separator rest with
      | none => simp [eq_comm]
      | some parts => simp

theorem cutAtLast?_append {back : List Char} (whole : separator ∉ back) (front : List Char) :
    cutAtLast? separator (front ++ separator :: back) = some (front, back) := by
  induction front with
  | nil =>
      rw [List.nil_append, cutAtLast?, cutAtLast?_eq_none_iff.2 whole]
      exact if_pos rfl
  | cons head rest hypothesis =>
      rw [List.cons_append, cutAtLast?, hypothesis]

/-- What stands behind the last separator has none. -/
theorem cutAtLast?_eq_some_iff {text front back : List Char} :
    cutAtLast? separator text = some (front, back) ↔
      text = front ++ separator :: back ∧ separator ∉ back := by
  refine ⟨fun cut => ?_, fun ⟨same, whole⟩ => same ▸ cutAtLast?_append whole front⟩
  induction text generalizing front with
  | nil => cases cut
  | cons head rest hypothesis =>
      rw [cutAtLast?] at cut
      cases later : cutAtLast? separator rest with
      | some parts =>
          rw [later] at cut
          cases cut
          obtain ⟨same, whole⟩ := hypothesis later
          exact ⟨by rw [same, List.cons_append], whole⟩
      | none =>
          rw [later] at cut
          obtain ⟨here, same⟩ := Option.ite_none_right_eq_some.1 cut
          cases same
          exact ⟨by rw [here, List.nil_append], cutAtLast?_eq_none_iff.1 later⟩

/-- A text is cut in one way only into what stands before and behind the last separator. -/
theorem append_cons_inj_of_not_mem {front back others behind : List Char}
    (whole : separator ∉ back) (wholeOther : separator ∉ behind)
    (same : front ++ separator :: back = others ++ separator :: behind) :
    front = others ∧ back = behind := by
  have cut := cutAtLast?_append whole front
  rw [same, cutAtLast?_append wholeOther] at cut
  cases cut
  exact ⟨rfl, rfl⟩

end Text

end PeerOverlay
