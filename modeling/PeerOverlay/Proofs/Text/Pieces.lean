import Mathlib.Data.List.Basic
import PeerOverlay.Text.Blank
import PeerOverlay.Text.Numeral
import PeerOverlay.Text.Pieces

/-!
# Parts of a text

Parts without separators that are glued together are the pieces of what comes out,
and blanks around a part are taken away again.  Digits are neither separators nor
blanks.
-/

namespace PeerOverlay

namespace Text

variable {separator : Char}

/-! ## Pieces -/

theorem pieces_cons_of_ne {char : Char} (other : char ≠ separator) (rest : List Char) :
    ∃ first others, pieces separator rest = first :: others ∧
      pieces separator (char :: rest) = (char :: first) :: others := by
  obtain ⟨first, others, same⟩ := List.exists_cons_of_ne_nil (pieces_ne_nil separator rest)
  refine ⟨first, others, same, ?_⟩
  rw [pieces, if_neg other, same]

/-- A text without a separator is its own only piece. -/
theorem pieces_of_not_mem {text : List Char} (whole : separator ∉ text) :
    pieces separator text = [text] := by
  induction text with
  | nil => rfl
  | cons char rest hypothesis =>
      rw [List.mem_cons, not_or] at whole
      rw [pieces, if_neg (Ne.symm whole.1), hypothesis whole.2]

theorem mem_of_mem_pieces {text part : List Char} {char : Char}
    (known : part ∈ pieces separator text) (inside : char ∈ part) : char ∈ text := by
  induction text generalizing part with
  | nil =>
      rw [List.mem_singleton.1 known] at inside
      exact absurd inside List.not_mem_nil
  | cons head rest hypothesis =>
      by_cases same : head = separator
      · rw [pieces, if_pos same] at known
        rcases List.mem_cons.1 known with rfl | behind
        · exact absurd inside List.not_mem_nil
        · exact List.mem_cons_of_mem head (hypothesis behind inside)
      · obtain ⟨first, others, start, extended⟩ := pieces_cons_of_ne same rest
        rw [extended] at known
        rw [start] at hypothesis
        rcases List.mem_cons.1 known with rfl | behind
        · rcases List.mem_cons.1 inside with rfl | later
          · exact List.mem_cons_self
          · exact List.mem_cons_of_mem head (hypothesis List.mem_cons_self later)
        · exact List.mem_cons_of_mem head (hypothesis (List.mem_cons_of_mem first behind) inside)

/-- A separator ends the pieces before it. -/
theorem pieces_append (front back : List Char) :
    pieces separator (front ++ separator :: back) =
      pieces separator front ++ pieces separator back := by
  induction front with
  | nil => exact if_pos rfl
  | cons char rest hypothesis =>
      rw [List.cons_append]
      by_cases same : char = separator
      · rw [pieces, if_pos same, pieces, if_pos same, hypothesis]
        rfl
      · obtain ⟨first, others, start, extended⟩ := pieces_cons_of_ne same rest
        rw [pieces, if_neg same, hypothesis, start, extended]
        rfl

theorem glue_singleton (part : List Char) : glue separator [part] = part := by
  simp [glue, List.intercalate]

theorem glue_cons_cons (part next : List Char) (others : List (List Char)) :
    glue separator (part :: next :: others) =
      part ++ separator :: glue separator (next :: others) := by
  simp [glue, List.intercalate]

theorem glue_append {front back : List (List Char)} (someFront : front ≠ [])
    (someBack : back ≠ []) :
    glue separator (front ++ back) = glue separator front ++ separator :: glue separator back := by
  induction front with
  | nil => exact absurd rfl someFront
  | cons part others hypothesis =>
      cases others with
      | nil =>
          obtain ⟨next, behind, rfl⟩ := List.exists_cons_of_ne_nil someBack
          rw [List.singleton_append, glue_cons_cons, glue_singleton]
      | cons next rest =>
          rw [List.cons_append, List.cons_append, glue_cons_cons, ← List.cons_append,
            hypothesis (List.cons_ne_nil next rest), glue_cons_cons, List.append_assoc,
            List.cons_append]

theorem mem_glue {parts : List (List Char)} {char : Char} (member : char ∈ glue separator parts) :
    char = separator ∨ ∃ part ∈ parts, char ∈ part := by
  induction parts with
  | nil => exact absurd member List.not_mem_nil
  | cons part others hypothesis =>
      cases others with
      | nil =>
          rw [glue_singleton] at member
          exact .inr ⟨part, List.mem_cons_self, member⟩
      | cons next behind =>
          rw [glue_cons_cons] at member
          rcases List.mem_append.1 member with here | later
          · exact .inr ⟨part, List.mem_cons_self, here⟩
          · rcases List.mem_cons.1 later with same | later
            · exact .inl same
            · rcases hypothesis later with same | ⟨other, known, inside⟩
              · exact .inl same
              · exact .inr ⟨other, List.mem_cons_of_mem part known, inside⟩

/-- Cutting undoes gluing. -/
theorem pieces_glue {parts : List (List Char)} (some? : parts ≠ [])
    (whole : ∀ part ∈ parts, separator ∉ part) :
    pieces separator (glue separator parts) = parts := by
  induction parts with
  | nil => exact absurd rfl some?
  | cons part others hypothesis =>
      have single := pieces_of_not_mem (whole part List.mem_cons_self)
      cases others with
      | nil =>
          rw [glue_singleton, single]
      | cons next behind =>
          have rest := hypothesis (List.cons_ne_nil next behind) fun other member =>
            whole other (List.mem_cons_of_mem part member)
          rw [glue_cons_cons, pieces_append, single, rest]
          rfl

theorem glue_ne_nil {parts : List (List Char)} (whole : ∀ part ∈ parts, separator ∉ part)
    {part : List Char} (member : part ∈ parts) (filled : part ≠ []) : glue separator parts ≠ [] := by
  intro empty
  have cut := pieces_glue (List.ne_nil_of_mem member) whole
  rw [empty] at cut
  rw [← cut] at member
  exact filled (List.mem_singleton.1 member)

/-! ## Blanks -/

/-- Whether a part is made of characters that are no blanks. -/
structure IsWord (part : List Char) : Prop where
  some : part ≠ []
  printed : ∀ char ∈ part, isBlank char = false

theorem dropWhile_isBlank_append {blanks part : List Char} (word : IsWord part)
    (blank : ∀ char ∈ blanks, isBlank char) (behind : List Char) :
    (blanks ++ (part ++ behind)).dropWhile isBlank = part ++ behind := by
  obtain ⟨first, others, same⟩ := List.exists_cons_of_ne_nil word.some
  rw [List.dropWhile_append_of_pos blank, same, List.cons_append]
  apply List.dropWhile_cons_of_neg
  simp [word.printed first (by simp [same])]

theorem IsWord.reverse {part : List Char} (word : IsWord part) : IsWord part.reverse where
  some := by simpa using word.some
  printed := by simpa using word.printed

/-- Blanks around a word are taken away, and nothing else. -/
theorem trim_append {before part behind : List Char} (word : IsWord part)
    (blankBefore : ∀ char ∈ before, isBlank char)
    (blankBehind : ∀ char ∈ behind, isBlank char) : trim (before ++ (part ++ behind)) = part := by
  have blankReverse : ∀ char ∈ behind.reverse, isBlank char := by
    intro char member
    exact blankBehind char (List.mem_reverse.1 member)
  have reversed := dropWhile_isBlank_append word.reverse blankReverse []
  rw [List.append_nil] at reversed
  rw [trim, dropWhile_isBlank_append word blankBefore, List.reverse_append, reversed,
    List.reverse_reverse]

end Text

/-! ## Digits -/

namespace Numeral

theorem exists_digitChar_of_mem {base : Nat} (large : 1 < base) {value : Nat} {char : Char}
    (member : char ∈ render base value) : ∃ digit < base, char = digit.digitChar := by
  induction value using Nat.strongRecOn with
  | ind value hypothesis =>
      unfold render at member hypothesis
      by_cases below : value < base
      · rw [Nat.toDigits_of_lt_base below] at member
        exact ⟨value, below, List.mem_singleton.1 member⟩
      · rw [Nat.toDigits_of_base_le large (Nat.le_of_not_lt below)] at member
        rcases List.mem_append.1 member with front | last
        · exact hypothesis _ (Nat.div_lt_self (by omega) large) front
        · exact ⟨value % base, Nat.mod_lt value (by omega), List.mem_singleton.1 last⟩

theorem digitChar_plain {digit : Nat} (below : digit < 16) :
    Text.isBlank digit.digitChar = false ∧ digit.digitChar ≠ '|' ∧ digit.digitChar ≠ '+' ∧
      digit.digitChar ≠ '.' ∧ digit.digitChar ≠ ':' ∧
      digit.digitChar.toLower = digit.digitChar := by
  have all : ∀ digit : Fin 16, Text.isBlank digit.val.digitChar = false ∧
      digit.val.digitChar ≠ '|' ∧ digit.val.digitChar ≠ '+' ∧ digit.val.digitChar ≠ '.' ∧
      digit.val.digitChar ≠ ':' ∧ digit.val.digitChar.toLower = digit.val.digitChar := by
    decide
  exact all ⟨digit, below⟩

/-- Digits are no blanks, signs or separators, and small letters. -/
theorem plain_of_mem_render {base : Nat} (large : 1 < base) (small : base ≤ 16) {value : Nat}
    {char : Char} (member : char ∈ render base value) :
    Text.isBlank char = false ∧ char ≠ '|' ∧ char ≠ '+' ∧ char ≠ '.' ∧ char ≠ ':' ∧
      char.toLower = char := by
  obtain ⟨digit, below, rfl⟩ := exists_digitChar_of_mem large member
  exact digitChar_plain (Nat.lt_of_lt_of_le below small)

/-- A row can be read exactly if all of it are digits. -/
theorem isSome_extend?_iff {base value : Nat} {digits : List Char} :
    (extend? base value digits).isSome ↔ ∀ digit ∈ digits, (digitValue? base digit).isSome := by
  induction digits generalizing value with
  | nil => simp [extend?]
  | cons digit rest hypothesis =>
      rw [extend?, List.forall_mem_cons]
      cases digitValue? base digit with
      | none => simp
      | some next => simp [hypothesis]

theorem isSome_read?_iff {base : Nat} {digits : List Char} :
    (read? base digits).isSome ↔
      digits ≠ [] ∧ ∀ digit ∈ digits, (digitValue? base digit).isSome := by
  rw [← @isSome_extend?_iff base 0, read?]
  split
  · next none => simp [none]
  · next some? => simp [some?]

theorem lt_of_digitValue? {base value : Nat} {digit : Char}
    (read : digitValue? base digit = some value) : value < base := by
  obtain ⟨below, same⟩ := Option.ite_none_right_eq_some.1 read
  rwa [← Option.some.inj same]

/-- A row of digits has no more values than there are rows of its length. -/
theorem lt_of_extend? {base value number : Nat} {digits : List Char}
    (read : extend? base value digits = some number) :
    number < (value + 1) * Nat.pow base digits.length := by
  induction digits generalizing value with
  | nil =>
      cases read
      simp
  | cons digit rest hypothesis =>
      rw [extend?] at read
      cases known : digitValue? base digit with
      | none =>
          rw [known] at read
          cases read
      | some next =>
          rw [known] at read
          have below := lt_of_digitValue? known
          calc number < (value * base + next + 1) * Nat.pow base rest.length := hypothesis read
            _ ≤ ((value + 1) * base) * Nat.pow base rest.length := by
              apply Nat.mul_le_mul_right
              rw [Nat.add_mul]
              omega
            _ = (value + 1) * (Nat.pow base rest.length * base) := by
              rw [Nat.mul_assoc, Nat.mul_comm base]
            _ = (value + 1) * Nat.pow base (digit :: rest).length := rfl

theorem render_ne_nil (base value : Nat) : render base value ≠ [] :=
  Nat.toDigits_ne_nil

theorem readSigned?_render {base : Nat} (large : 1 < base) (small : base ≤ 16) (value : Nat) :
    readSigned? base (render base value) = some value := by
  rw [readSigned?]
  · exact read?_render large small value
  · intro digits same
    have member : '+' ∈ render base value := by simp [same]
    obtain ⟨_, _, unsigned, _⟩ := plain_of_mem_render large small member
    exact unsigned rfl

end Numeral

end PeerOverlay
