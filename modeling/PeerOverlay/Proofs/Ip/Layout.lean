import PeerOverlay.Ip.Literal
import PeerOverlay.Proofs.Text.Pieces

/-!
# The layout of a literal

The parts of an IPv6 literal are groups, and empty ones where a doubled colon stands.  What is
asked of the empty parts at the ends and inside comes to three layouts (`layout_iff`), and the
parts that form a literal are told by their layout, with or without a dotted quad at the end.
-/

namespace PeerOverlay.Ip

open PeerOverlay.Text

/-! ## Layouts of parts -/

/-- The pieces of a text that has single colons between its parts; a text without parts is one
empty piece. -/
def sided (parts : List (List Char)) : List (List Char) :=
  if parts = [] then [[]] else parts

theorem sided_ne_nil (parts : List (List Char)) : sided parts ≠ [] := by
  unfold sided
  split
  · exact List.cons_ne_nil [] []
  · assumption

/-- A text with a doubled colon and single colons between the parts on both sides of it. -/
def elided (front back : List (List Char)) : List Char :=
  glue ':' front ++ ':' :: ':' :: glue ':' back

/-- How empty parts may stand among the parts of a literal: there is none, or they come from one
doubled colon.  A text that starts with the doubled colon may also end in a single one. -/
inductive Layout (parts : List (List Char)) : Prop where
  | full (eight : parts.length = 8) (each : [] ∉ parts)
  | elided (front back : List (List Char)) (each : [] ∉ front ++ back)
      (same : parts = sided front ++ [] :: sided back)
  | dangling (back : List (List Char)) (some? : back ≠ []) (each : [] ∉ back)
      (same : parts = [] :: [] :: (back ++ [[]]))

section Ends

variable {first last : List Char} {inner : List (List Char)}

theorem exists_ends {parts : List (List Char)} (least : 3 ≤ parts.length) :
    ∃ first inner last, inner ≠ [] ∧ parts = first :: (inner ++ [last]) := by
  obtain ⟨first, others, rfl⟩ := List.exists_cons_of_length_pos (by omega : 0 < parts.length)
  rcases List.eq_nil_or_concat others with rfl | ⟨inner, last, rfl⟩
  · simp at least
  · refine ⟨first, inner, last, ?_, by rw [List.concat_eq_append]⟩
    rintro rfl
    simp at least

theorem innerParts_ends : innerParts (first :: (inner ++ [last])) = inner := by
  rw [innerParts, List.tail_cons, List.dropLast_concat]

/-- What the ends of the parts tell about the part next to them. -/
theorem elisionFits_ends (some? : inner ≠ []) :
    elisionFits (first :: (inner ++ [last])) = true ↔
      (first = [] → inner.head? = some []) ∧
        (first ≠ [] → last = [] → inner.getLast? = some []) ∧
        (first ≠ [] → last ≠ [] → inner.length = 6 ∨ [] ∈ inner) := by
  obtain ⟨second, others, same⟩ := List.exists_cons_of_ne_nil some?
  obtain ⟨initial, previous, ends⟩ :=
    (List.eq_nil_or_concat inner).resolve_left some?
  rw [List.concat_eq_append] at ends
  by_cases leading : first = []
  · rw [leading, same]
    simp [elisionFits]
  · obtain ⟨char, chars, rfl⟩ := List.exists_cons_of_ne_nil leading
    by_cases trailing : last = []
    · rw [trailing, ends]
      simp [elisionFits]
    · obtain ⟨char, chars, rfl⟩ := List.exists_cons_of_ne_nil trailing
      unfold elisionFits
      rw [innerParts_ends]
      simp [ends]

theorem countP_isEmpty_eq_zero_iff : inner.countP List.isEmpty = 0 ↔ [] ∉ inner := by
  rw [List.countP_eq_zero]
  simp only [List.isEmpty_iff]
  constructor
  · exact fun each member => each [] member rfl
  · exact fun absent part member empty => absent (empty ▸ member)

/-- At most one of some parts is empty if there is none, or one between the others. -/
theorem countP_isEmpty_le_one_iff :
    inner.countP List.isEmpty ≤ 1 ↔
      [] ∉ inner ∨ ∃ before behind, inner = before ++ [] :: behind ∧ [] ∉ before ++ behind := by
  by_cases member : [] ∈ inner
  · obtain ⟨before, behind, rfl, absent⟩ := List.eq_append_cons_of_mem member
    have count : (before ++ [] :: behind).countP List.isEmpty =
        behind.countP List.isEmpty + 1 := by
      rw [List.countP_append, countP_isEmpty_eq_zero_iff.2 absent, List.countP_cons_of_pos rfl,
        Nat.zero_add]
    constructor
    · intro most
      have none : [] ∉ behind := countP_isEmpty_eq_zero_iff.1 (by omega)
      exact .inr ⟨before, behind, rfl, by simp [absent, none]⟩
    · rintro (none | ⟨front, back, same, each⟩)
      · exact absurd member none
      · rw [same, List.countP_append, List.countP_cons_of_pos rfl]
        rw [List.mem_append, not_or] at each
        have noneBefore := countP_isEmpty_eq_zero_iff.2 each.1
        have noneBehind := countP_isEmpty_eq_zero_iff.2 each.2
        omega
  · have none := countP_isEmpty_eq_zero_iff.2 member
    exact iff_of_true (by omega) (.inl member)

theorem exists_sided_eq_cons_iff :
    (∃ front, [] ∉ front ∧ sided front = first :: inner) ↔
      [] ∉ inner ∧ (first = [] → inner = []) := by
  constructor
  · rintro ⟨front, each, same⟩
    unfold sided at same
    split at same
    · cases same
      exact ⟨List.not_mem_nil, fun _ => rfl⟩
    · rw [same, List.mem_cons, not_or] at each
      exact ⟨each.2, fun empty => absurd empty.symm each.1⟩
  · rintro ⟨each, alone⟩
    by_cases empty : first = []
    · exact ⟨[], List.not_mem_nil, by rw [empty, alone empty]; rfl⟩
    · refine ⟨first :: inner, ?_, if_neg (List.cons_ne_nil first inner)⟩
      rw [List.mem_cons, not_or]
      exact ⟨Ne.symm empty, each⟩

theorem exists_sided_eq_concat_iff :
    (∃ back, [] ∉ back ∧ sided back = inner ++ [last]) ↔
      [] ∉ inner ∧ (last = [] → inner = []) := by
  constructor
  · rintro ⟨back, each, same⟩
    unfold sided at same
    split at same
    · have lengths := congrArg List.length same
      have none : inner = [] := List.eq_nil_of_length_eq_zero (by simpa using lengths.symm)
      rw [none]
      exact ⟨List.not_mem_nil, fun _ => rfl⟩
    · rw [same, List.mem_append, not_or, List.mem_singleton] at each
      exact ⟨each.1, fun empty => absurd empty.symm each.2⟩
  · rintro ⟨each, alone⟩
    by_cases empty : last = []
    · exact ⟨[], List.not_mem_nil, by rw [empty, alone empty]; rfl⟩
    · refine ⟨inner ++ [last], ?_, if_neg (by simp)⟩
      rw [List.mem_append, not_or, List.mem_singleton]
      exact ⟨each, Ne.symm empty⟩

theorem eq_nil_of_head?_append {before behind : List (List Char)} (each : [] ∉ before)
    (head : (before ++ [] :: behind).head? = some []) : before = [] := by
  by_contra some?
  rw [List.head?_append_of_ne_nil before some?] at head
  exact each (List.mem_of_mem_head? head)

theorem eq_nil_of_getLast?_append {before behind : List (List Char)} (each : [] ∉ behind)
    (last : (before ++ [] :: behind).getLast? = some []) : behind = [] := by
  by_contra some?
  rw [List.getLast?_append_of_ne_nil _ (List.cons_ne_nil [] behind),
    List.getLast?_cons_of_ne_nil some?] at last
  exact each (List.mem_of_getLast? last)

theorem layout_of_fits (single : inner.countP List.isEmpty ≤ 1) (some? : inner ≠ [])
    (fits : elisionFits (first :: (inner ++ [last])) = true) :
    Layout (first :: (inner ++ [last])) := by
  obtain ⟨leading, trailing, filled⟩ := (elisionFits_ends some?).1 fits
  rcases countP_isEmpty_le_one_iff.1 single with none | ⟨before, behind, rfl, each⟩
  · have started : first ≠ [] := fun empty => none (List.mem_of_mem_head? (leading empty))
    have ended : last ≠ [] := fun empty => none (List.mem_of_getLast? (trailing started empty))
    refine .full ?_ (by simp [none, Ne.symm started, Ne.symm ended])
    have six := (filled started ended).resolve_right none
    simp [six]
  · rw [List.mem_append, not_or] at each
    have atFront (empty : first = []) : before = [] :=
      eq_nil_of_head?_append each.1 (leading empty)
    -- An empty last part with others before it is not half of the doubled colon.
    by_cases hangs : last = [] ∧ behind ≠ []
    · obtain ⟨empty, some?⟩ := hangs
      have started : first = [] := by
        by_contra started
        exact some? (eq_nil_of_getLast?_append each.2 (trailing started empty))
      refine .dangling behind some? each.2 ?_
      rw [started, atFront started, empty]
      rfl
    · have atBack (empty : last = []) : behind = [] := by
        by_contra some?
        exact hangs ⟨empty, some?⟩
      obtain ⟨front, frontEach, sidedFront⟩ := exists_sided_eq_cons_iff.2 ⟨each.1, atFront⟩
      obtain ⟨back, backEach, sidedBack⟩ := exists_sided_eq_concat_iff.2 ⟨each.2, atBack⟩
      refine .elided front back (by simp [frontEach, backEach]) ?_
      rw [sidedFront, sidedBack]
      simp

theorem Layout.fits (layout : Layout (first :: (inner ++ [last]))) (some? : inner ≠ []) :
    inner.countP List.isEmpty ≤ 1 ∧ elisionFits (first :: (inner ++ [last])) = true := by
  rw [elisionFits_ends some?, countP_isEmpty_le_one_iff]
  cases layout with
  | full eight each =>
      simp only [List.mem_cons, List.mem_append, List.not_mem_nil, or_false, not_or] at each
      obtain ⟨started, none, ended⟩ := each
      have six : inner.length = 6 := by simpa using eight
      exact ⟨.inl none, fun empty => absurd empty.symm started,
        fun _ empty => absurd empty.symm ended, fun _ _ => .inl six⟩
  | elided front back each same =>
      -- The first and the last part are the outer ends of the two sides.
      rw [List.mem_append, not_or] at each
      obtain ⟨start, before, sidedFront⟩ := List.exists_cons_of_ne_nil (sided_ne_nil front)
      obtain ⟨behind, ending, sidedBack⟩ :=
        (List.eq_nil_or_concat (sided back)).resolve_left (sided_ne_nil back)
      rw [List.concat_eq_append] at sidedBack
      obtain ⟨beforeEach, atFront⟩ := exists_sided_eq_cons_iff.1 ⟨front, each.1, sidedFront⟩
      obtain ⟨behindEach, atBack⟩ := exists_sided_eq_concat_iff.1 ⟨back, each.2, sidedBack⟩
      have ends : first :: (inner ++ [last]) =
          start :: ((before ++ [] :: behind) ++ [ending]) := by
        rw [same, sidedFront, sidedBack]
        simp
      obtain ⟨rfl, rest⟩ := List.cons.inj ends
      obtain ⟨rfl, lasts⟩ := List.append_inj' rest rfl
      cases lasts
      refine ⟨.inr ⟨before, behind, rfl, by simp [beforeEach, behindEach]⟩, ?_, ?_, ?_⟩
      · intro empty
        rw [atFront empty]
        rfl
      · intro _ empty
        rw [atBack empty]
        simp
      · exact fun _ _ => .inr (by simp)
  | dangling back someBack each same =>
      have ends : first :: (inner ++ [last]) = [] :: (([] :: back) ++ [[]]) := same
      obtain ⟨rfl, rest⟩ := List.cons.inj ends
      obtain ⟨rfl, _⟩ := List.append_inj' rest rfl
      exact ⟨.inr ⟨[], back, rfl, each⟩, fun _ => rfl, fun started => absurd rfl started,
        fun started => absurd rfl started⟩

end Ends

theorem layout_iff {parts : List (List Char)} (least : 3 ≤ parts.length) :
    (innerParts parts).countP List.isEmpty ≤ 1 ∧ elisionFits parts = true ↔ Layout parts := by
  obtain ⟨first, inner, last, some?, rfl⟩ := exists_ends least
  rw [innerParts_ends]
  exact ⟨fun fits => layout_of_fits fits.1 some? fits.2, fun layout => layout.fits some?⟩

theorem mem_sided {part : List Char} {parts : List (List Char)} (member : part ∈ sided parts) :
    part ∈ parts ∨ part = [] := by
  unfold sided at member
  split at member
  · exact .inr (List.mem_singleton.1 member)
  · exact .inl member

theorem mem_sided_of_mem {part : List Char} {parts : List (List Char)} (member : part ∈ parts) :
    part ∈ sided parts := by
  rwa [sided, if_neg (List.ne_nil_of_mem member)]

theorem glue_sided (parts : List (List Char)) : glue ':' (sided parts) = glue ':' parts := by
  unfold sided
  split
  · next none => rw [none]; rfl
  · rfl

theorem glue_sided_append_sided (front back : List (List Char)) :
    glue ':' (sided front ++ [] :: sided back) = elided front back := by
  obtain ⟨first, rest, same⟩ := List.exists_cons_of_ne_nil (sided_ne_nil back)
  rw [glue_append (sided_ne_nil front) (List.cons_ne_nil [] _), glue_sided, same, glue_cons_cons,
    ← same, glue_sided]
  rfl

theorem pieces_glue_eq_sided {parts : List (List Char)} (whole : ∀ part ∈ parts, ':' ∉ part) :
    pieces ':' (glue ':' parts) = sided parts := by
  unfold sided
  split
  · next none => rw [none]; rfl
  · next some? => exact pieces_glue some? whole

theorem pieces_elided {front back : List (List Char)} (whole : ∀ part ∈ front ++ back, ':' ∉ part) :
    pieces ':' (elided front back) = sided front ++ [] :: sided back := by
  rw [elided, pieces_append, pieces, if_pos rfl,
    pieces_glue_eq_sided fun part member => whole part (List.mem_append_left back member),
    pieces_glue_eq_sided fun part member => whole part (List.mem_append_right front member)]

/-! ## Parts -/

/-- A hexadecimal digit, in letters of either case. -/
def IsHex (char : Char) : Prop :=
  ('0' ≤ char ∧ char ≤ '9') ∨ ('a' ≤ char ∧ char ≤ 'f') ∨ ('A' ≤ char ∧ char ≤ 'F')

/-- One to four hexadecimal digits. -/
structure IsGroup (part : List Char) : Prop where
  some? : part ≠ []
  short : part.length ≤ 4
  digits : ∀ char ∈ part, IsHex char

theorem isHexDigit_iff {char : Char} : isHexDigit char = true ↔ IsHex char := by
  have values : '0'.toNat = 48 ∧ '9'.toNat = 57 ∧ 'a'.toNat = 97 ∧ 'f'.toNat = 102 ∧
      'A'.toNat = 65 ∧ 'F'.toNat = 70 := by decide
  have order (first second : Char) : first ≤ second ↔ first.toNat ≤ second.toNat := Iff.rfl
  unfold isHexDigit Numeral.digitValue? IsHex
  simp only [order, values]
  split
  · next decimal => simp [decimal]; omega
  · split
    · next small => simp [small]; omega
    · split
      · next large => simp [large]; omega
      · simp [*]

theorem not_isHex_dot : ¬ IsHex '.' := by
  unfold IsHex
  decide

theorem not_isHex_colon : ¬ IsHex ':' := by
  unfold IsHex
  decide

theorem isGroup_iff {part : List Char} : IsGroup part ↔ part ≠ [] ∧ isHexGroup part = true := by
  rw [isHexGroup, Bool.and_eq_true, decide_eq_true_eq, List.all_eq_true]
  simp only [isHexDigit_iff]
  exact ⟨fun group => ⟨group.some?, group.short, group.digits⟩, fun ⟨some?, short, digits⟩ =>
    ⟨some?, short, digits⟩⟩

instance : DecidablePred IsGroup :=
  fun _ => decidable_of_iff _ isGroup_iff.symm

theorem isHexGroup_nil : isHexGroup [] = true := rfl

namespace IsGroup

variable {part : List Char}

theorem isHexGroup (group : IsGroup part) : isHexGroup part = true :=
  (isGroup_iff.1 group).2

theorem colon_not_mem (group : IsGroup part) : ':' ∉ part :=
  fun member => not_isHex_colon (group.digits ':' member)

theorem dot_not_mem (group : IsGroup part) : '.' ∉ part :=
  fun member => not_isHex_dot (group.digits '.' member)

end IsGroup

/-! ## Dotted quads -/

theorem Quad.read?_of_not_mem {text : List Char} (noDot : '.' ∉ text) : read? text = none := by
  rw [read?, pieces_of_not_mem noDot]

theorem isQuadLiteral_eq_false {text : List Char} (noDot : '.' ∉ text) :
    isQuadLiteral text = false := by
  rw [isQuadLiteral, Quad.read?_of_not_mem noDot]
  rfl

theorem isHexGroup_eq_false_of_dot {part : List Char} (dot : '.' ∈ part) :
    isHexGroup part = false := by
  rw [Bool.eq_false_iff]
  intro group
  exact (isGroup_iff.2 ⟨List.ne_nil_of_mem dot, group⟩).dot_not_mem dot

theorem dot_mem_of_isQuadLiteral {quad : List Char} (isQuad : isQuadLiteral quad = true) :
    '.' ∈ quad := by
  by_contra noDot
  rw [isQuadLiteral_eq_false noDot] at isQuad
  cases isQuad

theorem digits_of_octet? {digits : List Char} {octet : UInt8} (read : octet? digits = some octet)
    {char : Char} (member : char ∈ digits) : (Numeral.digitValue? 10 char).isSome := by
  unfold octet? at read
  split at read
  · next value known =>
      have digit := Numeral.isSome_read?_iff.1 (Option.isSome_of_eq_some known)
      exact digit.2 char member
  · cases read

/-- A dotted quad is made of decimal digits and dots. -/
theorem decimal_of_isQuadLiteral {quad : List Char} (isQuad : isQuadLiteral quad = true)
    {char : Char} (member : char ∈ quad) :
    char = '.' ∨ (Numeral.digitValue? 10 char).isSome := by
  rw [← gluePieces '.' quad] at member
  refine (mem_glue member).imp_right ?_
  rintro ⟨part, known, inside⟩
  obtain ⟨value, read⟩ := Option.isSome_iff_exists.1 isQuad
  unfold Quad.read? at read
  split at read
  · next a b c d parts =>
      simp only [Option.bind_eq_bind, Option.bind_eq_some_iff] at read
      obtain ⟨first, readFirst, second, readSecond, third, readThird, fourth, readFourth, _⟩ := read
      rw [parts] at known
      simp only [List.mem_cons, List.not_mem_nil, or_false] at known
      rcases known with rfl | rfl | rfl | rfl
      · exact digits_of_octet? readFirst inside
      · exact digits_of_octet? readSecond inside
      · exact digits_of_octet? readThird inside
      · exact digits_of_octet? readFourth inside
  · cases read

theorem colon_not_mem_of_isQuadLiteral {quad : List Char} (isQuad : isQuadLiteral quad = true) :
    ':' ∉ quad := by
  intro colon
  rcases decimal_of_isQuadLiteral isQuad colon with dot | digit
  · cases dot
  · revert digit
    decide

/-! ## Parts that form a literal -/

section Parts

variable {parts : List (List Char)} {quad : List Char}

theorem not_mem_lastPart {char : Char} (absent : ∀ part ∈ parts, char ∉ part) :
    char ∉ lastPart parts := by
  unfold lastPart
  cases last : parts.getLast? with
  | none => exact List.not_mem_nil
  | some part => exact absent part (List.mem_of_getLast? last)

/-- Groups at the end are no dotted quad. -/
theorem plain_of_isHexGroup (each : ∀ part ∈ parts, isHexGroup part = true) :
    isQuadLiteral (lastPart parts) = false := by
  apply isQuadLiteral_eq_false
  apply not_mem_lastPart
  intro part member dot
  have group := each part member
  rw [isHexGroup_eq_false_of_dot dot] at group
  cases group

theorem lastPart_concat (parts : List (List Char)) (last : List Char) :
    lastPart (parts ++ [last]) = last := by
  rw [lastPart, List.getLast?_concat]
  rfl

/-- Without a dotted quad at the end, the parts are groups and laid out as a literal is. -/
theorem partsFormLiteral_iff_of_plain (plain : isQuadLiteral (lastPart parts) = false) :
    partsFormLiteral parts = true ↔
      3 ≤ parts.length ∧ parts.length ≤ 8 ∧ (∀ part ∈ parts, isHexGroup part = true) ∧
        Layout parts := by
  have groups : groupParts parts = parts := if_neg (by simp [plain])
  have padded : quadIsPadded parts = true := by simp [quadIsPadded, plain]
  simp only [partsFormLiteral, groups, padded, Bool.and_eq_true, decide_eq_true_eq,
    List.all_eq_true, Bool.and_true, and_assoc, and_congr_right_iff]
  intro least _ _
  exact layout_iff least

/-- With a dotted quad at the end there are fewer than eight parts, groups but for the quad and
zero but for the one before the quad. -/
theorem partsFormLiteral_concat_iff (isQuad : isQuadLiteral quad = true) :
    partsFormLiteral (parts ++ [quad]) = true ↔
      2 ≤ parts.length ∧ parts.length ≤ 6 ∧ (∀ part ∈ parts, isHexGroup part = true) ∧
        (∀ part ∈ parts.dropLast, ∀ char ∈ part, char = '0') ∧ Layout (parts ++ [quad]) := by
  have front : (parts ++ [quad]).take ((parts ++ [quad]).length - 2) = parts.dropLast := by
    rw [List.length_append, List.length_singleton, List.take_append_of_le_length (by omega),
      List.dropLast_eq_take]
    rfl
  have padded : quadIsPadded (parts ++ [quad]) = true ↔
      ∀ part ∈ parts.dropLast, ∀ char ∈ part, char = '0' := by
    rw [quadIsPadded, lastPart_concat, isQuad, front]
    simp
  have groups : (groupParts (parts ++ [quad])).all isHexGroup = true ↔
      parts.length ≤ 6 ∧ ∀ part ∈ parts, isHexGroup part = true := by
    by_cases room : parts.length ≤ 6
    · have own : groupParts (parts ++ [quad]) = parts := by
        rw [groupParts, lastPart_concat, if_pos ⟨isQuad, by simp; omega⟩, List.dropLast_concat]
      rw [own, List.all_eq_true]
      exact (and_iff_right room).symm
    · have whole : groupParts (parts ++ [quad]) = parts ++ [quad] := by
        rw [groupParts, if_neg (by simp; omega)]
      rw [whole]
      simp [room, isHexGroup_eq_false_of_dot (dot_mem_of_isQuadLiteral isQuad)]
  simp only [partsFormLiteral, Bool.and_eq_true, decide_eq_true_eq, groups, padded, and_assoc,
    List.length_append, List.length_singleton]
  constructor
  · rintro ⟨least, most, room, each, single, zeros, fits⟩
    exact ⟨by omega, room, each, zeros, (layout_iff (by simpa using least)).1 ⟨single, fits⟩⟩
  · rintro ⟨least, room, each, zeros, layout⟩
    obtain ⟨single, fits⟩ := (layout_iff (by simpa using least)).2 layout
    exact ⟨by omega, by omega, room, each, single, zeros, fits⟩

end Parts

end PeerOverlay.Ip
