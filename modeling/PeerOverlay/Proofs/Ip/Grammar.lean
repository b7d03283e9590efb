import PeerOverlay.Proofs.Ip.Layout

/-!
# The grammar of IPv6 literals

The texts that are taken for IPv6 literals have one of four forms (`Accepted`).  The grammar of
literals (`IsLiteral`) has the same texts but for three kinds, which are told wrongly from
literals (`Misjudged`).
-/

namespace PeerOverlay.Ip

open PeerOverlay.Text

/-! ## Texts that are accepted -/

/-- The forms of the texts that are taken for IPv6 literals. -/
inductive Accepted (text : List Char) : Prop where
  | groups (parts : List (List Char)) (eight : parts.length = 8)
      (each : ∀ part ∈ parts, IsGroup part) (same : text = glue ':' parts)
  | elided (front back : List (List Char)) (each : ∀ part ∈ front ++ back, IsGroup part)
      (room : (pieces ':' text).length ≤ 8) (same : text = elided front back)
  | dangling (back : List (List Char)) (some? : back ≠ []) (each : ∀ part ∈ back, IsGroup part)
      (room : (pieces ':' text).length ≤ 8) (same : text = Ip.elided [] (back ++ [[]]))
  | quad (front back : List (List Char)) (quad : List Char) (isQuad : isQuadLiteral quad = true)
      (each : ∀ part ∈ front ++ back, IsGroup part)
      (zeros : ∀ part ∈ front ++ back.dropLast, ∀ char ∈ part, char = '0')
      (room : (pieces ':' text).length ≤ 7) (same : text = Ip.elided front (back ++ [quad]))

theorem isGroup_of_mem {parts : List (List Char)} (each : ∀ part ∈ parts, isHexGroup part = true)
    {part : List Char} (member : part ∈ parts) (some? : part ≠ []) : IsGroup part :=
  isGroup_iff.2 ⟨some?, each part member⟩

theorem glue_dangling {back : List (List Char)} :
    glue ':' ([] :: [] :: (back ++ [[]])) = elided [] (back ++ [[]]) := by
  have sides : [] :: [] :: (back ++ [[]]) = sided [] ++ [] :: sided (back ++ [[]]) := by
    rw [sided, if_pos rfl, sided, if_neg (by simp)]
    rfl
  rw [sides, glue_sided_append_sided]

theorem accepted_of_plain {text : List Char}
    (plain : isQuadLiteral (lastPart (pieces ':' text)) = false)
    (forms : partsFormLiteral (pieces ':' text) = true) : Accepted text := by
  obtain ⟨-, most, each, layout⟩ := (partsFormLiteral_iff_of_plain plain).1 forms
  have glued : text = glue ':' (pieces ':' text) := (gluePieces ':' text).symm
  cases layout with
  | full eight some? =>
      exact .groups _ eight
        (fun part member => isGroup_of_mem each member (ne_of_mem_of_not_mem member some?)) glued
  | elided front back some? same =>
      refine .elided front back ?_ most (by rw [glued, same, glue_sided_append_sided])
      intro part member
      refine isGroup_of_mem each ?_ (ne_of_mem_of_not_mem member some?)
      rw [same]
      rcases List.mem_append.1 member with before | behind
      · exact List.mem_append_left _ (mem_sided_of_mem before)
      · exact List.mem_append_right _ (List.mem_cons_of_mem [] (mem_sided_of_mem behind))
  | dangling back someBack some? same =>
      refine .dangling back someBack ?_ most (by rw [glued, same, glue_dangling])
      intro part member
      refine isGroup_of_mem each ?_ (ne_of_mem_of_not_mem member some?)
      rw [same]
      simp [member]

/-- The parts of a row before a dotted quad are groups and zeros if the whole row is so. -/
theorem accepted_of_row {text : List Char} {front back : List (List Char)} {quad : List Char}
    (isQuad : isQuadLiteral quad = true) (absent : [] ∉ front ++ back)
    (each : ∀ part ∈ sided front ++ [] :: back, isHexGroup part = true)
    (zeros : ∀ part ∈ (sided front ++ [] :: back).dropLast, ∀ char ∈ part, char = '0')
    (room : (pieces ':' text).length ≤ 7) (same : text = elided front (back ++ [quad])) :
    Accepted text := by
  refine .quad front back quad isQuad ?_ ?_ room same
  · intro part member
    refine isGroup_of_mem each ?_ (ne_of_mem_of_not_mem member absent)
    rcases List.mem_append.1 member with before | behind
    · exact List.mem_append_left _ (mem_sided_of_mem before)
    · exact List.mem_append_right _ (List.mem_cons_of_mem [] behind)
  · intro part member
    apply zeros part
    rw [List.dropLast_append_of_ne_nil (List.cons_ne_nil [] back)]
    rcases List.mem_append.1 member with before | behind
    · exact List.mem_append_left _ (mem_sided_of_mem before)
    · have some? : back ≠ [] := by
        rintro rfl
        cases behind
      rw [List.dropLast_cons_of_ne_nil some?]
      exact List.mem_append_right _ (List.mem_cons_of_mem [] behind)

theorem accepted_of_quad {text : List Char}
    (isQuad : isQuadLiteral (lastPart (pieces ':' text)) = true)
    (forms : partsFormLiteral (pieces ':' text) = true) : Accepted text := by
  have glued : text = glue ':' (pieces ':' text) := (gluePieces ':' text).symm
  obtain ⟨row, quad, parts⟩ :=
    (List.eq_nil_or_concat (pieces ':' text)).resolve_left (pieces_ne_nil ':' text)
  rw [List.concat_eq_append] at parts
  rw [parts, lastPart_concat] at isQuad
  have some? : quad ≠ [] := List.ne_nil_of_mem (dot_mem_of_isQuadLiteral isQuad)
  rw [parts, partsFormLiteral_concat_iff isQuad] at forms
  obtain ⟨-, room, each, zeros, layout⟩ := forms
  cases layout with
  | full eight _ =>
      rw [List.length_append, List.length_singleton] at eight
      omega
  | elided front back absent same =>
      -- The quad is not empty, so it is the last part behind the doubled colon.
      rcases List.eq_nil_or_concat back with rfl | ⟨others, last, rfl⟩
      · have ends : row ++ [quad] = (sided front ++ [[]]) ++ [[]] := by
          rw [same]
          simp [sided]
        cases (List.append_inj' ends rfl).2
        exact absurd rfl some?
      · rw [List.concat_eq_append] at absent same
        have ends : row ++ [quad] = (sided front ++ [] :: others) ++ [last] := by
          rw [same, sided, sided, if_neg (by simp : others ++ [last] ≠ [])]
          simp
        obtain ⟨rfl, lasts⟩ := List.append_inj' ends rfl
        cases lasts
        rw [← List.append_assoc] at absent
        have seven : (pieces ':' text).length ≤ 7 := by
          rw [parts, List.length_append, List.length_singleton]
          omega
        exact accepted_of_row isQuad (fun member => absent (List.mem_append_left _ member)) each
          zeros seven (by rw [glued, parts, same, glue_sided_append_sided])
  | dangling back _ _ same =>
      have ends : row ++ [quad] = ([] :: [] :: back) ++ [[]] := same
      cases (List.append_inj' ends rfl).2
      exact absurd rfl some?

theorem isHexGroup_of_mem_sided {parts : List (List Char)} (each : ∀ part ∈ parts, IsGroup part)
    {part : List Char} (member : part ∈ sided parts) : isHexGroup part = true := by
  rcases mem_sided member with known | rfl
  · exact (each part known).isHexGroup
  · rfl

theorem isHexGroup_of_mem_row {front back : List (List Char)}
    (each : ∀ part ∈ front ++ back, IsGroup part) {part : List Char}
    (member : part ∈ sided front ++ [] :: sided back) : isHexGroup part = true := by
  rw [List.forall_mem_append] at each
  rcases List.mem_append.1 member with before | behind
  · exact isHexGroup_of_mem_sided each.1 before
  · rcases List.mem_cons.1 behind with rfl | behind
    · rfl
    · exact isHexGroup_of_mem_sided each.2 behind

theorem sided_eq_of_empty_mem {parts : List (List Char)} (each : ∀ part ∈ parts, IsGroup part)
    (member : [] ∈ sided parts) : sided parts = [[]] := by
  unfold sided at member ⊢
  split at member
  · next none => exact if_pos none
  · exact absurd rfl (each [] member).some?

theorem partsFormLiteral_groups {parts : List (List Char)} (eight : parts.length = 8)
    (each : ∀ part ∈ parts, IsGroup part) :
    partsFormLiteral (pieces ':' (glue ':' parts)) = true := by
  have some? : parts ≠ [] := by
    rintro rfl
    cases eight
  have groups (part : List Char) (member : part ∈ parts) := (each part member).isHexGroup
  rw [pieces_glue some? fun part member => (each part member).colon_not_mem]
  exact (partsFormLiteral_iff_of_plain (plain_of_isHexGroup groups)).2
    ⟨by omega, by omega, groups, .full eight fun empty => (each [] empty).some? rfl⟩

theorem partsFormLiteral_elided {front back : List (List Char)}
    (each : ∀ part ∈ front ++ back, IsGroup part)
    (room : (pieces ':' (elided front back)).length ≤ 8) :
    partsFormLiteral (pieces ':' (elided front back)) = true := by
  rw [pieces_elided fun part member => (each part member).colon_not_mem] at room ⊢
  have groups (part : List Char) (member : part ∈ sided front ++ [] :: sided back) :
      isHexGroup part = true := isHexGroup_of_mem_row each member
  have frontSome := List.length_pos_iff.2 (sided_ne_nil front)
  have backSome := List.length_pos_iff.2 (sided_ne_nil back)
  have least : 3 ≤ (sided front ++ [] :: sided back).length := by
    rw [List.length_append, List.length_cons]
    omega
  have some? : [] ∉ front ++ back := fun empty => (each [] empty).some? rfl
  exact (partsFormLiteral_iff_of_plain (plain_of_isHexGroup groups)).2
    ⟨least, room, groups, .elided front back some? rfl⟩

theorem pieces_dangling {back : List (List Char)} (each : ∀ part ∈ back, IsGroup part) :
    pieces ':' (elided [] (back ++ [[]])) = [] :: [] :: (back ++ [[]]) := by
  have whole : ∀ part ∈ [] ++ (back ++ [[]]), ':' ∉ part := by
    intro part member
    rw [List.nil_append] at member
    rcases List.mem_append.1 member with known | last
    · exact (each part known).colon_not_mem
    · rw [List.mem_singleton.1 last]
      exact List.not_mem_nil
  rw [pieces_elided whole, sided, if_pos rfl, sided, if_neg (by simp)]
  rfl

theorem partsFormLiteral_dangling {back : List (List Char)} (some? : back ≠ [])
    (each : ∀ part ∈ back, IsGroup part)
    (room : (pieces ':' (elided [] (back ++ [[]]))).length ≤ 8) :
    partsFormLiteral (pieces ':' (elided [] (back ++ [[]]))) = true := by
  rw [pieces_dangling each] at room ⊢
  have groups : ∀ part ∈ [] :: [] :: (back ++ [[]]), isHexGroup part = true := by
    simp only [List.forall_mem_cons, List.forall_mem_append, List.not_mem_nil, false_implies,
      implies_true, and_true, isHexGroup_nil, true_and]
    exact fun part member => (each part member).isHexGroup
  exact (partsFormLiteral_iff_of_plain (plain_of_isHexGroup groups)).2
    ⟨by simp, room, groups, .dangling back some? (fun empty => (each [] empty).some? rfl) rfl⟩

theorem pieces_quad {front back : List (List Char)} {quad : List Char}
    (isQuad : isQuadLiteral quad = true) (each : ∀ part ∈ front ++ back, IsGroup part) :
    pieces ':' (elided front (back ++ [quad])) = (sided front ++ [] :: back) ++ [quad] := by
  have whole : ∀ part ∈ front ++ (back ++ [quad]), ':' ∉ part := by
    intro part member
    rw [← List.append_assoc] at member
    rcases List.mem_append.1 member with known | last
    · exact (each part known).colon_not_mem
    · rw [List.mem_singleton.1 last]
      exact colon_not_mem_of_isQuadLiteral isQuad
  have some? : back ++ [quad] ≠ [] := by simp
  rw [pieces_elided whole, sided, sided, if_neg some?]
  simp

theorem mem_dropLast_cons {first part : List Char} {parts : List (List Char)}
    (member : part ∈ (first :: parts).dropLast) : part = first ∨ part ∈ parts.dropLast := by
  cases parts with
  | nil => cases member
  | cons second others => exact List.mem_cons.1 member

theorem partsFormLiteral_quad {front back : List (List Char)} {quad : List Char}
    (isQuad : isQuadLiteral quad = true) (each : ∀ part ∈ front ++ back, IsGroup part)
    (zeros : ∀ part ∈ front ++ back.dropLast, ∀ char ∈ part, char = '0')
    (room : (pieces ':' (elided front (back ++ [quad]))).length ≤ 7) :
    partsFormLiteral (pieces ':' (elided front (back ++ [quad]))) = true := by
  rw [pieces_quad isQuad each] at room ⊢
  rw [List.forall_mem_append] at each zeros
  have frontSome := List.length_pos_iff.2 (sided_ne_nil front)
  have some? : back ++ [quad] ≠ [] := by simp
  have absent : [] ∉ front ++ (back ++ [quad]) := by
    simp only [List.mem_append, List.mem_singleton, not_or]
    refine ⟨fun empty => (each.1 [] empty).some? rfl, fun empty => (each.2 [] empty).some? rfl, ?_⟩
    rintro rfl
    exact List.not_mem_nil (dot_mem_of_isQuadLiteral isQuad)
  refine (partsFormLiteral_concat_iff isQuad).2 ⟨?_, ?_, ?_, ?_, ?_⟩
  · rw [List.length_append, List.length_cons]
    omega
  · rw [List.length_append, List.length_singleton] at room
    omega
  · intro part member
    rcases List.mem_append.1 member with before | behind
    · exact isHexGroup_of_mem_sided each.1 before
    · rcases List.mem_cons.1 behind with rfl | behind
      · rfl
      · exact (each.2 part behind).isHexGroup
  · intro part member
    rw [List.dropLast_append_of_ne_nil (List.cons_ne_nil [] back)] at member
    rcases List.mem_append.1 member with before | behind
    · rcases mem_sided before with known | rfl
      · exact zeros.1 part known
      · exact fun char inside => absurd inside List.not_mem_nil
    · rcases mem_dropLast_cons behind with rfl | behind
      · exact fun char inside => absurd inside List.not_mem_nil
      · exact zeros.2 part behind
  · refine .elided front (back ++ [quad]) absent ?_
    rw [sided, sided, if_neg some?]
    simp

theorem partsFormLiteral_of_accepted {text : List Char} (accepted : Accepted text) :
    partsFormLiteral (pieces ':' text) = true := by
  cases accepted with
  | groups parts eight each same =>
      rw [same]
      exact partsFormLiteral_groups eight each
  | elided front back each room same =>
      rw [same] at room ⊢
      exact partsFormLiteral_elided each room
  | dangling back some? each room same =>
      rw [same] at room ⊢
      exact partsFormLiteral_dangling some? each room
  | quad front back quad isQuad each zeros room same =>
      rw [same] at room ⊢
      exact partsFormLiteral_quad isQuad each zeros room

theorem partsFormLiteral_iff_accepted {text : List Char} :
    partsFormLiteral (pieces ':' text) = true ↔ Accepted text := by
  refine ⟨fun forms => ?_, partsFormLiteral_of_accepted⟩
  cases isQuad : isQuadLiteral (lastPart (pieces ':' text)) with
  | false => exact accepted_of_plain isQuad forms
  | true => exact accepted_of_quad isQuad forms

/-! ## The grammar -/

/-- A text in small letters. -/
def lowered (text : String) : List Char :=
  text.toList.map Char.toLower

/-- A group without any bit set. -/
structure IsZeroGroup (part : List Char) : Prop extends IsGroup part where
  zeros : ∀ char ∈ part, char = '0'

theorem isZeroGroup_iff {part : List Char} :
    IsZeroGroup part ↔ IsGroup part ∧ part.all (· == '0') = true := by
  rw [List.all_eq_true]
  simp only [beq_iff_eq]
  exact ⟨fun zero => ⟨zero.toIsGroup, zero.zeros⟩, fun ⟨group, zeros⟩ => ⟨group, zeros⟩⟩

instance : DecidablePred IsZeroGroup :=
  fun _ => decidable_of_iff _ isZeroGroup_iff.symm

/-- What marks an address that a dotted quad stands for: no bit is set, or all are. -/
def IsMarker (part : List Char) : Prop :=
  IsZeroGroup part ∨ part = "ffff".toList

instance : DecidablePred IsMarker :=
  fun part => inferInstanceAs (Decidable (IsZeroGroup part ∨ part = "ffff".toList))

/-- The grammar of IPv6 literals in small letters: eight groups; fewer groups around a doubled
colon; and a dotted quad behind at most six groups, the last of which is a marker and all others
zero, with or without a doubled colon among them. -/
inductive IsLiteral (text : List Char) : Prop where
  | groups (parts : List (List Char)) (eight : parts.length = 8)
      (each : ∀ part ∈ parts, IsGroup part) (same : text = glue ':' parts)
  | elided (front back : List (List Char)) (each : ∀ part ∈ front ++ back, IsGroup part)
      (room : (pieces ':' text).length ≤ 8) (same : text = Ip.elided front back)
  | groupsQuad (zeros : List (List Char)) (marker quad : List Char) (five : zeros.length = 5)
      (each : ∀ part ∈ zeros, IsZeroGroup part) (marks : IsMarker marker)
      (isQuad : isQuadLiteral quad = true) (same : text = glue ':' (zeros ++ [marker, quad]))
  | elidedQuad (front back : List (List Char)) (quad : List Char)
      (isQuad : isQuadLiteral quad = true)
      (each : ∀ part ∈ front ++ back.dropLast, IsZeroGroup part)
      (marks : ∀ part ∈ back.getLast?, IsMarker part)
      (room : (pieces ':' text).length ≤ 7) (same : text = Ip.elided front (back ++ [quad]))

/-- The texts that are told wrongly from literals: six groups and a dotted quad without a doubled
colon are refused; a single colon at the end is passed over behind a doubled colon at the start;
and so is a group before the dotted quad that is no marker. -/
inductive Misjudged (text : List Char) : Prop where
  | unelidedQuad (zeros : List (List Char)) (marker quad : List Char) (five : zeros.length = 5)
      (each : ∀ part ∈ zeros, IsZeroGroup part) (marks : IsMarker marker)
      (isQuad : isQuadLiteral quad = true) (same : text = glue ':' (zeros ++ [marker, quad]))
  | dangling (back : List (List Char)) (some? : back ≠ []) (each : ∀ part ∈ back, IsGroup part)
      (room : (pieces ':' text).length ≤ 8) (same : text = Ip.elided [] (back ++ [[]]))
  | unmarkedQuad (front zeros : List (List Char)) (group quad : List Char)
      (isQuad : isQuadLiteral quad = true) (each : ∀ part ∈ front ++ zeros, IsZeroGroup part)
      (isGroup : IsGroup group) (unmarked : ¬ IsMarker group)
      (room : (pieces ':' text).length ≤ 7)
      (same : text = Ip.elided front (zeros ++ [group, quad]))

theorem IsMarker.isGroup {part : List Char} (marks : IsMarker part) : IsGroup part := by
  rcases marks with zero | rfl
  · exact zero.toIsGroup
  · exact isGroup_iff.2 (by decide)

theorem isGroup_of_marked {front back : List (List Char)}
    (each : ∀ part ∈ front ++ back.dropLast, IsZeroGroup part)
    (marks : ∀ part ∈ back.getLast?, IsMarker part) : ∀ part ∈ front ++ back, IsGroup part := by
  intro part member
  rcases List.eq_nil_or_concat back with rfl | ⟨zeros, marker, rfl⟩
  · exact (each part (by simpa using member)).toIsGroup
  · rw [List.concat_eq_append] at each marks member
    rw [List.dropLast_concat] at each
    rw [List.getLast?_concat] at marks
    rw [← List.append_assoc] at member
    rcases List.mem_append.1 member with zero | last
    · exact (each part zero).toIsGroup
    · rw [List.mem_singleton.1 last]
      exact (marks marker rfl).isGroup

variable {text : List Char}

theorem IsLiteral.accepted (literal : IsLiteral text) : Accepted text ∨ Misjudged text := by
  cases literal with
  | groups parts eight each same => exact .inl (.groups parts eight each same)
  | elided front back each room same => exact .inl (.elided front back each room same)
  | groupsQuad zeros marker quad five each marks isQuad same =>
      exact .inr (.unelidedQuad zeros marker quad five each marks isQuad same)
  | elidedQuad front back quad isQuad each marks room same =>
      exact .inl (.quad front back quad isQuad (isGroup_of_marked each marks)
        (fun part member => (each part member).zeros) room same)

theorem Accepted.isLiteral (accepted : Accepted text) : IsLiteral text ∨ Misjudged text := by
  cases accepted with
  | groups parts eight each same => exact .inl (.groups parts eight each same)
  | elided front back each room same => exact .inl (.elided front back each room same)
  | dangling back some? each room same => exact .inr (.dangling back some? each room same)
  | quad front back quad isQuad each zeros room same =>
      -- Only the group before the quad is not known to be zero.
      have zeroGroups : ∀ part ∈ front ++ back.dropLast, IsZeroGroup part := by
        intro part member
        refine ⟨each part ?_, zeros part member⟩
        exact List.mem_append.2 ((List.mem_append.1 member).imp_right fun known =>
          (List.dropLast_sublist back).subset known)
      rcases List.eq_nil_or_concat back with rfl | ⟨others, group, rfl⟩
      · exact .inl (.elidedQuad front [] quad isQuad zeroGroups (by simp) room same)
      · rw [List.concat_eq_append] at each zeroGroups same
        by_cases marks : IsMarker group
        · exact .inl (.elidedQuad front (others ++ [group]) quad isQuad zeroGroups
            (by simpa using marks) room same)
        · rw [List.dropLast_concat] at zeroGroups
          rw [List.append_assoc] at same
          exact .inr (.unmarkedQuad front others group quad isQuad zeroGroups
            (each group (by simp)) marks room same)

/-- An accepted text has a doubled colon or eight parts. -/
theorem Accepted.empty_mem_or_eight (accepted : Accepted text) :
    [] ∈ pieces ':' text ∨ (pieces ':' text).length = 8 := by
  cases accepted with
  | groups parts eight each same =>
      have some? : parts ≠ [] := by
        rintro rfl
        cases eight
      rw [same, pieces_glue some? fun part member => (each part member).colon_not_mem]
      exact .inr eight
  | elided front back each room same =>
      rw [same, pieces_elided fun part member => (each part member).colon_not_mem]
      exact .inl (by simp)
  | dangling back some? each room same =>
      rw [same, pieces_dangling each]
      exact .inl (by simp)
  | quad front back quad isQuad each zeros room same =>
      rw [same, pieces_quad isQuad each]
      exact .inl (by simp)

theorem pieces_groupsQuad {zeros : List (List Char)} {marker quad : List Char}
    (each : ∀ part ∈ zeros, IsZeroGroup part) (marks : IsMarker marker)
    (isQuad : isQuadLiteral quad = true) :
    pieces ':' (glue ':' (zeros ++ [marker, quad])) = zeros ++ [marker, quad] ∧
      [] ∉ zeros ++ [marker, quad] := by
  have each : ∀ part ∈ zeros ++ [marker, quad], ':' ∉ part ∧ part ≠ [] := by
    intro part member
    simp only [List.mem_append, List.mem_cons, List.not_mem_nil, or_false] at member
    rcases member with zero | rfl | rfl
    · exact ⟨(each part zero).colon_not_mem, (each part zero).some?⟩
    · exact ⟨marks.isGroup.colon_not_mem, marks.isGroup.some?⟩
    · exact ⟨colon_not_mem_of_isQuadLiteral isQuad,
        List.ne_nil_of_mem (dot_mem_of_isQuadLiteral isQuad)⟩
  exact ⟨pieces_glue (by simp) fun part member => (each part member).1,
    fun empty => (each [] empty).2 rfl⟩

/-- The parts of a text of the grammar: none is empty, or all are groups around a doubled colon,
or the last one is a dotted quad behind a marker or the doubled colon. -/
theorem IsLiteral.pieces_cases (literal : IsLiteral text) :
    [] ∉ pieces ':' text ∨
      (∃ front back, (∀ part ∈ front ++ back, IsGroup part) ∧
        pieces ':' text = sided front ++ [] :: sided back) ∨
      ∃ row quad, isQuadLiteral quad = true ∧ pieces ':' text = row ++ [quad] ∧
        ∀ part ∈ row.getLast?, part = [] ∨ IsMarker part := by
  cases literal with
  | groups parts eight each same =>
      have some? : parts ≠ [] := by
        rintro rfl
        cases eight
      rw [same, pieces_glue some? fun part member => (each part member).colon_not_mem]
      exact .inl fun empty => (each [] empty).some? rfl
  | elided front back each room same =>
      rw [same, pieces_elided fun part member => (each part member).colon_not_mem]
      exact .inr (.inl ⟨front, back, each, rfl⟩)
  | groupsQuad zeros marker quad five each marks isQuad same =>
      obtain ⟨cut, absent⟩ := pieces_groupsQuad each marks isQuad
      rw [same, cut]
      exact .inl absent
  | elidedQuad front back quad isQuad each marks room same =>
      rw [same, pieces_quad isQuad (isGroup_of_marked each marks)]
      refine .inr (.inr ⟨sided front ++ [] :: back, quad, isQuad, rfl, ?_⟩)
      intro part last
      rw [List.getLast?_append_of_ne_nil _ (List.cons_ne_nil [] back)] at last
      by_cases none : back = []
      · rw [none] at last
        exact .inl (Option.some.inj last).symm
      · rw [List.getLast?_cons_of_ne_nil none] at last
        exact .inr (marks part last)

section Differences

variable {front back zeros : List (List Char)} {marker group quad : List Char}

theorem not_accepted_groupsQuad (five : zeros.length = 5)
    (each : ∀ part ∈ zeros, IsZeroGroup part) (marks : IsMarker marker)
    (isQuad : isQuadLiteral quad = true) : ¬ Accepted (glue ':' (zeros ++ [marker, quad])) := by
  intro accepted
  obtain ⟨cut, absent⟩ := pieces_groupsQuad each marks isQuad
  have eight := accepted.empty_mem_or_eight
  rw [cut] at eight
  have length := eight.resolve_left absent
  rw [List.length_append, five] at length
  cases length

/-- With empty parts at both ends there is no place for a group. -/
theorem eq_nil_of_empty_ends {others : List (List Char)}
    (each : ∀ part ∈ front ++ others, IsGroup part)
    (same : [] :: [] :: (back ++ [[]]) = sided front ++ [] :: sided others) : back = [] := by
  rw [List.forall_mem_append] at each
  have first : sided front = [[]] := by
    obtain ⟨start, rest, parts⟩ := List.exists_cons_of_ne_nil (sided_ne_nil front)
    rw [parts] at same
    have empty : [] = start := (List.cons.inj same).1
    exact sided_eq_of_empty_mem each.1 (by simp [parts, empty])
  have last : sided others = [[]] := by
    obtain ⟨rest, ending, parts⟩ :=
      (List.eq_nil_or_concat (sided others)).resolve_left (sided_ne_nil others)
    rw [List.concat_eq_append] at parts
    have ends : ([] :: [] :: back) ++ [[]] = (sided front ++ [] :: rest) ++ [ending] := by
      rw [List.append_assoc, List.cons_append, List.cons_append, same, parts]
      rfl
    cases (List.append_inj' ends rfl).2
    exact sided_eq_of_empty_mem each.2 (by simp [parts])
  rw [first, last] at same
  simpa using same

theorem not_isLiteral_dangling (some? : back ≠ []) (each : ∀ part ∈ back, IsGroup part) :
    ¬ IsLiteral (elided [] (back ++ [[]])) := by
  intro literal
  have cut := pieces_dangling each
  rcases literal.pieces_cases with
    absent | ⟨front, others, groups, parts⟩ | ⟨row, quad, isQuad, parts, -⟩
  · rw [cut] at absent
    exact absent List.mem_cons_self
  · exact some? (eq_nil_of_empty_ends groups (cut.symm.trans parts))
  · have ends : ([] :: [] :: back) ++ [[]] = row ++ [quad] := cut.symm.trans parts
    cases (List.append_inj' ends rfl).2
    exact absurd (dot_mem_of_isQuadLiteral isQuad) List.not_mem_nil

theorem not_isLiteral_unmarkedQuad (isQuad : isQuadLiteral quad = true)
    (each : ∀ part ∈ front ++ (zeros ++ [group]), IsGroup part) (unmarked : ¬ IsMarker group) :
    ¬ IsLiteral (elided front ((zeros ++ [group]) ++ [quad])) := by
  intro literal
  have cut := pieces_quad isQuad each
  rcases literal.pieces_cases with
    absent | ⟨before, behind, groups, parts⟩ | ⟨row, other, isOther, parts, marked⟩
  · rw [cut] at absent
    exact absent (by simp)
  · -- A dotted quad is no group.
    have member : quad ∈ sided before ++ [] :: sided behind := by
      rw [← parts, cut]
      simp
    have isHex := isHexGroup_of_mem_row groups member
    rw [isHexGroup_eq_false_of_dot (dot_mem_of_isQuadLiteral isQuad)] at isHex
    cases isHex
  · obtain ⟨rfl, -⟩ := List.append_inj' (cut.symm.trans parts) rfl
    have last : group ∈ (sided front ++ [] :: (zeros ++ [group])).getLast? := by
      rw [← List.cons_append, ← List.append_assoc, List.getLast?_concat]
      rfl
    rcases marked group last with rfl | marks
    · exact (each [] (by simp)).some? rfl
    · exact unmarked marks

end Differences

/-- A text that is told wrongly is accepted and no literal, or a literal and not accepted. -/
theorem Misjudged.disagree (misjudged : Misjudged text) : ¬ (Accepted text ↔ IsLiteral text) := by
  intro agree
  cases misjudged with
  | unelidedQuad zeros marker quad five each marks isQuad same =>
      have literal : IsLiteral text := .groupsQuad zeros marker quad five each marks isQuad same
      rw [← agree, same] at literal
      exact not_accepted_groupsQuad five each marks isQuad literal
  | dangling back some? each room same =>
      have accepted : Accepted text := .dangling back some? each room same
      rw [agree, same] at accepted
      exact not_isLiteral_dangling some? each accepted
  | unmarkedQuad front zeros group quad isQuad each isGroup unmarked room same =>
      have whole : ∀ part ∈ front ++ (zeros ++ [group]), IsGroup part := by
        rw [List.forall_mem_append] at each
        simp only [List.forall_mem_append, List.forall_mem_singleton]
        exact ⟨fun part member => (each.1 part member).toIsGroup,
          fun part member => (each.2 part member).toIsGroup, isGroup⟩
      have split : text = elided front ((zeros ++ [group]) ++ [quad]) := by
        rw [same, List.append_assoc]
        rfl
      have accepted : Accepted text := by
        refine .quad front (zeros ++ [group]) quad isQuad whole ?_ room split
        rw [List.dropLast_concat]
        exact fun part member => (each part member).zeros
      rw [agree, split] at accepted
      exact not_isLiteral_unmarkedQuad isQuad whole unmarked accepted

theorem isIpv6_iff_accepted (text : String) : isIpv6 text = true ↔ Accepted (lowered text) :=
  partsFormLiteral_iff_accepted

theorem Misjudged.isLiteral_iff {text : String} (misjudged : Misjudged (lowered text)) :
    IsLiteral (lowered text) ↔ isIpv6 text = false := by
  have disagree := misjudged.disagree
  rw [← isIpv6_iff_accepted] at disagree
  rw [← Bool.not_eq_true]
  tauto

/-- Exactly the IPv6 literals are taken for such, in letters of either case, but for the texts
that are told wrongly. -/
theorem isIpv6_iff_isLiteral_iff_not_misjudged (text : String) :
    (isIpv6 text = true ↔ IsLiteral (lowered text)) ↔ ¬ Misjudged (lowered text) := by
  rw [isIpv6_iff_accepted]
  constructor
  · exact fun agree misjudged => misjudged.disagree agree
  · intro fair
    exact ⟨fun accepted => accepted.isLiteral.resolve_right fair,
      fun literal => literal.accepted.resolve_right fair⟩

/-- A colon at the end is passed over, a full row of groups with a dotted quad is refused, and any
group may stand before a dotted quad. -/
theorem literals_misjudged :
    (isIpv6 "::1:" = true ∧ ¬ IsLiteral (lowered "::1:")) ∧
      (isIpv6 "0:0:0:0:0:ffff:1.2.3.4" = false ∧ IsLiteral (lowered "0:0:0:0:0:ffff:1.2.3.4")) ∧
      isIpv6 "::1234:1.2.3.4" = true ∧ ¬ IsLiteral (lowered "::1234:1.2.3.4") := by
  have hanging : isIpv6 "::1:" = true := by decide
  have full : isIpv6 "0:0:0:0:0:ffff:1.2.3.4" = false := by decide
  have unmarked : isIpv6 "::1234:1.2.3.4" = true := by decide
  refine ⟨⟨hanging, ?_⟩, ⟨full, ?_⟩, unmarked, ?_⟩
  · have misjudged : Misjudged (lowered "::1:") :=
      .dangling ["1".toList] (by decide) (by decide) (by decide) (by decide)
    rw [misjudged.isLiteral_iff, hanging]
    decide
  · exact .groupsQuad (List.replicate 5 "0".toList) "ffff".toList "1.2.3.4".toList rfl
      (by decide) (.inr rfl) (by decide) (by decide)
  · have misjudged : Misjudged (lowered "::1234:1.2.3.4") :=
      .unmarkedQuad [] [] "1234".toList "1.2.3.4".toList (by decide) (by decide) (by decide)
        (by decide) (by decide) (by decide)
    rw [misjudged.isLiteral_iff, unmarked]
    decide

end PeerOverlay.Ip
