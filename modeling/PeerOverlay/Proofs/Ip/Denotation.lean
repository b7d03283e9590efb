import PeerOverlay.Proofs.Ip.Canonical

/-!
# What IPv6 literals denote

A literal without a dotted quad denotes eight groups: its parts spell groups, and its doubled
colon stands for the zero groups that are missing.  Two literals have the same canonical text
exactly if they denote the same groups.
-/

namespace PeerOverlay.Ip

open PeerOverlay.Text

/-! ## Parts that spell groups -/

/-- Whether a part spells a group in hexadecimal digits. -/
structure Spells (part : List Char) (group : UInt16) : Prop where
  isGroup : IsGroup part
  value : Numeral.read? 16 part = some group.toNat

theorem exists_spells {part : List Char} (isGroup : IsGroup part) :
    ∃ group, Spells part group := by
  have digits : ∀ char ∈ part, (Numeral.digitValue? 16 char).isSome :=
    fun char member => isHexDigit_iff.2 (isGroup.digits char member)
  obtain ⟨value, read⟩ :=
    Option.isSome_iff_exists.1 (Numeral.isSome_read?_iff.2 ⟨isGroup.some?, digits⟩)
  have extended : Numeral.extend? 16 0 part = some value := by
    rwa [Numeral.read?, if_neg isGroup.some?] at read
  have below : value < 65536 := by
    calc value < (0 + 1) * Nat.pow 16 part.length := Numeral.lt_of_extend? extended
      _ = Nat.pow 16 part.length := by rw [Nat.zero_add, Nat.one_mul]
      _ ≤ Nat.pow 16 4 := Nat.pow_le_pow_right (by decide) isGroup.short
  refine ⟨UInt16.ofNat value, isGroup, ?_⟩
  rw [read, UInt16.toNat_ofNat_of_lt' below]

theorem exists_forall₂_spells {parts : List (List Char)} (each : ∀ part ∈ parts, IsGroup part) :
    ∃ row, List.Forall₂ Spells parts row := by
  induction parts with
  | nil => exact ⟨[], .nil⟩
  | cons part others hypothesis =>
      rw [List.forall_mem_cons] at each
      obtain ⟨group, spells⟩ := exists_spells each.1
      obtain ⟨row, spelled⟩ := hypothesis each.2
      exact ⟨group :: row, .cons spells spelled⟩

theorem spells_renderGroup (group : UInt16) : Spells (renderGroup group) group where
  isGroup := isGroup_renderGroup group
  value := Numeral.read?_render (by decide) (by decide) group.toNat

theorem spells_map_renderGroup (row : List UInt16) :
    List.Forall₂ Spells (row.map renderGroup) row :=
  List.forall₂_map_left_iff.2 (List.forall₂_same.2 fun group _ => spells_renderGroup group)

theorem Spells.group?_eq {part : List Char} {group : UInt16} (spells : Spells part group) :
    group? part = some group := by
  rw [group?, if_neg spells.isGroup.some?, spells.value]
  show (if group.toNat < 65536 then some (UInt16.ofNat group.toNat) else none) = some group
  rw [if_pos group.toNat_lt, UInt16.ofNat_toNat]

section Spelled

variable {parts : List (List Char)} {row : List UInt16}

theorem isGroup_of_spelled (spelled : List.Forall₂ Spells parts row) :
    ∀ part ∈ parts, IsGroup part := by
  induction spelled with
  | nil => exact fun part member => absurd member List.not_mem_nil
  | cons spells _ hypothesis => exact List.forall_mem_cons.2 ⟨spells.isGroup, hypothesis⟩

theorem plain_of_spelled (spelled : List.Forall₂ Spells parts row) :
    ∀ part ∈ parts, part ≠ [] ∧ ':' ∉ part := by
  intro part member
  have isGroup := isGroup_of_spelled spelled part member
  exact ⟨isGroup.some?, isGroup.colon_not_mem⟩

theorem dot_not_mem_glue (each : ∀ part ∈ parts, '.' ∉ part) : '.' ∉ glue ':' parts := by
  intro dot
  rcases mem_glue dot with same | ⟨part, known, inside⟩
  · cases same
  · exact each part known inside

theorem mapM_group?_of_spelled (spelled : List.Forall₂ Spells parts row) :
    parts.mapM group? = some row := by
  induction spelled with
  | nil => rfl
  | cons spells _ hypothesis =>
      rw [List.mapM_cons, spells.group?_eq, hypothesis]
      rfl

theorem groupRow?_glue {part : List Char} (whole : ∀ part ∈ parts, ':' ∉ part)
    (member : part ∈ parts) (filled : part ≠ []) :
    groupRow? (glue ':' parts) = parts.mapM group? := by
  rw [groupRow?, if_neg (glue_ne_nil whole member filled),
    pieces_glue (List.ne_nil_of_mem member) whole]

theorem groupRow?_of_spelled (spelled : List.Forall₂ Spells parts row) :
    groupRow? (glue ':' parts) = some row := by
  have plain := plain_of_spelled spelled
  cases parts with
  | nil =>
      cases spelled
      rfl
  | cons part others =>
      rw [groupRow?_glue (fun part member => (plain part member).2) List.mem_cons_self
        (plain part List.mem_cons_self).1, mapM_group?_of_spelled spelled]

/-- A colon at the end of a row stands for one more zero group. -/
theorem groupRow?_of_spelled_dangling (spelled : List.Forall₂ Spells parts row)
    (some? : parts ≠ []) : groupRow? (glue ':' (parts ++ [[]])) = some (row ++ [0]) := by
  have plain := plain_of_spelled spelled
  have whole : ∀ part ∈ parts ++ [[]], ':' ∉ part := by
    rw [List.forall_mem_append, List.forall_mem_singleton]
    exact ⟨fun part member => (plain part member).2, List.not_mem_nil⟩
  obtain ⟨part, member⟩ := List.exists_mem_of_ne_nil parts some?
  rw [groupRow?_glue whole (List.mem_append_left _ member) (plain part member).1,
    List.mapM_append, mapM_group?_of_spelled spelled]
  rfl

end Spelled

/-! ## Texts that denote groups -/

/-- The eight groups that a text denotes: its parts spell all of them, or those before and behind
the zeros of a doubled colon.  A colon at the end stands for one more zero. -/
inductive Denotes (text : List Char) (groups : Groups) : Prop where
  | full (parts : List (List Char)) (spelled : List.Forall₂ Spells parts groups.toList)
      (same : text = glue ':' parts)
  | elided (front back : List (List Char)) (high low : List UInt16) (zeros : Nat)
      (spelledFront : List.Forall₂ Spells front high) (spelledBack : List.Forall₂ Spells back low)
      (some? : 0 < zeros) (whole : groups.toList = high ++ List.replicate zeros 0 ++ low)
      (same : text = Ip.elided front back)
  | dangling (back : List (List Char)) (low : List UInt16) (zeros : Nat)
      (spelled : List.Forall₂ Spells back low) (someBack : back ≠ []) (some? : 0 < zeros)
      (whole : groups.toList = List.replicate zeros 0 ++ (low ++ [0]))
      (same : text = Ip.elided [] (back ++ [[]]))

variable {text : List Char} {groups : Groups}

theorem expand?_elided {front back : List (List Char)} {high low : List UInt16} {zeros : Nat}
    (spelled : List.Forall₂ Spells front high) (read : groupRow? (glue ':' back) = some low)
    (whole : groups.toList = high ++ List.replicate zeros 0 ++ low) :
    Groups.expand? (elided front back) = some groups := by
  obtain ⟨-, filled⟩ := Groups.fill?_of_eq_append whole
  rw [Groups.expand?, elided, cutAtDouble?_glue_append_double (plain_of_spelled spelled)]
  simp [groupRow?_of_spelled spelled, read, filled]

theorem Denotes.expand?_eq (denotes : Denotes text groups) :
    Groups.expand? text = some groups := by
  cases denotes with
  | full parts spelled same =>
      rw [same, Groups.expand?, cutAtDouble?_glue (plain_of_spelled spelled)]
      simp [groupRow?_of_spelled spelled, groups.eight]
  | elided front back high low zeros spelledFront spelledBack _ whole same =>
      rw [same]
      exact expand?_elided spelledFront (groupRow?_of_spelled spelledBack) whole
  | dangling back low zeros spelled someBack _ whole same =>
      rw [same]
      exact expand?_elided .nil (groupRow?_of_spelled_dangling spelled someBack) whole

theorem dot_not_mem_elided {front back : List (List Char)} (eachFront : ∀ part ∈ front, '.' ∉ part)
    (eachBack : ∀ part ∈ back, '.' ∉ part) : '.' ∉ elided front back := by
  rw [elided, List.mem_append, List.mem_cons, List.mem_cons]
  rintro (before | same | same | behind)
  · exact dot_not_mem_glue eachFront before
  · cases same
  · cases same
  · exact dot_not_mem_glue eachBack behind

theorem Denotes.dot_not_mem (denotes : Denotes text groups) : '.' ∉ text := by
  have noDot {parts : List (List Char)} {row : List UInt16}
      (spelled : List.Forall₂ Spells parts row) : ∀ part ∈ parts, '.' ∉ part :=
    fun part member => (isGroup_of_spelled spelled part member).dot_not_mem
  cases denotes with
  | full parts spelled same =>
      rw [same]
      exact dot_not_mem_glue (noDot spelled)
  | elided front back high low zeros spelledFront spelledBack _ whole same =>
      rw [same]
      exact dot_not_mem_elided (noDot spelledFront) (noDot spelledBack)
  | dangling back low zeros spelled someBack _ whole same =>
      rw [same]
      refine dot_not_mem_elided (fun part member => absurd member List.not_mem_nil) ?_
      rw [List.forall_mem_append, List.forall_mem_singleton]
      exact ⟨noDot spelled, List.not_mem_nil⟩

/-- Eight groups of which some are zeros. -/
theorem exists_groups {high low : List UInt16} (most : high.length + low.length ≤ 7) :
    ∃ (groups : Groups) (zeros : Nat), 0 < zeros ∧
      groups.toList = high ++ List.replicate zeros 0 ++ low := by
  refine ⟨⟨high ++ List.replicate (8 - (high.length + low.length)) 0 ++ low, ?_⟩,
    8 - (high.length + low.length), by omega, rfl⟩
  simp only [List.length_append, List.length_replicate]
  omega

theorem length_le_length_sided (parts : List (List Char)) :
    parts.length ≤ (sided parts).length := by
  unfold sided
  split
  · next none => simp [none]
  · exact Nat.le_refl _

/-- What is taken for a literal denotes groups, unless a dotted quad stands at its end. -/
theorem Accepted.exists_denotes (accepted : Accepted text)
    (plain : isQuadLiteral (lastPart (pieces ':' text)) = false) :
    ∃ groups, Denotes text groups := by
  cases accepted with
  | groups parts eight each same =>
      obtain ⟨row, spelled⟩ := exists_forall₂_spells each
      exact ⟨⟨row, by rw [← spelled.length_eq, eight]⟩, .full parts spelled same⟩
  | elided front back each room same =>
      rw [same, pieces_elided fun part member => (each part member).colon_not_mem,
        List.length_append, List.length_cons] at room
      rw [List.forall_mem_append] at each
      obtain ⟨high, spelledFront⟩ := exists_forall₂_spells each.1
      obtain ⟨low, spelledBack⟩ := exists_forall₂_spells each.2
      have fewerFront := length_le_length_sided front
      have fewerBack := length_le_length_sided back
      have most : high.length + low.length ≤ 7 := by
        rw [← spelledFront.length_eq, ← spelledBack.length_eq]
        omega
      obtain ⟨groups, zeros, some?, whole⟩ := exists_groups most
      exact ⟨groups, .elided front back high low zeros spelledFront spelledBack some? whole same⟩
  | dangling back some? each room same =>
      rw [same, pieces_dangling each] at room
      obtain ⟨low, spelled⟩ := exists_forall₂_spells each
      have most : ([] : List UInt16).length + (low ++ [0]).length ≤ 7 := by
        have length := spelled.length_eq
        simp only [List.length_cons, List.length_append, List.length_nil] at room ⊢
        omega
      obtain ⟨groups, zeros, someZeros, whole⟩ := exists_groups most
      exact ⟨groups, .dangling back low zeros spelled some? someZeros whole same⟩
  | quad front back quad isQuad each zeros room same =>
      rw [same, pieces_quad isQuad each, lastPart_concat, isQuad] at plain
      cases plain

/-- Expanding a literal tells exactly what it denotes. -/
theorem denotes_iff_expand?_eq (accepted : Accepted text)
    (plain : isQuadLiteral (lastPart (pieces ':' text)) = false) :
    Denotes text groups ↔ Groups.expand? text = some groups := by
  refine ⟨Denotes.expand?_eq, fun expanded => ?_⟩
  obtain ⟨others, denotes⟩ := accepted.exists_denotes plain
  rw [denotes.expand?_eq] at expanded
  rwa [← Option.some.inj expanded]

/-! ## Which literal a text is -/

theorem eq_colon_of_toLower {char : Char} (same : char.toLower = ':') : char = ':' := by
  delta Char.toLower at same
  split at same
  · next large =>
      have code : char.val + 32 = 58 := congrArg Char.val same
      have capital : 65 ≤ char.val ∧ char.val ≤ 90 := large
      grind
  · exact same

/-- A literal with colons is no dotted quad. -/
theorem Quad.read?_of_isIpv6 {text : String} (accepted : isIpv6 text = true) :
    Quad.read? text.toList = none := by
  by_contra some?
  have isQuad : isQuadLiteral text.toList = true := Option.isSome_iff_ne_none.2 some?
  have whole : ':' ∉ text.toList.map Char.toLower := by
    intro member
    obtain ⟨char, known, same⟩ := List.mem_map.1 member
    rw [eq_colon_of_toLower same] at known
    exact colon_not_mem_of_isQuadLiteral isQuad known
  rw [isIpv6, colonParts, pieces_of_not_mem whole] at accepted
  simp [partsFormLiteral] at accepted

section Literals

variable {text : String} {quad : Quad}

theorem literal?_of_read? (read : Quad.read? text.toList = some quad) :
    literal? text = .ok (.quad quad) := by
  rw [literal?, read]

theorem literal?_of_embedded (accepted : isIpv6 text = true)
    (embedded : embeddedQuad? (colonParts text.toList) = some quad) :
    literal? text = .ok (.quad quad) := by
  rw [literal?, Quad.read?_of_isIpv6 accepted]
  dsimp only
  rw [if_pos accepted, embedded]

theorem literal?_of_plain (accepted : isIpv6 text = true)
    (plain : embeddedQuad? (colonParts text.toList) = none) :
    literal? text = .ok (.colons (colonParts text.toList)) := by
  rw [literal?, Quad.read?_of_isIpv6 accepted]
  dsimp only
  rw [if_pos accepted, plain]

theorem normalize_of_literal? (literal : literal? text = .ok (.quad quad)) :
    normalize text = .ok (String.ofList quad.render) := by
  rw [normalize, literal]
  rfl

end Literals

/-! ## Canonical texts of groups -/

theorem normalize_eq_of_expand? {text : String} {groups : Groups} (accepted : isIpv6 text = true)
    (plain : embeddedQuad? (colonParts text.toList) = none)
    (expanded : Groups.expand? (lowered text) = some groups) :
    normalize text = .ok (String.ofList groups.render) := by
  have glued : glue ':' (colonParts text.toList) = lowered text := gluePieces ':' (lowered text)
  rw [normalize, literal?_of_plain accepted plain]
  simp only [bind, Except.bind, glued, expanded]
  rfl

theorem render_eq_render_iff {one two : Groups} : one.render = two.render ↔ one = two := by
  refine ⟨fun same => ?_, fun same => same ▸ rfl⟩
  have read := one.rendered_render.expand?_eq
  rw [same, two.rendered_render.expand?_eq] at read
  exact (Option.some.inj read).symm

/-- A text without a dotted quad that is taken for a literal denotes eight groups, and these are
what its canonical text is made of. -/
theorem exists_denotes_of_isIpv6 {text : String} (accepted : isIpv6 text = true)
    (plain : embeddedQuad? (colonParts text.toList) = none) :
    ∃ groups, (∀ others, Denotes (lowered text) others ↔ others = groups) ∧
      Groups.expand? (lowered text) = some groups ∧
      normalize text = .ok (String.ofList groups.render) := by
  have noQuad : isQuadLiteral (lastPart (pieces ':' (lowered text))) = false :=
    Option.isSome_eq_false_iff.2 (Option.isNone_iff_eq_none.2 plain)
  have form := (isIpv6_iff_accepted text).1 accepted
  obtain ⟨groups, denotes⟩ := form.exists_denotes noQuad
  have expanded := denotes.expand?_eq
  refine ⟨groups, fun others => ?_, expanded, normalize_eq_of_expand? accepted plain expanded⟩
  rw [denotes_iff_expand?_eq form noQuad, expanded, Option.some.injEq, eq_comm]

/-- Two literals without dotted quads have the same canonical text exactly if they denote the
same eight groups. -/
theorem normalize_eq_normalize_iff {one two : String} (acceptedOne : isIpv6 one = true)
    (acceptedTwo : isIpv6 two = true) (plainOne : embeddedQuad? (colonParts one.toList) = none)
    (plainTwo : embeddedQuad? (colonParts two.toList) = none) :
    ∃ first second : Groups,
      (∀ groups, Denotes (lowered one) groups ↔ groups = first) ∧
        (∀ groups, Denotes (lowered two) groups ↔ groups = second) ∧
        Groups.expand? (lowered one) = some first ∧ Groups.expand? (lowered two) = some second ∧
        (normalize one = normalize two ↔ first = second) := by
  obtain ⟨first, denotesOne, expandedOne, textOne⟩ := exists_denotes_of_isIpv6 acceptedOne plainOne
  obtain ⟨second, denotesTwo, expandedTwo, textTwo⟩ :=
    exists_denotes_of_isIpv6 acceptedTwo plainTwo
  refine ⟨first, second, denotesOne, denotesTwo, expandedOne, expandedTwo, ?_⟩
  rw [textOne, textTwo, ← render_eq_render_iff]
  constructor
  · intro same
    exact String.ofList_injective (Except.ok.inj same)
  · intro same
    rw [same]

theorem normalize_eq_of_spellings :
    normalize "2001:DB8::0:1" = normalize "2001:db8:0:00:0:0:0:0001" := by
  obtain ⟨first, second, -, -, expandedOne, expandedTwo, sameText⟩ :=
    @normalize_eq_normalize_iff "2001:DB8::0:1" "2001:db8:0:00:0:0:0:0001"
      (by decide) (by decide) (by decide) (by decide)
  have expanded : Groups.expand? (lowered "2001:DB8::0:1") =
      Groups.expand? (lowered "2001:db8:0:00:0:0:0:0001") := by decide
  rw [expandedOne, expandedTwo] at expanded
  exact sameText.2 (Option.some.inj expanded)

end PeerOverlay.Ip
