import PeerOverlay.Proofs.Ip.PrivateRanges

/-!
# Spellings of one address

The low 32 bits of an address may be spelled as a dotted quad or as two groups.  Literals that
spell them in the same way are treated alike; of two that do not, one is treated as the quad and
the other as the eight groups (`spellings_agree_iff_alike`).
-/

namespace PeerOverlay.Ip

open PeerOverlay.Text PeerOverlay.Numeral

/-! ## The low 32 bits -/

def joined (high low : UInt8) : UInt16 :=
  UInt16.ofNat (high.toNat * 256 + low.toNat)

/-- The two groups that have the bits of a quad. -/
def Quad.groups (quad : Quad) : List UInt16 :=
  [joined quad.first quad.second, joined quad.third quad.fourth]

/-- The quad that has the bits of the last two groups. -/
def Groups.lowQuad (groups : Groups) : Quad :=
  let high := groups.toList.getD 6 0
  let low := groups.toList.getD 7 0
  ⟨(high >>> 8).toUInt8, high.toUInt8, (low >>> 8).toUInt8, low.toUInt8⟩

theorem toNat_joined (high low : UInt8) :
    (joined high low).toNat = high.toNat * 256 + low.toNat := by
  have highBelow := high.toNat_lt
  have lowBelow := low.toNat_lt
  have below : high.toNat * 256 + low.toNat < 65536 := by omega
  exact UInt16.toNat_ofNat_of_lt' below

theorem toUInt8_joined (high low : UInt8) :
    (joined high low >>> 8).toUInt8 = high ∧ (joined high low).toUInt8 = low := by
  have highBelow := high.toNat_lt
  have lowBelow := low.toNat_lt
  simp only [← UInt8.toNat_inj, UInt16.toNat_toUInt8, UInt16.toNat_shiftRight,
    Nat.shiftRight_eq_div_pow, toNat_joined, UInt16.reduceToNat, Nat.reduceMod, Nat.reducePow]
  omega

theorem Groups.lowQuad_eq {groups : Groups} {initial : List UInt16} {quad : Quad}
    (same : groups.toList = initial ++ quad.groups) : groups.lowQuad = quad := by
  have six : initial.length = 6 := by
    have eight := groups.eight
    rw [same, List.length_append] at eight
    exact Nat.add_right_cancel eight
  have high : groups.toList.getD 6 0 = joined quad.first quad.second := by
    rw [same, List.getD_eq_getElem?_getD, List.getElem?_append_right (by omega), six]
    rfl
  have low : groups.toList.getD 7 0 = joined quad.third quad.fourth := by
    rw [same, List.getD_eq_getElem?_getD, List.getElem?_append_right (by omega), six]
    rfl
  simp only [lowQuad, high, low, toUInt8_joined]

/-! ## The address of a literal -/

/-- The address that a text spells: the groups that it denotes, a dotted quad at its end being read
as the last two of them. -/
inductive Addresses (text : List Char) (groups : Groups) : Prop where
  | plain (denotes : Denotes text groups)
  | dotted (front tail : List Char) (quad : Quad) (spells : SpellsQuad tail quad)
      (same : text = front ++ ':' :: tail)
      (denotes : Denotes (front ++ ':' :: Groups.renderRow quad.groups) groups)

theorem SpellsQuad.isQuadLiteral {text : List Char} {quad : Quad} (spells : SpellsQuad text quad) :
    isQuadLiteral text = true :=
  isQuadLiteral_iff.2 ⟨quad, spells⟩

theorem SpellsQuad.unique {text : List Char} {quad other : Quad} (spells : SpellsQuad text quad)
    (spellsOther : SpellsQuad text other) : quad = other := by
  rw [← Quad.read?_eq_some_iff] at spells spellsOther
  exact Option.some.inj (spells.symm.trans spellsOther)

theorem Denotes.unique {text : List Char} {groups others : Groups} (denotes : Denotes text groups)
    (denotesOthers : Denotes text others) : groups = others :=
  Option.some.inj (denotes.expand?_eq.symm.trans denotesOthers.expand?_eq)

section Address

variable {text front tail : List Char} {quad : Quad} {groups others : Groups}

theorem not_denotes_of_dotted (spells : SpellsQuad tail quad) :
    ¬ Denotes (front ++ ':' :: tail) groups := by
  intro denotes
  have dot := dot_mem_of_isQuadLiteral spells.isQuadLiteral
  exact denotes.dot_not_mem (List.mem_append_right front (List.mem_cons_of_mem ':' dot))

/-- A text spells one address only. -/
theorem Addresses.unique (addresses : Addresses text groups)
    (addressesOthers : Addresses text others) : groups = others := by
  cases addresses with
  | plain denotes =>
      cases addressesOthers with
      | plain denotesOthers => exact denotes.unique denotesOthers
      | dotted _ _ _ spells same _ =>
          rw [same] at denotes
          exact absurd denotes (not_denotes_of_dotted spells)
  | dotted front tail quad spells same denotes =>
      cases addressesOthers with
      | plain denotesOthers =>
          rw [same] at denotesOthers
          exact absurd denotesOthers (not_denotes_of_dotted spells)
      | dotted before behind other spellsOther sameOther denotesOthers =>
          -- The quad stands behind the last colon.
          obtain ⟨rfl, rfl⟩ := append_cons_inj_of_not_mem
            (colon_not_mem_of_isQuadLiteral spells.isQuadLiteral)
            (colon_not_mem_of_isQuadLiteral spellsOther.isQuadLiteral) (same.symm.trans sameOther)
          obtain rfl := spells.unique spellsOther
          exact denotes.unique denotesOthers

end Address

/-! ## Literals with a dotted quad -/

theorem extend?_zeros {row : List Char} (zeros : ∀ char ∈ row, char = '0') :
    extend? 16 0 row = some 0 := by
  induction row with
  | nil => rfl
  | cons digit rest hypothesis =>
      rw [List.forall_mem_cons] at zeros
      rw [zeros.1, extend?]
      exact hypothesis zeros.2

theorem Spells.eq_zero {part : List Char} {group : UInt16} (spells : Spells part group)
    (zeros : ∀ char ∈ part, char = '0') : group = 0 := by
  have value := spells.value
  rw [read?, if_neg spells.isGroup.some?, extend?_zeros zeros] at value
  exact UInt16.toNat_inj.1 (Option.some.inj value).symm

/-- What stands behind parts on the right of a doubled colon stands behind a colon. -/
theorem exists_elided_append (front back : List (List Char)) :
    ∃ initial, ∀ parts, parts ≠ [] →
      elided front (back ++ parts) = initial ++ ':' :: glue ':' parts := by
  by_cases none : back = []
  · refine ⟨glue ':' front ++ [':'], fun parts _ => ?_⟩
    rw [none, List.nil_append, elided, List.append_assoc]
    rfl
  · refine ⟨elided front back, fun parts some? => ?_⟩
    rw [elided, glue_append none some?, elided, List.append_assoc]
    rfl

/-- Around a doubled colon and without a dotted quad, the last part is none. -/
theorem isQuadLiteral_lastPart_elided {front back : List (List Char)}
    (each : ∀ part ∈ front ++ back, IsGroup part) :
    isQuadLiteral (lastPart (pieces ':' (elided front back))) = false := by
  rw [pieces_elided fun part member => (each part member).colon_not_mem]
  exact plain_of_isHexGroup fun part member => isHexGroup_of_mem_row each member

/-- A dotted quad at the end stands on the right of a doubled colon, behind zero groups. -/
theorem Accepted.exists_row {text : List Char} (accepted : Accepted text)
    (isQuad : isQuadLiteral (lastPart (pieces ':' text)) = true) :
    ∃ front back, (∀ part ∈ front ++ back, IsGroup part) ∧
      (∀ part ∈ front, ∀ char ∈ part, char = '0') ∧ front.length + back.length ≤ 5 ∧
      text = Ip.elided front (back ++ [lastPart (pieces ':' text)]) := by
  cases accepted with
  | groups parts eight each same =>
      have some? : parts ≠ [] := by
        rintro rfl
        cases eight
      rw [same, pieces_glue some? fun part member => (each part member).colon_not_mem,
        plain_of_isHexGroup fun part member => (each part member).isHexGroup] at isQuad
      cases isQuad
  | elided front back each room same =>
      rw [same, isQuadLiteral_lastPart_elided each] at isQuad
      cases isQuad
  | dangling back some? each room same =>
      have ends : lastPart (pieces ':' text) = [] := by
        rw [same, pieces_dangling each]
        exact lastPart_concat ([] :: [] :: back) []
      rw [ends] at isQuad
      cases isQuad
  | quad front back quad isQuad each zeros room same =>
      rw [List.forall_mem_append] at zeros
      have cut := pieces_quad isQuad each
      rw [← same] at cut
      refine ⟨front, back, each, zeros.1, ?_, by rw [cut, lastPart_concat, ← same]⟩
      have fewer := length_le_length_sided front
      rw [cut] at room
      simp only [List.length_append, List.length_cons, List.length_nil] at room
      omega

/-- A literal with a dotted quad addresses groups of which the first is zero and the last two have
the bits of the quad. -/
theorem Accepted.exists_addresses {text : List Char} (accepted : Accepted text) {quad : Quad}
    (embedded : SpellsQuad (lastPart (pieces ':' text)) quad) :
    ∃ groups, Addresses text groups ∧ groups.first = 0 ∧ groups.lowQuad = quad := by
  obtain ⟨front, back, each, zeros, room, same⟩ := accepted.exists_row embedded.isQuadLiteral
  rw [List.forall_mem_append] at each
  obtain ⟨high, spelledFront⟩ := exists_forall₂_spells each.1
  obtain ⟨low, spelledBack⟩ := exists_forall₂_spells each.2
  have most : high.length + (low ++ quad.groups).length ≤ 7 := by
    have two : quad.groups.length = 2 := rfl
    rw [List.length_append, two, ← spelledFront.length_eq, ← spelledBack.length_eq]
    omega
  obtain ⟨groups, count, some?, whole⟩ := exists_groups most
  obtain ⟨initial, cut⟩ := exists_elided_append front back
  refine ⟨groups, .dotted initial _ quad embedded ?_ ?_, ?_, ?_⟩
  · exact same.trans (by rw [cut _ (List.cons_ne_nil _ _), glue_singleton])
  · -- With the two groups in place of the quad, the text denotes the groups.
    refine .elided front (back ++ quad.groups.map renderGroup) high (low ++ quad.groups) count
      spelledFront (List.rel_append spelledBack (spells_map_renderGroup quad.groups)) some?
      whole ?_
    rw [cut _ (by simp [Quad.groups])]
    rfl
  · cases spelledFront with
    | nil =>
        obtain ⟨more, rfl⟩ := Nat.exists_eq_add_one.2 some?
        exact Groups.first_eq whole
    | @cons part group rest others spells _ =>
        rw [Groups.first_eq whole]
        exact spells.eq_zero (zeros part List.mem_cons_self)
  · rw [← List.append_assoc] at whole
    exact Groups.lowQuad_eq whole

/-! ## Meaningless addresses -/

def meaninglessQuads : List Quad :=
  [⟨0, 0, 0, 0⟩, ⟨127, 0, 0, 1⟩, ⟨255, 255, 255, 255⟩]

/-- All bits are zero, or all but the last one. -/
def Groups.IsMeaningless (groups : Groups) : Prop :=
  groups.toList ∈ [List.replicate 8 0, List.replicate 7 0 ++ [1]]

instance : DecidablePred Groups.IsMeaningless :=
  fun groups => inferInstanceAs
    (Decidable (groups.toList ∈ [List.replicate 8 0, List.replicate 7 0 ++ [1]]))

theorem render_mem_meaningless_iff {quad : Quad} :
    String.ofList quad.render ∈ meaninglessAddresses ↔ quad ∈ meaninglessQuads := by
  have read : ∀ text ∈ meaninglessAddresses, ∀ quad ∈ Quad.read? text.toList,
      quad ∈ meaninglessQuads := by decide
  have written : ∀ quad ∈ meaninglessQuads,
      String.ofList quad.render ∈ meaninglessAddresses := by decide
  refine ⟨fun member => read _ member quad ?_, written quad⟩
  rw [String.toList_ofList, quad.read?_render]
  rfl

theorem renderGroups_mem_meaningless_iff {groups : Groups} :
    String.ofList groups.render ∈ meaninglessAddresses ↔ groups.IsMeaningless := by
  have read : ∀ text ∈ meaninglessAddresses, ∀ groups ∈ Groups.expand? text.toList,
      groups.IsMeaningless := by decide
  constructor
  · intro member
    refine read _ member groups ?_
    rw [String.toList_ofList, groups.rendered_render.expand?_eq]
    rfl
  · have zeros : String.ofList (Groups.render ⟨List.replicate 8 0, rfl⟩) ∈
        meaninglessAddresses := by decide
    have lastBit : String.ofList (Groups.render ⟨List.replicate 7 0 ++ [1], rfl⟩) ∈
        meaninglessAddresses := by decide
    obtain ⟨row, eight⟩ := groups
    intro meaningless
    rcases List.mem_cons.1 meaningless with rfl | last
    · exact zeros
    · obtain rfl := List.mem_singleton.1 last
      exact lastBit

theorem exists_sanitize_iff {text sane : String} (normalized : normalize text = .ok sane) :
    (∃ usable, sanitize text = .ok usable) ↔ sane ∉ meaninglessAddresses := by
  simp only [sanitize_eq_ok_iff, normalized, Except.ok.injEq]
  exact ⟨fun ⟨_, same, usable⟩ => same ▸ usable, fun usable => ⟨sane, rfl, usable⟩⟩

/-! ## How a literal is treated -/

/-- Whether the low 32 bits of a literal are spelled as a dotted quad. -/
def IsDotted (text : String) : Prop :=
  ∃ quad, SpellsQuad (lastPart (colonParts text.toList)) quad

theorem not_isDotted_of_denotes {text : String} {groups : Groups}
    (denotes : Denotes (lowered text) groups) : ¬ IsDotted text := by
  rintro ⟨quad, spells⟩
  refine not_mem_lastPart (fun part known dot => ?_)
    (dot_mem_of_isQuadLiteral spells.isQuadLiteral)
  exact denotes.dot_not_mem (mem_of_mem_pieces known dot)

/-- A literal is treated as the quad in the low 32 bits of its address, which by its groups is
never private. -/
structure TreatedAsQuad (text : String) (groups : Groups) : Prop where
  dotted : IsDotted text
  canonical : normalize text = .ok (String.ofList groups.lowQuad.render)
  range : isPrivate text = .ok (decide groups.lowQuad.InPrivateRange)
  usable : (∃ sane, sanitize text = .ok sane) ↔ groups.lowQuad ∉ meaninglessQuads
  first : groups.first = 0

/-- A literal is treated as the eight groups of its address. -/
structure TreatedAsGroups (text : String) (groups : Groups) : Prop where
  plain : ¬ IsDotted text
  canonical : normalize text = .ok (String.ofList groups.render)
  range : isPrivate text = .ok (decide groups.InPrivateRange)
  usable : (∃ sane, sanitize text = .ok sane) ↔ ¬ groups.IsMeaningless

theorem exists_addresses_and_treated {text : String} (accepted : isIpv6 text = true) :
    ∃ groups, (∀ others, Addresses (lowered text) others ↔ others = groups) ∧
      (TreatedAsQuad text groups ∨ TreatedAsGroups text groups) := by
  have form := (isIpv6_iff_accepted text).1 accepted
  cases tail : embeddedQuad? (colonParts text.toList) with
  | some quad =>
      have embedded : SpellsQuad (lastPart (colonParts text.toList)) quad :=
        Quad.read?_eq_some_iff.1 tail
      obtain ⟨groups, addresses, first, rfl⟩ := form.exists_addresses embedded
      have carries : CarriesQuad text groups.lowQuad := .inr ⟨accepted, embedded⟩
      refine ⟨groups, fun others => ⟨fun other => other.unique addresses, ?_⟩, .inl ?_⟩
      · rintro rfl
        exact addresses
      · refine ⟨⟨_, embedded⟩, carries.normalize_eq, carries.isPrivate_eq, ?_, first⟩
        rw [exists_sanitize_iff carries.normalize_eq, render_mem_meaningless_iff]
  | none =>
      obtain ⟨groups, denotes, -, normalized⟩ := exists_denotes_of_isIpv6 accepted tail
      have own := (denotes groups).2 rfl
      refine ⟨groups, fun others => ⟨fun other => other.unique (.plain own), ?_⟩, .inr ?_⟩
      · rintro rfl
        exact .plain own
      · refine ⟨not_isDotted_of_denotes own, normalized,
          isPrivate_of_denotes accepted tail own, ?_⟩
        rw [exists_sanitize_iff normalized, renderGroups_mem_meaningless_iff]

theorem render_ne_render {quad : Quad} {groups : Groups} : quad.render ≠ groups.render := by
  intro same
  have dot := dot_mem_of_isQuadLiteral (isQuadLiteral_render quad)
  rw [same] at dot
  exact (groups.rendered_render.plain dot).1 rfl

section Treated

variable {one two : String} {groups : Groups}

/-- Two literals of one address get the same canonical text, the same answer about private ranges
and the same acceptance if and only if they are alike or what they are treated as is so. -/
structure AgreeIffAlike (one two : String) (groups : Groups) : Prop where
  canonical : normalize one = normalize two ↔ (IsDotted one ↔ IsDotted two)
  range : isPrivate one = isPrivate two ↔
    (IsDotted one ↔ IsDotted two) ∨ ¬ groups.lowQuad.InPrivateRange
  usable : ((∃ sane, sanitize one = .ok sane) ↔ ∃ sane, sanitize two = .ok sane) ↔
    (IsDotted one ↔ IsDotted two) ∨ (groups.lowQuad ∈ meaninglessQuads ↔ groups.IsMeaningless)

theorem AgreeIffAlike.symm (agree : AgreeIffAlike one two groups) :
    AgreeIffAlike two one groups := by
  have alike : (IsDotted two ↔ IsDotted one) ↔ (IsDotted one ↔ IsDotted two) := iff_comm
  constructor <;> rw [alike]
  · exact eq_comm.trans agree.canonical
  · exact eq_comm.trans agree.range
  · exact iff_comm.trans agree.usable

theorem TreatedAsQuad.agree (quadOne : TreatedAsQuad one groups)
    (quadTwo : TreatedAsQuad two groups) : AgreeIffAlike one two groups := by
  have alike : IsDotted one ↔ IsDotted two := iff_of_true quadOne.dotted quadTwo.dotted
  refine ⟨iff_of_true ?_ alike, iff_of_true ?_ (.inl alike), iff_of_true ?_ (.inl alike)⟩
  · rw [quadOne.canonical, quadTwo.canonical]
  · rw [quadOne.range, quadTwo.range]
  · rw [quadOne.usable, quadTwo.usable]

theorem TreatedAsGroups.agree (groupsOne : TreatedAsGroups one groups)
    (groupsTwo : TreatedAsGroups two groups) : AgreeIffAlike one two groups := by
  have alike : IsDotted one ↔ IsDotted two := iff_of_false groupsOne.plain groupsTwo.plain
  refine ⟨iff_of_true ?_ alike, iff_of_true ?_ (.inl alike), iff_of_true ?_ (.inl alike)⟩
  · rw [groupsOne.canonical, groupsTwo.canonical]
  · rw [groupsOne.range, groupsTwo.range]
  · rw [groupsOne.usable, groupsTwo.usable]

theorem not_inPrivateRange_of_first (zero : groups.first = 0) : ¬ groups.InPrivateRange := by
  unfold Groups.InPrivateRange
  rw [zero]
  decide

theorem TreatedAsQuad.agree_groups (asQuad : TreatedAsQuad one groups)
    (asGroups : TreatedAsGroups two groups) : AgreeIffAlike one two groups := by
  have unlike : ¬ (IsDotted one ↔ IsDotted two) :=
    fun alike => asGroups.plain (alike.1 asQuad.dotted)
  refine ⟨iff_of_false ?_ unlike, ?_, ?_⟩
  · rw [asQuad.canonical, asGroups.canonical]
    intro same
    exact render_ne_render (String.ofList_injective (Except.ok.inj same))
  · rw [asQuad.range, asGroups.range, Except.ok.injEq, decide_eq_decide, or_iff_right unlike]
    exact iff_false_right (not_inPrivateRange_of_first asQuad.first)
  · rw [asQuad.usable, asGroups.usable, or_iff_right unlike, not_iff_not]

end Treated

/-! ## Mapped quads -/

/-- The address that a quad is mapped to: ten zero bytes and two with all bits set before it. -/
def Quad.mapped (quad : Quad) : Groups :=
  ⟨[0, 0, 0, 0, 0, 0xffff] ++ quad.groups, rfl⟩

def Quad.mappedDotted (quad : Quad) : String :=
  String.ofList ("::ffff:".toList ++ quad.render)

def Quad.mappedHex (quad : Quad) : String :=
  String.ofList ("::ffff:".toList ++ Groups.renderRow quad.groups)

theorem lowered_ofList {text : List Char} (small : ∀ char ∈ text, char.toLower = char) :
    lowered (String.ofList text) = text := by
  rw [lowered, String.toList_ofList, List.map_congr_left small]
  exact List.map_id text

theorem lowered_mappedDotted (quad : Quad) :
    lowered quad.mappedDotted = "::ffff:".toList ++ quad.render := by
  refine lowered_ofList (List.forall_mem_append.2 ⟨by simp, fun char member => ?_⟩)
  rcases mem_glue member with rfl | ⟨part, known, inside⟩
  · rfl
  · obtain ⟨octet, -, rfl⟩ := List.mem_map.1 known
    exact (plain_of_mem_render (by decide) (by decide) inside).2.2.2.2.2

theorem lowered_mappedHex (quad : Quad) :
    lowered quad.mappedHex = "::ffff:".toList ++ Groups.renderRow quad.groups := by
  refine lowered_ofList (List.forall_mem_append.2 ⟨by simp, fun char member => ?_⟩)
  rcases Groups.mem_renderRow member with rfl | ⟨group, digit⟩
  · rfl
  · exact (plain_of_mem_renderGroup digit).2.2

theorem spells_ffff : Spells "ffff".toList 0xffff where
  isGroup := by decide
  value := by decide

theorem denotes_mapped (quad : Quad) :
    Denotes ("::ffff:".toList ++ Groups.renderRow quad.groups) quad.mapped :=
  .elided [] ("ffff".toList :: quad.groups.map renderGroup) [] (0xffff :: quad.groups) 5 .nil
    (.cons spells_ffff (spells_map_renderGroup quad.groups)) (by decide) rfl rfl

theorem addresses_mapped (quad : Quad) :
    Addresses (lowered quad.mappedDotted) quad.mapped ∧
      Addresses (lowered quad.mappedHex) quad.mapped := by
  rw [lowered_mappedDotted, lowered_mappedHex]
  have spells : SpellsQuad quad.render quad := Quad.read?_eq_some_iff.1 quad.read?_render
  exact ⟨.dotted "::ffff".toList quad.render quad spells rfl (denotes_mapped quad),
    .plain (denotes_mapped quad)⟩

theorem accepted_mappedDotted (quad : Quad) :
    isIpv6 quad.mappedDotted = true ∧ IsDotted quad.mappedDotted := by
  have isQuad := isQuadLiteral_render quad
  have each : ∀ part ∈ [] ++ ["ffff".toList], IsGroup part :=
    List.forall_mem_singleton.2 spells_ffff.isGroup
  have text : lowered quad.mappedDotted = elided [] (["ffff".toList] ++ [quad.render]) := by
    rw [lowered_mappedDotted, elided, List.singleton_append, glue_cons_cons, glue_singleton]
    rfl
  have parts : pieces ':' (lowered quad.mappedDotted) = [[], [], "ffff".toList, quad.render] := by
    rw [text, pieces_quad isQuad each]
    rfl
  constructor
  · rw [isIpv6_iff_accepted]
    exact .quad [] ["ffff".toList] quad.render isQuad each (by simp) (by simp [parts]) text
  · refine ⟨quad, ?_⟩
    have tail : lastPart (colonParts quad.mappedDotted.toList) = quad.render :=
      congrArg lastPart parts
    rw [tail]
    exact Quad.read?_eq_some_iff.1 quad.read?_render

theorem accepted_mappedHex (quad : Quad) : isIpv6 quad.mappedHex = true := by
  have each : ∀ part ∈ [] ++ "ffff".toList :: quad.groups.map renderGroup, IsGroup part :=
    List.forall_mem_cons.2 ⟨spells_ffff.isGroup, fun part member => isGroup_of_mem_map member⟩
  have text : lowered quad.mappedHex =
      elided [] ("ffff".toList :: quad.groups.map renderGroup) := lowered_mappedHex quad
  rw [isIpv6_iff_accepted]
  refine .elided [] ("ffff".toList :: quad.groups.map renderGroup) each ?_ text
  rw [text, pieces_elided fun part member => (each part member).colon_not_mem]
  simp [sided, Quad.groups]

theorem treated_mapped (quad : Quad) :
    TreatedAsQuad quad.mappedDotted quad.mapped ∧ TreatedAsGroups quad.mappedHex quad.mapped := by
  obtain ⟨acceptedDotted, isDotted⟩ := accepted_mappedDotted quad
  obtain ⟨addressDotted, addressHex⟩ := addresses_mapped quad
  have plain : ¬ IsDotted quad.mappedHex :=
    not_isDotted_of_denotes (lowered_mappedHex quad ▸ denotes_mapped quad)
  constructor
  · obtain ⟨groups, address, treated⟩ := exists_addresses_and_treated acceptedDotted
    obtain rfl := (address _).1 addressDotted
    exact treated.resolve_right fun asGroups => asGroups.plain isDotted
  · obtain ⟨groups, address, treated⟩ := exists_addresses_and_treated (accepted_mappedHex quad)
    obtain rfl := (address _).1 addressHex
    exact treated.resolve_left fun asQuad => plain asQuad.dotted

/-- The two spellings of a mapped quad never have the same canonical text, and are told private or
not, and accepted or refused, alike only if the quad is neither private nor meaningless. -/
theorem mapped_spellings_differ (quad : Quad) :
    normalize quad.mappedDotted ≠ normalize quad.mappedHex ∧
      (isPrivate quad.mappedDotted = isPrivate quad.mappedHex ↔ ¬ quad.InPrivateRange) ∧
      (((∃ sane, sanitize quad.mappedDotted = .ok sane) ↔
        ∃ sane, sanitize quad.mappedHex = .ok sane) ↔ quad ∉ meaninglessQuads) := by
  obtain ⟨asQuad, asGroups⟩ := treated_mapped quad
  have agree := asQuad.agree_groups asGroups
  have unlike : ¬ (IsDotted quad.mappedDotted ↔ IsDotted quad.mappedHex) :=
    fun alike => asGroups.plain (alike.1 asQuad.dotted)
  have lowQuad : quad.mapped.lowQuad = quad :=
    @Groups.lowQuad_eq quad.mapped [0, 0, 0, 0, 0, 0xffff] quad rfl
  have usable : ¬ quad.mapped.IsMeaningless := by
    simp [Groups.IsMeaningless, Quad.mapped, Quad.groups]
  have range := agree.range
  have sane := agree.usable
  rw [or_iff_right unlike, lowQuad] at range sane
  rw [iff_false_right usable] at sane
  exact ⟨fun same => unlike (agree.canonical.1 same), range, sane⟩

/-- Every accepted literal spells one address.  Of two literals of the same address, the canonical
texts are the same exactly if both spell the low 32 bits in the same way; they are told private or
not alike exactly if that is so or the quad in the low 32 bits is not private; and they are alike
accepted or refused exactly if that is so or the quad and the groups are alike meaningless. -/
theorem spellings_agree_iff_alike {one two : String} (acceptedOne : isIpv6 one = true)
    (acceptedTwo : isIpv6 two = true) :
    ∃ first second : Groups,
      (∀ groups, Addresses (lowered one) groups ↔ groups = first) ∧
        (∀ groups, Addresses (lowered two) groups ↔ groups = second) ∧
        (first = second → AgreeIffAlike one two first) := by
  obtain ⟨first, addressOne, treatedOne⟩ := exists_addresses_and_treated acceptedOne
  obtain ⟨second, addressTwo, treatedTwo⟩ := exists_addresses_and_treated acceptedTwo
  refine ⟨first, second, addressOne, addressTwo, ?_⟩
  rintro rfl
  rcases treatedOne with quadOne | groupsOne <;> rcases treatedTwo with quadTwo | groupsTwo
  · exact quadOne.agree quadTwo
  · exact quadOne.agree_groups groupsTwo
  · exact (quadTwo.agree_groups groupsOne).symm
  · exact groupsOne.agree groupsTwo

/-- The spellings of a public address get different texts and the same answer. -/
theorem spellings_agree_iff_alike_public :
    isIpv6 "::8.8.8.8" = true ∧ isIpv6 "::808:808" = true ∧
      AgreeIffAlike "::8.8.8.8" "::808:808" ⟨[0, 0, 0, 0, 0, 0, 0x808, 0x808], rfl⟩ := by
  have dotted : isIpv6 "::8.8.8.8" = true := by decide
  have hex : isIpv6 "::808:808" = true := by decide
  obtain ⟨first, second, addressOne, addressTwo, agree⟩ :=
    @spellings_agree_iff_alike "::8.8.8.8" "::808:808" dotted hex
  have denotes : Denotes "::808:808".toList ⟨[0, 0, 0, 0, 0, 0, 0x808, 0x808], rfl⟩ :=
    (denotes_iff_expand?_eq ((isIpv6_iff_accepted _).1 hex) (by decide)).2 (by decide)
  have spells : SpellsQuad "8.8.8.8".toList ⟨8, 8, 8, 8⟩ :=
    Quad.read?_eq_some_iff.1 (by decide)
  obtain rfl := (addressOne _).1 (.dotted ":".toList _ _ spells (by decide) denotes)
  obtain rfl := (addressTwo _).1 (.plain denotes)
  exact ⟨dotted, hex, agree rfl⟩

/-- In the hexadecimal spelling, a private address is told public, and one that names no peer is
accepted. -/
theorem mapped_spellings_told_apart :
    ((∃ groups, Addresses (lowered "::ffff:10.0.0.1") groups ∧
        Addresses (lowered "::ffff:a00:1") groups) ∧
      isIpv6 "::ffff:10.0.0.1" = true ∧ isIpv6 "::ffff:a00:1" = true ∧
      normalize "::ffff:10.0.0.1" = .ok "10.0.0.1" ∧
      normalize "::ffff:a00:1" = .ok "::ffff:a00:1" ∧
      isPrivate "::ffff:10.0.0.1" = .ok true ∧ isPrivate "::ffff:a00:1" = .ok false) ∧
    (∃ groups, Addresses (lowered "::ffff:127.0.0.1") groups ∧
        Addresses (lowered "::ffff:7f00:1") groups) ∧
      isIpv6 "::ffff:127.0.0.1" = true ∧ isIpv6 "::ffff:7f00:1" = true ∧
      sanitize "::ffff:127.0.0.1" = .error (.malformed "::ffff:127.0.0.1") ∧
      sanitize "::ffff:7f00:1" = .ok "::ffff:7f00:1" := by
  have privateTexts : Quad.mappedDotted ⟨10, 0, 0, 1⟩ = "::ffff:10.0.0.1" ∧
      Quad.mappedHex ⟨10, 0, 0, 1⟩ = "::ffff:a00:1" := by decide
  have loopbackTexts : Quad.mappedDotted ⟨127, 0, 0, 1⟩ = "::ffff:127.0.0.1" ∧
      Quad.mappedHex ⟨127, 0, 0, 1⟩ = "::ffff:7f00:1" := by decide
  have privateAddress := addresses_mapped ⟨10, 0, 0, 1⟩
  have loopbackAddress := addresses_mapped ⟨127, 0, 0, 1⟩
  rw [privateTexts.1, privateTexts.2] at privateAddress
  rw [loopbackTexts.1, loopbackTexts.2] at loopbackAddress
  exact ⟨⟨⟨_, privateAddress⟩, by decide, by decide, by decide, by decide, by decide, by decide⟩,
    ⟨_, loopbackAddress⟩, by decide, by decide, by decide, by decide⟩

end PeerOverlay.Ip
