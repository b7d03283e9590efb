import PeerOverlay.Proofs.Ip.DottedQuad

/-!
# Private ranges

Whether a literal is private is told by the octets of the dotted quad that it carries, and by the
first of its eight groups if it carries none.  The first part of a literal tells its first group
without expanding it (`Denotes.exists_first`), and the canonical text tells the same.
-/

namespace PeerOverlay.Ip

open PeerOverlay.Text PeerOverlay.Numeral

/-! ## Ranges of octets -/

/-- The blocks 10/8, 172.16/12, 192.168/16, 100.64/10 and 169.254/16. -/
def Quad.InPrivateRange (quad : Quad) : Prop :=
  quad.first = 10 ∨
    (quad.first = 172 ∧ 16 ≤ quad.second ∧ quad.second ≤ 31) ∨
    (quad.first = 192 ∧ quad.second = 168) ∨
    (quad.first = 100 ∧ 64 ≤ quad.second ∧ quad.second ≤ 127) ∨
    (quad.first = 169 ∧ quad.second = 254)

instance : DecidablePred Quad.InPrivateRange :=
  fun _ => instDecidableOr

theorem Quad.toNat_eq (quad : Quad) :
    quad.toNat = quad.first.toNat * 2 ^ 24 + quad.second.toNat * 2 ^ 16 +
      quad.third.toNat * 2 ^ 8 + quad.fourth.toNat := by
  simp only [toNat, octets, List.foldl_cons, List.foldl_nil]
  omega

theorem Block.contains_iff {block : Block} {quad : Quad} :
    block.contains quad = true ↔
      quad.toNat / 2 ^ (32 - block.leadingBits) =
        block.network.toNat / 2 ^ (32 - block.leadingBits) :=
  beq_iff_eq

theorem Quad.isPrivate_iff {quad : Quad} : quad.isPrivate = true ↔ quad.InPrivateRange := by
  have second := quad.second.toNat_lt
  have third := quad.third.toNat_lt
  have fourth := quad.fourth.toNat_lt
  rw [isPrivate, List.any_eq_true]
  simp only [privateBlocks, List.mem_cons, List.not_mem_nil, or_false, or_and_right, exists_or,
    exists_eq_left, Block.contains_iff, toNat_eq, InPrivateRange]
  -- Leading bits are told by dividing, octet by octet.
  simp only [← UInt8.toNat_inj, UInt8.le_iff_toNat_le, UInt8.reduceToNat, Nat.reduceSub,
    Nat.reducePow, Nat.reduceMul, Nat.reduceAdd, Nat.reduceDiv]
  omega

/-! ## Ranges of groups -/

def Groups.first (groups : Groups) : UInt16 :=
  groups.toList.head (List.ne_nil_of_length_eq_add_one groups.eight)

theorem Groups.first_eq {groups : Groups} {group : UInt16} {others : List UInt16}
    (same : groups.toList = group :: others) : groups.first = group := by
  simp only [first, same, List.head_cons]

/-- The ranges fc00 to fdff and fe80 to febf of the first group. -/
def Groups.InPrivateRange (groups : Groups) : Prop :=
  (0xfc00 ≤ groups.first ∧ groups.first ≤ 0xfdff) ∨
    (0xfe80 ≤ groups.first ∧ groups.first ≤ 0xfebf)

instance : DecidablePred Groups.InPrivateRange :=
  fun _ => instDecidableOr

/-- A mask of neighbouring bits keeps the part of a number that stands there. -/
theorem land_mask (value low width : Nat) :
    value &&& (2 ^ width - 1) * 2 ^ low = value / 2 ^ low % 2 ^ width * 2 ^ low := by
  rw [← Nat.shiftLeft_eq, ← Nat.shiftLeft_eq, ← Nat.shiftRight_eq_div_pow,
    ← Nat.and_two_pow_sub_one_eq_mod]
  apply Nat.eq_of_testBit_eq
  intro place
  by_cases inside : low ≤ place
  · simp [inside, Bool.and_comm]
  · simp [inside]

theorem isPrivateGroup_iff {group : UInt16} :
    isPrivateGroup group = true ↔
      (0xfc00 ≤ group ∧ group ≤ 0xfdff) ∨ (0xfe80 ≤ group ∧ group ≤ 0xfebf) := by
  have below := group.toNat_lt
  have unique : group.toNat &&& 0xfe00 = group.toNat / 2 ^ 9 % 2 ^ 7 * 2 ^ 9 :=
    land_mask group.toNat 9 7
  have link : group.toNat &&& 0xffc0 = group.toNat / 2 ^ 6 % 2 ^ 10 * 2 ^ 6 :=
    land_mask group.toNat 6 10
  simp only [isPrivateGroup, Bool.or_eq_true, beq_iff_eq, ← UInt16.toNat_inj, UInt16.toNat_and,
    UInt16.le_iff_toNat_le, UInt16.reduceToNat, unique, link]
  omega

theorem isPrivateGroup_first (groups : Groups) :
    isPrivateGroup groups.first = decide groups.InPrivateRange := by
  rw [Bool.eq_iff_iff, isPrivateGroup_iff, decide_eq_true_iff]
  rfl

/-- The first part of a literal tells the first group, be it that it is left out. -/
theorem Denotes.exists_first {text : List Char} {groups : Groups} (denotes : Denotes text groups) :
    ∃ part others, pieces ':' text = part :: others ∧ group? part = some groups.first := by
  have zero : group? [] = some 0 := if_pos rfl
  cases denotes with
  | full parts spelled same =>
      have plain := plain_of_spelled spelled
      obtain ⟨group, others, row⟩ := List.exists_cons_of_length_eq_add_one groups.eight
      rw [row] at spelled
      cases spelled with
      | @cons part _ rest _ spells _ =>
          rw [same, pieces_glue (List.cons_ne_nil part rest) fun part member =>
            (plain part member).2, Groups.first_eq row]
          exact ⟨part, rest, rfl, spells.group?_eq⟩
  | elided front back high low zeros spelledFront spelledBack some? whole same =>
      have colonless : ∀ part ∈ front ++ back, ':' ∉ part := by
        rw [List.forall_mem_append]
        exact ⟨fun part member => (plain_of_spelled spelledFront part member).2,
          fun part member => (plain_of_spelled spelledBack part member).2⟩
      rw [same, pieces_elided colonless]
      cases spelledFront with
      | nil =>
          obtain ⟨more, rfl⟩ := Nat.exists_eq_add_one.2 some?
          rw [Groups.first_eq whole]
          exact ⟨[], [] :: sided back, rfl, zero⟩
      | @cons part group rest others spells _ =>
          rw [Groups.first_eq whole]
          exact ⟨part, rest ++ [] :: sided back, rfl, spells.group?_eq⟩
  | dangling back low zeros spelled someBack some? whole same =>
      obtain ⟨more, rfl⟩ := Nat.exists_eq_add_one.2 some?
      rw [same, pieces_dangling (isGroup_of_spelled spelled), Groups.first_eq whole]
      exact ⟨[], [] :: (back ++ [[]]), rfl, zero⟩

theorem Denotes.isPrivateParts_eq {text : List Char} {groups : Groups}
    (denotes : Denotes text groups) :
    isPrivateParts (pieces ':' text) = decide groups.InPrivateRange := by
  obtain ⟨part, others, parts, first⟩ := denotes.exists_first
  rw [parts, isPrivateParts, first, ← isPrivateGroup_first]
  rfl

/-! ## Literals -/

/-- A text is a dotted quad, or an IPv6 literal that ends in one. -/
def CarriesQuad (text : String) (quad : Quad) : Prop :=
  SpellsQuad text.toList quad ∨
    isIpv6 text = true ∧ SpellsQuad (lastPart (colonParts text.toList)) quad

section Literals

variable {text : String} {quad : Quad}

theorem CarriesQuad.literal?_eq (carries : CarriesQuad text quad) :
    literal? text = .ok (.quad quad) := by
  rcases carries with own | ⟨accepted, tail⟩
  · exact literal?_of_read? (Quad.read?_eq_some_iff.2 own)
  · exact literal?_of_embedded accepted (Quad.read?_eq_some_iff.2 tail)

theorem CarriesQuad.normalize_eq (carries : CarriesQuad text quad) :
    normalize text = .ok (String.ofList quad.render) :=
  normalize_of_literal? carries.literal?_eq

theorem CarriesQuad.isPrivate_eq (carries : CarriesQuad text quad) :
    isPrivate text = .ok (decide quad.InPrivateRange) := by
  have answer : quad.isPrivate = decide quad.InPrivateRange := by
    rw [Bool.eq_iff_iff, Quad.isPrivate_iff, decide_eq_true_iff]
  rw [isPrivate, carries.literal?_eq, ← answer]
  rfl

theorem carriesQuad_render (quad : Quad) : CarriesQuad (String.ofList quad.render) quad := by
  refine .inl (Quad.read?_eq_some_iff.1 ?_)
  rw [String.toList_ofList, quad.read?_render]

theorem isPrivate_of_denotes {groups : Groups} (accepted : isIpv6 text = true)
    (plain : embeddedQuad? (colonParts text.toList) = none)
    (denotes : Denotes (lowered text) groups) :
    isPrivate text = .ok (decide groups.InPrivateRange) := by
  rw [isPrivate, literal?_of_plain accepted plain, ← denotes.isPrivateParts_eq]
  rfl

theorem isPrivate_render (groups : Groups) :
    isPrivate (String.ofList groups.render) = .ok (decide groups.InPrivateRange) := by
  rw [isPrivate, literal?_render, ← (shortened_render groups).denotes.isPrivateParts_eq]
  rfl

/-- A literal carries a dotted quad, or it denotes eight groups. -/
theorem carriesQuad_or_denotes (accepted : isIpv4 text = true ∨ isIpv6 text = true) :
    (∃ quad, CarriesQuad text quad) ∨
      isIpv6 text = true ∧ embeddedQuad? (colonParts text.toList) = none := by
  rcases accepted with own | accepted
  · obtain ⟨quad, spells⟩ := isQuadLiteral_iff.1 own
    exact .inl ⟨quad, .inl spells⟩
  · cases tail : embeddedQuad? (colonParts text.toList) with
    | none => exact .inr ⟨accepted, rfl⟩
    | some quad => exact .inl ⟨quad, .inr ⟨accepted, Quad.read?_eq_some_iff.1 tail⟩⟩

theorem isPrivate_eq_error (noQuad : isIpv4 text = false) (refused : isIpv6 text = false) :
    isPrivate text = .error (.malformed text) := by
  have none : Quad.read? text.toList = none :=
    Option.isNone_iff_eq_none.1 (Option.isSome_eq_false_iff.1 noQuad)
  rw [isPrivate, literal?, none]
  simp [refused, Except.map]

theorem exists_isPrivate_iff :
    (∃ answer, isPrivate text = .ok answer) ↔ isIpv4 text = true ∨ isIpv6 text = true := by
  constructor
  · rintro ⟨answer, told⟩
    by_contra neither
    rw [not_or, Bool.not_eq_true, Bool.not_eq_true] at neither
    rw [isPrivate_eq_error neither.1 neither.2] at told
    cases told
  · intro accepted
    rcases carriesQuad_or_denotes accepted with ⟨quad, carries⟩ | ⟨accepted, plain⟩
    · exact ⟨_, carries.isPrivate_eq⟩
    · obtain ⟨groups, denotes, -, -⟩ := exists_denotes_of_isIpv6 accepted plain
      exact ⟨_, isPrivate_of_denotes accepted plain ((denotes groups).2 rfl)⟩

/-- The canonical text of a literal is as private as the literal. -/
theorem exists_normalize_isPrivate (accepted : isIpv4 text = true ∨ isIpv6 text = true) :
    ∃ sane, normalize text = .ok sane ∧ isPrivate sane = isPrivate text := by
  rcases carriesQuad_or_denotes accepted with ⟨quad, carries⟩ | ⟨accepted, plain⟩
  · refine ⟨_, carries.normalize_eq, ?_⟩
    rw [carries.isPrivate_eq, (carriesQuad_render quad).isPrivate_eq]
  · obtain ⟨groups, denotes, -, normalized⟩ := exists_denotes_of_isIpv6 accepted plain
    refine ⟨_, normalized, ?_⟩
    rw [isPrivate_of_denotes accepted plain ((denotes groups).2 rfl), isPrivate_render]

end Literals

/-- Exactly the literals are told private or not: one that carries a dotted quad by the ranges of
its octets, any other by the ranges of the first of its eight groups; and the canonical text is
told the same as the literal. -/
theorem isPrivate_classifies (text : String) :
    ((∃ answer, isPrivate text = .ok answer) ↔ isIpv4 text = true ∨ isIpv6 text = true) ∧
      (∀ quad, CarriesQuad text quad → isPrivate text = .ok (decide quad.InPrivateRange)) ∧
      (isIpv6 text = true → (∀ quad, ¬ CarriesQuad text quad) →
        ∃ groups, Groups.expand? (lowered text) = some groups ∧
          (∀ others, Denotes (lowered text) others ↔ others = groups) ∧
          isPrivate text = .ok (decide groups.InPrivateRange)) ∧
      (isIpv4 text = true ∨ isIpv6 text = true →
        ∃ sane, normalize text = .ok sane ∧ isPrivate sane = isPrivate text) := by
  refine ⟨exists_isPrivate_iff, fun quad carries => carries.isPrivate_eq, ?_,
    exists_normalize_isPrivate⟩
  intro accepted carriesNone
  have plain : embeddedQuad? (colonParts text.toList) = none :=
    ((carriesQuad_or_denotes (.inr accepted)).resolve_left
      fun ⟨quad, carries⟩ => carriesNone quad carries).2
  obtain ⟨groups, denotes, expanded, -⟩ := exists_denotes_of_isIpv6 accepted plain
  exact ⟨groups, expanded, denotes,
    isPrivate_of_denotes accepted plain ((denotes groups).2 rfl)⟩

/-- The last address of the link-local range, and the first one behind it. -/
example : isPrivate "FEBF::1" = .ok true ∧ isPrivate "fec0::1" = .ok false := by decide

end PeerOverlay.Ip
