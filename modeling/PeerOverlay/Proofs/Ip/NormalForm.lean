import PeerOverlay.NetAddress
import PeerOverlay.Proofs.Ip.Denotation

/-!
# Normal forms

Every literal has a canonical text, and nothing else has one.  A canonical text is in normal
form: small letters, no needless zeros, and a doubled colon exactly in place of the first longest
run of at least two zero groups.
-/

namespace PeerOverlay

open PeerOverlay.Text

/-! ## Digits -/

namespace Numeral

theorem eq_zero_of_digitChar {digit : Nat} (below : digit < 16) (zero : digit.digitChar = '0') :
    digit = 0 := by
  have all : ∀ digit : Fin 16, digit.val.digitChar = '0' → digit.val = 0 := by decide
  exact all ⟨digit, below⟩ zero

/-- Only zero is written with a leading zero. -/
theorem eq_zero_of_head_render {base : Nat} (large : 1 < base) (small : base ≤ 16) {value : Nat}
    (leading : (render base value).head? = some '0') : value = 0 := by
  induction value using Nat.strongRecOn with
  | ind value hypothesis =>
      by_cases below : value < base
      · rw [render, Nat.toDigits_of_lt_base below] at leading
        exact eq_zero_of_digitChar (by omega) (Option.some.inj leading)
      · have above : base ≤ value := Nat.le_of_not_lt below
        rw [render, Nat.toDigits_of_base_le large above,
          List.head?_append_of_ne_nil _ Nat.toDigits_ne_nil] at leading
        have front := hypothesis (value / base) (Nat.div_lt_self (by omega) large) leading
        have positive := Nat.div_pos above (by omega)
        omega

end Numeral

namespace Ip

/-- Whether a row of digits has no zero in front that could be left out. -/
def IsTrimmed (digits : List Char) : Prop :=
  digits.head? = some '0' → digits = ['0']

theorem isTrimmed_render {base : Nat} (large : 1 < base) (small : base ≤ 16) (value : Nat) :
    IsTrimmed (Numeral.render base value) := by
  intro leading
  rw [Numeral.eq_zero_of_head_render large small leading, Numeral.render,
    Nat.toDigits_of_lt_base (by omega)]
  rfl

theorem isUpper_eq_false {char : Char} (small : char.toLower = char) : char.isUpper = false := by
  delta Char.isUpper Char.toLower at *
  rw [decide_eq_false_iff_not]
  intro large
  rw [dif_pos large] at small
  have code : char.val + 32 = char.val := congrArg Char.val small
  grind

/-! ## The first longest run of zeros -/

open Groups

/-- A run of zeros that no other exceeds, before all others of its length. -/
structure FirstLongest (row : List UInt16) (run : Nat × Nat) : Prop where
  zeros : SpansZeros row run
  longest : ∀ other, SpansZeros row other → other.2 ≤ run.2
  first : ∀ other, SpansZeros row other → other.2 = run.2 → run.1 ≤ other.1

theorem le_leadingZeros {row : List UInt16} {count : Nat}
    (zeros : row.take count = List.replicate count 0) : count ≤ leadingZeros row := by
  induction count generalizing row with
  | zero => exact Nat.zero_le _
  | succ count hypothesis =>
      cases row with
      | nil => cases zeros
      | cons group others =>
          rw [List.take_succ_cons, List.replicate_succ] at zeros
          obtain ⟨zero, rest⟩ := List.cons.inj zeros
          have later := hypothesis rest
          unfold leadingZeros at later ⊢
          rw [List.takeWhile_cons_of_pos (by simp [zero]), List.length_cons]
          exact Nat.succ_le_succ later

/-- Along the places of a row, what is kept is the first of the greatest lengths so far. -/
theorem foldl_range_first_longest (length : Nat → Nat) (places : Nat) :
    let best := (List.range places).foldl
      (fun best start => if best.2 < length start then (start, length start) else best) (0, 0)
    (∀ start < places, length start ≤ best.2) ∧ ∀ start < best.1, length start < best.2 := by
  induction places with
  | zero =>
      exact ⟨fun _ below => absurd below (Nat.not_lt_zero _),
        fun _ below => absurd below (Nat.not_lt_zero _)⟩
  | succ places hypothesis =>
      rw [List.range_succ, List.foldl_append, List.foldl_cons, List.foldl_nil]
      generalize (List.range places).foldl _ (0, 0) = best at hypothesis ⊢
      obtain ⟨most, fewer⟩ := hypothesis
      dsimp only
      split
      · next longer =>
          constructor
          · intro start below
            rcases Nat.lt_succ_iff_lt_or_eq.1 below with before | rfl
            · exact Nat.le_of_lt (Nat.lt_of_le_of_lt (most start before) longer)
            · exact Nat.le_refl _
          · exact fun start before => Nat.lt_of_le_of_lt (most start before) longer
      · next kept =>
          refine ⟨fun start below => ?_, fewer⟩
          rcases Nat.lt_succ_iff_lt_or_eq.1 below with before | rfl
          · exact most start before
          · exact Nat.le_of_not_lt kept

theorem firstLongest_longestZeroRun (row : List UInt16) :
    FirstLongest row (longestZeroRun row) := by
  obtain ⟨most, fewer⟩ :=
    foldl_range_first_longest (fun start => leadingZeros (row.drop start)) row.length
  refine ⟨spansZeros_longestZeroRun row, ?_, ?_⟩
  · intro other zeros
    have count := le_leadingZeros zeros
    by_cases inside : other.1 < row.length
    · exact Nat.le_trans count (most other.1 inside)
    · rw [List.drop_of_length_le (Nat.le_of_not_lt inside)] at count
      exact Nat.le_trans count (Nat.zero_le _)
  · intro other zeros same
    -- A run before the kept one is shorter, since only a longer one is kept in its place.
    by_contra before
    have count := le_leadingZeros zeros
    have less := fewer other.1 (Nat.lt_of_not_le before)
    rw [same] at count
    exact absurd (Nat.lt_of_le_of_lt count less) (Nat.lt_irrefl _)

/-! ## Shortened texts -/

/-- A text of eight groups with a doubled colon in place of the first longest run of zeros, or
without one if no two zeros stand together. -/
inductive Shortened (text : List Char) (groups : Groups) : Prop where
  | elided (run : Nat × Nat) (first : FirstLongest groups.toList run) (several : 1 < run.2)
      (front back : List (List Char))
      (spelledFront : List.Forall₂ Spells front (groups.toList.take run.1))
      (spelledBack : List.Forall₂ Spells back (groups.toList.drop (run.1 + run.2)))
      (same : text = Ip.elided front back)
  | full (single : ∀ run, SpansZeros groups.toList run → run.2 ≤ 1) (parts : List (List Char))
      (spelled : List.Forall₂ Spells parts groups.toList) (same : text = glue ':' parts)

variable {text : List Char} {groups : Groups}

theorem Shortened.denotes (shortened : Shortened text groups) : Denotes text groups := by
  cases shortened with
  | elided run first several front back spelledFront spelledBack same =>
      exact .elided front back _ _ run.2 spelledFront spelledBack (Nat.lt_of_succ_lt several)
        first.zeros.eq_append same
  | full single parts spelled same => exact .full parts spelled same

theorem shortened_render (groups : Groups) : Shortened groups.render groups := by
  have first := firstLongest_longestZeroRun groups.toList
  unfold render
  generalize longestZeroRun groups.toList = run at first
  dsimp only
  split
  · next several =>
      refine .elided run first several _ _ (spells_map_renderGroup _) (spells_map_renderGroup _) ?_
      rw [elided, List.append_assoc]
      rfl
  · next few =>
      have single (other : Nat × Nat) (zeros : SpansZeros groups.toList other) : other.2 ≤ 1 :=
        Nat.le_trans (first.longest other zeros) (Nat.le_of_not_lt few)
      exact .full single _ (spells_map_renderGroup _) rfl

/-! ## Normal forms -/

/-- A text in small letters, without needless zeros and with the first longest run of zero groups
left out. -/
structure IsNormal (text : String) : Prop where
  small : ∀ char ∈ text.toList, char.isUpper = false
  trimmed : ∀ part ∈ pieces ':' text.toList, ∀ digits ∈ pieces '.' part, IsTrimmed digits
  shortened : isIpv6 text = true → ∃ groups, Shortened text.toList groups

theorem isNormal_quad (quad : Quad) : IsNormal (String.ofList quad.render) := by
  have isQuad := isQuadLiteral_render quad
  constructor
  · intro char member
    rw [String.toList_ofList] at member
    rcases mem_glue member with rfl | ⟨part, known, inside⟩
    · rfl
    · obtain ⟨octet, _, rfl⟩ := List.mem_map.1 known
      have plain := Numeral.plain_of_mem_render (by decide) (by decide) inside
      exact isUpper_eq_false plain.2.2.2.2.2
  · intro part known digits inside
    rw [String.toList_ofList, pieces_of_not_mem (colon_not_mem_of_isQuadLiteral isQuad)] at known
    rw [List.mem_singleton.1 known, quad.pieces_render] at inside
    obtain ⟨octet, _, rfl⟩ := List.mem_map.1 inside
    exact isTrimmed_render (by decide) (by decide) octet.toNat
  · intro accepted
    have none := Quad.read?_of_isIpv6 accepted
    rw [String.toList_ofList, quad.read?_render] at none
    cases none

theorem mem_rowParts {row : List UInt16} {part : List Char} (member : part ∈ rowParts row) :
    part = [] ∨ ∃ group, part = renderGroup group := by
  unfold rowParts at member
  split at member
  · exact .inl (List.mem_singleton.1 member)
  · obtain ⟨group, _, rfl⟩ := List.mem_map.1 member
    exact .inr ⟨group, rfl⟩

theorem Groups.Rendered.mem_pieces (rendered : Rendered groups text) {part : List Char}
    (member : part ∈ pieces ':' text) : part = [] ∨ ∃ group, part = renderGroup group := by
  cases rendered with
  | elided front back fits whole =>
      rw [pieces_rows] at member
      rcases List.mem_append.1 member with before | behind
      · exact mem_rowParts before
      · exact (List.mem_cons.1 behind).elim .inl mem_rowParts
  | full =>
      rw [pieces_renderRow] at member
      exact mem_rowParts member

theorem isNormal_groups (groups : Groups) : IsNormal (String.ofList groups.render) := by
  have rendered := groups.rendered_render
  constructor
  · intro char member
    rw [String.toList_ofList] at member
    exact isUpper_eq_false (rendered.plain member).2
  · intro part known digits inside
    rw [String.toList_ofList] at known
    have noDot : '.' ∉ part := fun dot => (rendered.plain (mem_of_mem_pieces known dot)).1 rfl
    rw [pieces_of_not_mem noDot, List.mem_singleton] at inside
    rw [inside]
    rcases rendered.mem_pieces known with rfl | ⟨group, rfl⟩
    · exact fun leading => by cases leading
    · exact isTrimmed_render (by decide) (by decide) group.toNat
  · intro _
    rw [String.toList_ofList]
    exact ⟨groups, shortened_render groups⟩

/-! ## Canonical texts are normal forms -/

theorem exists_normalize_of_isIpv6 {text : String} (accepted : isIpv6 text = true) :
    ∃ sane, normalize text = .ok sane := by
  cases plain : embeddedQuad? (colonParts text.toList) with
  | none =>
      obtain ⟨groups, -, -, normalized⟩ := exists_denotes_of_isIpv6 accepted plain
      exact ⟨_, normalized⟩
  | some quad => exact ⟨_, normalize_of_literal? (literal?_of_embedded accepted plain)⟩

/-- Exactly the literals have a canonical text. -/
theorem exists_normalize_iff (text : String) :
    (∃ sane, normalize text = .ok sane) ↔ isIpv4 text = true ∨ isIpv6 text = true := by
  cases known : Quad.read? text.toList with
  | some quad =>
      have isQuad : isIpv4 text = true := by
        rw [isIpv4, isQuadLiteral, known]
        rfl
      exact iff_of_true ⟨_, normalize_of_literal? (literal?_of_read? known)⟩ (.inl isQuad)
  | none =>
      have noQuad : isIpv4 text = false := by
        rw [isIpv4, isQuadLiteral, known]
        rfl
      cases accepted : isIpv6 text with
      | true => exact iff_of_true (exists_normalize_of_isIpv6 accepted) (.inr rfl)
      | false =>
          have refused : normalize text = .error (.malformed text) := by
            rw [normalize, literal?, known]
            simp [accepted, bind, Except.bind]
          simp [refused, noQuad]

theorem parse_eq_ip_iff {text sane : String} :
    NetAddress.parse text = .ok (.ip sane) ↔ sanitize text = .ok sane := by
  unfold NetAddress.parse
  cases sanitize text with
  | error error => simp [Except.map]
  | ok canonical => simp [Except.map]

/-- The canonical text of groups that a text denotes is their shortened text. -/
theorem shortened_of_normalize {text sane : String} {groups : Groups}
    (normalized : normalize text = .ok sane) (denotes : Denotes (lowered text) groups) :
    Shortened sane.toList groups := by
  have noDot := denotes.dot_not_mem
  have noQuad : isIpv4 text = false := by
    apply isQuadLiteral_eq_false
    exact fun dot => noDot (List.mem_map_of_mem dot)
  have accepted : isIpv6 text = true := by
    have literal := (exists_normalize_iff text).1 ⟨sane, normalized⟩
    rw [noQuad] at literal
    exact literal.resolve_left Bool.false_ne_true
  have plain : embeddedQuad? (colonParts text.toList) = none :=
    Quad.read?_of_not_mem (not_mem_lastPart fun part known dot =>
      noDot (mem_of_mem_pieces known dot))
  rw [normalize_eq_of_expand? accepted plain denotes.expand?_eq] at normalized
  rw [← Except.ok.inj normalized, String.toList_ofList]
  exact shortened_render groups

/-- Exactly the literals have a canonical text, which is a literal in normal form and its own
canonical text, and which shortens the groups that the literal denotes; and an address in
canonical text is read as it is. -/
theorem normalize_total_and_idempotent (text : String) :
    ((∃ sane, normalize text = .ok sane) ↔ isIpv4 text = true ∨ isIpv6 text = true) ∧
      (∀ sane, normalize text = .ok sane →
        (isIpv4 sane = true ∨ isIpv6 sane = true) ∧ normalize sane = .ok sane ∧ IsNormal sane ∧
          ∀ groups, Denotes (lowered text) groups → Shortened sane.toList groups) ∧
      ∀ sane, NetAddress.parse text = .ok (.ip sane) →
        NetAddress.parse sane = .ok (.ip sane) := by
  refine ⟨exists_normalize_iff text, fun sane normalized => ?_, fun sane parsed => ?_⟩
  · have again := normalize_of_normalize normalized
    refine ⟨(exists_normalize_iff sane).1 ⟨sane, again⟩, again, ?_,
      fun groups => shortened_of_normalize normalized⟩
    rcases exists_render_of_normalize normalized with ⟨quad, rfl⟩ | ⟨groups, rfl⟩
    · exact isNormal_quad quad
    · exact isNormal_groups groups
  · exact parse_eq_ip_iff.2 (sanitize_of_sanitize (parse_eq_ip_iff.1 parsed))

/-- Of two runs of the same length the first is left out. -/
example : normalize "2001:0DB8:0:0:1:0:0:1" = .ok "2001:db8::1:0:0:1" := by decide

end Ip

end PeerOverlay
