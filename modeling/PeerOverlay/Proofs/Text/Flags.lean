import Mathlib.Data.List.TakeWhile
import Mathlib.Data.Nat.Bitwise
import PeerOverlay.Proofs.Text.Pieces
import PeerOverlay.Signal

/-!
# Reading sets of flags

Every set of flags is read back from its text, the bits without a name included.
-/

namespace PeerOverlay

open PeerOverlay.Text

/-! ## Parts between bars -/

namespace Text

/-- Whether a part of a row is told from the bars and blanks around it. -/
structure IsPart (part : List Char) : Prop extends IsWord part where
  whole : '|' ∉ part

theorem isPart_iff {part : List Char} :
    (part ≠ [] ∧ (part.all fun char => !isBlank char) ∧ '|' ∉ part) ↔ IsPart part := by
  simp only [List.all_eq_true, Bool.not_eq_true']
  exact ⟨fun ⟨some?, printed, whole⟩ => ⟨⟨some?, printed⟩, whole⟩,
    fun part => ⟨part.some, part.printed, part.whole⟩⟩

-- Characters are tested along the part: there are too many to go through all of them.
instance (part : List Char) : Decidable (IsPart part) :=
  decidable_of_iff _ isPart_iff

theorem trim_pieces_bar {blanks : List Char} (blank : ∀ char ∈ blanks, isBlank char)
    {parts : List (List Char)} (some? : parts ≠ []) (each : ∀ part ∈ parts, IsPart part) :
    (pieces '|' (blanks ++ [' ', '|', ' '].intercalate parts)).map trim = parts := by
  have noBar {text : List Char} (empty : ∀ char ∈ text, isBlank char) : '|' ∉ text := by
    intro member
    exact absurd (empty '|' member) (by decide)
  have space : ∀ char ∈ [' '], isBlank char := List.forall_mem_singleton.2 (by decide)
  induction parts generalizing blanks with
  | nil => exact absurd rfl some?
  | cons part others hypothesis =>
      have own := each part List.mem_cons_self
      cases others with
      | nil =>
          have alone : '|' ∉ blanks ++ part := by
            simp [noBar blank, own.whole]
          have trimmed : trim (blanks ++ (part ++ [])) = part :=
            trim_append own.toIsWord blank (by simp)
          rw [List.append_nil] at trimmed
          rw [List.intercalate_singleton, pieces_of_not_mem alone, List.map_singleton, trimmed]
      | cons next behind =>
          have rest := hypothesis space (List.cons_ne_nil next behind) fun other member =>
            each other (List.mem_cons_of_mem part member)
          have first : '|' ∉ blanks ++ (part ++ [' ']) := by
            simp [noBar blank, own.whole]
          have cut : blanks ++ [' ', '|', ' '].intercalate (part :: next :: behind) =
              (blanks ++ (part ++ [' '])) ++
                '|' :: ([' '] ++ [' ', '|', ' '].intercalate (next :: behind)) := by
            simp [List.intercalate_cons_cons]
          rw [cut, pieces_append, pieces_of_not_mem first, List.map_append, List.map_singleton,
            trim_append own.toIsWord blank space, rest, List.singleton_append]

/-- A text that starts with a word is not blank. -/
theorem trim_append_ne_nil {part : List Char} (word : IsWord part) (behind : List Char) :
    trim (part ++ behind) ≠ [] := by
  obtain ⟨first, others, same⟩ := List.exists_cons_of_ne_nil word.some
  have printed : ¬isBlank first := by simp [word.printed first (by simp [same])]
  rw [same, List.cons_append, trim, List.dropWhile_cons_of_neg printed]
  intro empty
  rw [List.reverse_eq_nil_iff, List.dropWhile_eq_nil_iff] at empty
  exact printed (empty first (by simp))

theorem exists_intercalate_eq (separator part : List Char) (others : List (List Char)) :
    ∃ behind, separator.intercalate (part :: others) = part ++ behind := by
  cases others with
  | nil => exact ⟨[], by simp⟩
  | cons next others => exact ⟨separator ++ separator.intercalate (next :: others), by simp⟩

end Text

/-! ## Sets of flags -/

namespace FlagNames

/-- Whether names can be told apart in a text, and name the lowest bits one by one. -/
structure Sound (flags : FlagNames) : Prop where
  part : ∀ named ∈ flags.names, IsPart named.1.toList
  reads : ∀ named ∈ flags.names, flags.readFlag? named.1.toList = some named.2
  single : ∀ named ∈ flags.names, named.2 = 2 ^ named.2.log2
  lowest : ∃ count, flags.known = 2 ^ count - 1

variable {flags : FlagNames}

/-- The parts of a text with the bits that they stand for. -/
def written (flags : FlagNames) (bits : Nat) : List (String × Nat) :=
  (flags.names.filter fun named => bits &&& named.2 != 0) ++
    if flags.unnamed bits = 0 then
      []
    else
      [("0x" ++ String.ofList (Numeral.render 16 (flags.unnamed bits)), flags.unnamed bits)]

theorem render_eq (flags : FlagNames) (bits : Nat) :
    flags.render bits = " | ".intercalate ((flags.written bits).map Prod.fst) := by
  unfold render written namesIn
  rw [List.map_append]
  by_cases none : flags.unnamed bits = 0 <;> simp [none]

theorem foldl_or_filter {names : List (String × Nat)}
    (single : ∀ named ∈ names, named.2 = 2 ^ named.2.log2) (bits start : Nat) :
    (names.filter fun named => bits &&& named.2 != 0).foldl
        (fun bits named => bits ||| named.2) (bits &&& start) =
      bits &&& names.foldl (fun bits named => bits ||| named.2) start := by
  induction names generalizing start with
  | nil => rfl
  | cons named others hypothesis =>
      have rest := hypothesis fun other member => single other (List.mem_cons_of_mem named member)
      have whole : bits &&& named.2 ≠ 0 → bits &&& named.2 = named.2 := by
        rw [single named List.mem_cons_self, Nat.and_two_pow]
        cases bits.testBit named.2.log2 <;> simp
      rw [List.foldl_cons, ← rest, Nat.and_or_distrib_left]
      by_cases none : bits &&& named.2 = 0
      · rw [List.filter_cons_of_neg (by simp [none]), none, Nat.or_zero]
      · rw [List.filter_cons_of_pos (by simp [none]), List.foldl_cons, whole none]

/-- The bits with a name and those without are all bits. -/
theorem Sound.and_known_or_unnamed (sound : flags.Sound) (bits : Nat) :
    bits &&& flags.known ||| flags.unnamed bits = bits := by
  obtain ⟨count, same⟩ := sound.lowest
  have low : bits % 2 ^ count < 2 ^ count := Nat.mod_lt bits (Nat.two_pow_pos count)
  have split := Nat.div_add_mod bits (2 ^ count)
  have high : bits - bits % 2 ^ count = 2 ^ count * (bits / 2 ^ count) := by omega
  rw [unnamed, same, Nat.and_two_pow_sub_one_eq_mod, high, Nat.or_comm,
    ← Nat.two_pow_add_eq_or_of_lt low, split]

theorem Sound.foldl_written (sound : flags.Sound) (bits : Nat) :
    (flags.written bits).foldl (fun bits named => bits ||| named.2) 0 = bits := by
  have named := foldl_or_filter sound.single bits 0
  rw [Nat.and_zero] at named
  have all := sound.and_known_or_unnamed bits
  rw [written, List.foldl_append, named]
  split
  · next none =>
      rw [none, Nat.or_zero] at all
      exact all
  · exact all

/-- Each part of a text is read as the bits that it stands for. -/
theorem Sound.readFlag?_of_mem_written (sound : flags.Sound) {bits : Nat}
    (below : bits < 2 ^ flags.width) {part : String × Nat} (member : part ∈ flags.written bits) :
    IsPart part.1.toList ∧ flags.readFlag? part.1.toList = some part.2 := by
  rcases List.mem_append.1 member with named | tail
  · have member := List.mem_of_mem_filter named
    exact ⟨sound.part part member, sound.reads part member⟩
  · have fits : flags.unnamed bits < Nat.pow 2 flags.width :=
      Nat.lt_of_le_of_lt (Nat.sub_le _ _) below
    revert tail
    generalize flags.unnamed bits = rest at fits
    intro tail
    by_cases none : rest = 0
    · rw [if_pos none] at tail
      exact absurd tail List.not_mem_nil
    · rw [if_neg none] at tail
      obtain rfl := List.mem_singleton.1 tail
      have chars : ("0x" ++ String.ofList (Numeral.render 16 rest)).toList =
          '0' :: 'x' :: Numeral.render 16 rest := by
        simp
      have digits {char : Char} (member : char ∈ Numeral.render 16 rest) :=
        Numeral.plain_of_mem_render (by decide) (by decide) member
      dsimp only
      rw [chars]
      refine ⟨⟨⟨List.cons_ne_nil _ _, ?_⟩, ?_⟩, ?_⟩
      · intro char member
        rcases List.mem_cons.1 member with rfl | member
        · decide
        · rcases List.mem_cons.1 member with rfl | member
          · decide
          · exact (digits member).1
      · intro bar
        simp only [List.mem_cons] at bar
        rcases bar with bar | bar | bar
        · exact absurd bar (by decide)
        · exact absurd bar (by decide)
        · exact (digits bar).2.1 rfl
      · rw [readFlag?, Numeral.readSigned?_render (by decide) (by decide)]
        exact if_pos fits

theorem foldlM_readFlag? {parts : List (String × Nat)}
    (reads : ∀ part ∈ parts, flags.readFlag? part.1.toList = some part.2) (start : Nat) :
    (parts.map fun part => part.1.toList).foldlM
        (fun bits piece => (flags.readFlag? piece).map fun flag => bits ||| flag) start =
      some (parts.foldl (fun bits named => bits ||| named.2) start) := by
  induction parts generalizing start with
  | nil => rfl
  | cons part others hypothesis =>
      have first := reads part List.mem_cons_self
      rw [List.map_cons, List.foldlM_cons, first, List.foldl_cons]
      exact hypothesis (fun other member => reads other (List.mem_cons_of_mem part member)) _

/-- A set of flags is read back from its text. -/
theorem Sound.read?_render (sound : flags.Sound) {bits : Nat} (below : bits < 2 ^ flags.width) :
    flags.read? (flags.render bits) = some bits := by
  have each {part : String × Nat} (member : part ∈ flags.written bits) :=
    sound.readFlag?_of_mem_written below member
  have all := sound.foldl_written bits
  have chars : (flags.render bits).toList =
      [' ', '|', ' '].intercalate ((flags.written bits).map fun part => part.1.toList) := by
    rw [render_eq, String.toList_intercalate, List.map_map]
    rfl
  by_cases none : flags.written bits = []
  · rw [none] at chars all
    rw [read?, chars, ← all]
    rfl
  · have some? : ((flags.written bits).map fun part => part.1.toList) ≠ [] := by simpa using none
    have parts : ∀ part ∈ (flags.written bits).map fun part => part.1.toList, IsPart part := by
      intro text member
      obtain ⟨part, own, rfl⟩ := List.mem_map.1 member
      exact (each own).1
    have none : ∀ char ∈ [], isBlank char := by simp
    have cut := trim_pieces_bar none some? parts
    rw [List.nil_append, ← chars] at cut
    have printed : trim (flags.render bits).toList ≠ [] := by
      obtain ⟨first, others, same⟩ := List.exists_cons_of_ne_nil some?
      obtain ⟨behind, start⟩ := exists_intercalate_eq [' ', '|', ' '] first others
      rw [chars, same, start]
      exact trim_append_ne_nil (parts first (by simp [same])).toIsWord behind
    have read := foldlM_readFlag? (fun part member => (each member).2) 0
    rw [← cut, List.foldlM_map, all] at read
    rw [read?, if_neg printed]
    exact read

end FlagNames

/-! ## Services, protocols and flags of signals -/

theorem Services.sound_names : names.Sound where
  part := by decide
  reads := by decide
  single := by decide
  lowest := ⟨3, by decide⟩

theorem Protocols.sound_names : names.Sound where
  part := by decide
  reads := by decide
  single := by decide
  lowest := ⟨3, by decide⟩

theorem SignalFlags.sound_names : names.Sound where
  part := by decide
  reads := by decide
  single := by decide
  lowest := ⟨2, by decide⟩

theorem Services.read?_render (services : Services) : read? services.render = some services := by
  rw [read?, render, sound_names.read?_render services.bits.toNat_lt, Option.map_some,
    UInt32.ofNat_toNat]

theorem Protocols.read?_render (protocols : Protocols) :
    read? protocols.render = some protocols := by
  rw [read?, render, sound_names.read?_render protocols.bits.toNat_lt, Option.map_some,
    UInt8.ofNat_toNat]

theorem SignalFlags.read?_render (flags : SignalFlags) : read? flags.render = some flags := by
  rw [read?, render, sound_names.read?_render flags.bits.toNat_lt, Option.map_some,
    UInt8.ofNat_toNat]

end PeerOverlay
