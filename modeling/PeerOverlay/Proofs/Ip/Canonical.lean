import Mathlib.Data.Nat.Digits.Lemmas
import PeerOverlay.Proofs.Ip.Grammar

/-!
# Canonical texts

The canonical text of a literal is a literal of the same address, and it is its own
canonical text.
-/

namespace PeerOverlay

open PeerOverlay.Text

/-! ## The first doubled separator -/

namespace Text

variable {separator : Char}

theorem cutAtDouble?_append_of_not_mem {part : List Char} (whole : separator ∉ part)
    (behind : List Char) :
    cutAtDouble? separator (part ++ behind) =
      (cutAtDouble? separator behind).map fun cut => (part ++ cut.1, cut.2) := by
  induction part with
  | nil => simp
  | cons char rest hypothesis =>
      rw [List.mem_cons, not_or] at whole
      have later := hypothesis whole.2
      rw [List.cons_append]
      cases text : rest ++ behind with
      | nil =>
          obtain ⟨-, none⟩ := List.append_eq_nil_iff.1 text
          rw [none]
          rfl
      | cons second others =>
          rw [text] at later
          rw [cutAtDouble?, if_neg (fun both => whole.1 both.1.symm), later, Option.map_map]
          rfl

theorem cutAtDouble?_cons_of_ne {second : Char} (other : second ≠ separator) (rest : List Char) :
    cutAtDouble? separator (separator :: second :: rest) =
      (cutAtDouble? separator (second :: rest)).map fun cut => (separator :: cut.1, cut.2) := by
  rw [cutAtDouble?, if_neg fun both => other both.2]

/-- Parts that are not empty have no doubled separator between them. -/
theorem cutAtDouble?_glue_append {parts : List (List Char)} (some? : parts ≠ [])
    (each : ∀ part ∈ parts, part ≠ [] ∧ separator ∉ part) (behind : List Char) :
    cutAtDouble? separator (glue separator parts ++ behind) =
      (cutAtDouble? separator behind).map fun cut => (glue separator parts ++ cut.1, cut.2) := by
  induction parts with
  | nil => exact absurd rfl some?
  | cons part others hypothesis =>
      have whole := (each part List.mem_cons_self).2
      cases others with
      | nil =>
          rw [glue_singleton]
          exact cutAtDouble?_append_of_not_mem whole behind
      | cons next rest =>
          have later := hypothesis (List.cons_ne_nil next rest) fun other member =>
            each other (List.mem_cons_of_mem part member)
          obtain ⟨start, inside⟩ := each next (List.mem_cons_of_mem part List.mem_cons_self)
          obtain ⟨first, chars, same⟩ := List.exists_cons_of_ne_nil start
          have other : first ≠ separator := by
            rintro rfl
            exact inside (by simp [same])
          obtain ⟨text, glued⟩ :
              ∃ text, glue separator (next :: rest) ++ behind = first :: text := by
            obtain ⟨tail, front⟩ : ∃ tail, glue separator (next :: rest) = next ++ tail := by
              cases rest with
              | nil => exact ⟨[], by rw [glue_singleton, List.append_nil]⟩
              | cons third more => exact ⟨_, glue_cons_cons next third more⟩
            rw [front, same]
            exact ⟨chars ++ tail ++ behind, by simp⟩
          rw [glue_cons_cons, List.append_assoc, List.cons_append,
            cutAtDouble?_append_of_not_mem whole, glued, cutAtDouble?_cons_of_ne other, ← glued,
            later, Option.map_map, Option.map_map]
          simp [Function.comp_def]

theorem cutAtDouble?_glue_append_double {parts : List (List Char)}
    (each : ∀ part ∈ parts, part ≠ [] ∧ separator ∉ part) (behind : List Char) :
    cutAtDouble? separator (glue separator parts ++ separator :: separator :: behind) =
      some (glue separator parts, behind) := by
  have here : cutAtDouble? separator (separator :: separator :: behind) = some ([], behind) :=
    if_pos ⟨rfl, rfl⟩
  by_cases none : parts = []
  · rw [none]
    exact here
  · rw [cutAtDouble?_glue_append none each, here, Option.map_some, List.append_nil]

theorem cutAtDouble?_glue {parts : List (List Char)}
    (each : ∀ part ∈ parts, part ≠ [] ∧ separator ∉ part) :
    cutAtDouble? separator (glue separator parts) = none := by
  by_cases none : parts = []
  · rw [none]
    rfl
  · have cut := cutAtDouble?_glue_append none each []
    rwa [List.append_nil] at cut

end Text

namespace Ip

/-! ## Dotted quads -/

theorem octet?_render (octet : UInt8) : octet? (Numeral.render 10 octet.toNat) = some octet := by
  have below := octet.toNat_lt
  rw [octet?, Numeral.read?_render (by decide) (by decide)]
  show (if octet.toNat ≤ 255 then some (UInt8.ofNat octet.toNat) else none) = some octet
  rw [if_pos (by omega), UInt8.ofNat_toNat]

theorem Quad.pieces_render (quad : Quad) :
    pieces '.' quad.render = quad.octets.map fun octet => Numeral.render 10 octet.toNat := by
  refine pieces_glue (by simp [octets]) ?_
  intro part member dot
  obtain ⟨octet, _, rfl⟩ := List.mem_map.1 member
  have plain := Numeral.plain_of_mem_render (by decide) (by decide) dot
  exact plain.2.2.2.1 rfl

theorem Quad.read?_render (quad : Quad) : read? quad.render = some quad := by
  rw [read?, quad.pieces_render]
  simp [octets, octet?_render]

theorem isQuadLiteral_render (quad : Quad) : isQuadLiteral quad.render = true := by
  rw [isQuadLiteral, quad.read?_render]
  rfl

/-! ## Rows of groups -/

def renderGroup (group : UInt16) : List Char :=
  Numeral.render 16 group.toNat

theorem renderGroup_ne_nil (group : UInt16) : renderGroup group ≠ [] :=
  Numeral.render_ne_nil 16 group.toNat

theorem plain_of_mem_renderGroup {group : UInt16} {char : Char}
    (member : char ∈ renderGroup group) : char ≠ '.' ∧ char ≠ ':' ∧ char.toLower = char := by
  have plain := Numeral.plain_of_mem_render (by decide) (by decide) member
  exact plain.2.2.2

theorem group?_renderGroup (group : UInt16) : group? (renderGroup group) = some group := by
  rw [group?, if_neg (renderGroup_ne_nil group), renderGroup,
    Numeral.read?_render (by decide) (by decide)]
  show (if group.toNat < 65536 then some (UInt16.ofNat group.toNat) else none) = some group
  rw [if_pos group.toNat_lt, UInt16.ofNat_toNat]

theorem isHexGroup_renderGroup (group : UInt16) : isHexGroup (renderGroup group) := by
  have short : (renderGroup group).length ≤ 4 :=
    (Nat.length_toDigits_le_iff (by decide) (by decide)).2 group.toNat_lt
  have digits : ∀ char ∈ renderGroup group, isHexDigit char := by
    intro char member
    obtain ⟨digit, below, rfl⟩ := Numeral.exists_digitChar_of_mem (by decide) member
    rw [isHexDigit, Numeral.digitValue?_digitChar (by decide) below]
    rfl
  rw [isHexGroup, Bool.and_eq_true, decide_eq_true_eq, List.all_eq_true]
  exact ⟨short, digits⟩

namespace Groups

theorem renderRow_eq (row : List UInt16) : renderRow row = glue ':' (row.map renderGroup) := rfl

theorem parts_plain (row : List UInt16) :
    ∀ part ∈ row.map renderGroup, part ≠ [] ∧ ':' ∉ part := by
  intro part member
  obtain ⟨group, _, rfl⟩ := List.mem_map.1 member
  exact ⟨renderGroup_ne_nil group, fun colon => (plain_of_mem_renderGroup colon).2.1 rfl⟩

/-- The pieces of the text of a row. -/
def rowParts (row : List UInt16) : List (List Char) :=
  if row = [] then [[]] else row.map renderGroup

theorem pieces_renderRow (row : List UInt16) : pieces ':' (renderRow row) = rowParts row := by
  by_cases none : row = []
  · rw [rowParts, if_pos none, none]
    rfl
  · rw [rowParts, if_neg none, renderRow_eq]
    exact pieces_glue (by simpa using none) fun part member => (parts_plain row part member).2

theorem renderRow_ne_nil {row : List UInt16} (some? : row ≠ []) : renderRow row ≠ [] := by
  obtain ⟨group, others, rfl⟩ := List.exists_cons_of_ne_nil some?
  have plain := parts_plain (group :: others)
  exact glue_ne_nil (fun part member => (plain part member).2) List.mem_cons_self
    (renderGroup_ne_nil group)

theorem groupRow?_renderRow (row : List UInt16) : groupRow? (renderRow row) = some row := by
  by_cases none : row = []
  · rw [none]
    rfl
  · rw [groupRow?, if_neg (renderRow_ne_nil none), pieces_renderRow, rowParts, if_neg none]
    clear none
    induction row with
    | nil => rfl
    | cons group others hypothesis =>
        rw [List.map_cons, List.mapM_cons, group?_renderGroup, hypothesis]
        rfl

theorem cutAtDouble?_renderRow_append (row : List UInt16) (behind : List Char) :
    cutAtDouble? ':' (renderRow row ++ ':' :: ':' :: behind) = some (renderRow row, behind) :=
  cutAtDouble?_glue_append_double (parts_plain row) behind

theorem cutAtDouble?_renderRow (row : List UInt16) : cutAtDouble? ':' (renderRow row) = none :=
  cutAtDouble?_glue (parts_plain row)

/-! ## The longest run of zeros -/

/-- Whether a row has only zeros in a run. -/
def SpansZeros (row : List UInt16) (run : Nat × Nat) : Prop :=
  (row.drop run.1).take run.2 = List.replicate run.2 0

theorem spansZeros_leadingZeros (row : List UInt16) (start : Nat) :
    SpansZeros row (start, leadingZeros (row.drop start)) := by
  unfold SpansZeros leadingZeros
  dsimp only
  generalize row.drop start = rest
  induction rest with
  | nil => rfl
  | cons group others hypothesis =>
      by_cases zero : group = 0
      · rw [List.takeWhile_cons_of_pos (by simp [zero]), List.length_cons, List.take_succ_cons,
          hypothesis, List.replicate_succ, zero]
      · rw [List.takeWhile_cons_of_neg (by simp [zero])]
        rfl

theorem spansZeros_longestZeroRun (row : List UInt16) : SpansZeros row (longestZeroRun row) := by
  unfold longestZeroRun
  have start : SpansZeros row (0, 0) := rfl
  generalize ((0, 0) : Nat × Nat) = best at start
  induction List.range row.length generalizing best with
  | nil => exact start
  | cons place others hypothesis =>
      apply hypothesis
      dsimp only
      split
      · exact spansZeros_leadingZeros row place
      · exact start

/-- A row is what stands before and behind a run of zeros, with the zeros between. -/
theorem SpansZeros.eq_append {row : List UInt16} {run : Nat × Nat} (zeros : SpansZeros row run) :
    row = row.take run.1 ++ List.replicate run.2 0 ++ row.drop (run.1 + run.2) := by
  rw [← zeros, List.append_assoc, ← List.drop_drop, List.take_append_drop,
    List.take_append_drop]

/-! ## Texts of groups -/

/-- The two kinds of text that groups have. -/
inductive Rendered (groups : Groups) : List Char → Prop where
  | elided (front back : List UInt16) (fits : front.length + back.length ≤ 6)
      (whole : fill? front back = some groups) :
      Rendered groups (renderRow front ++ ':' :: ':' :: renderRow back)
  | full : Rendered groups (renderRow groups.toList)

theorem fill?_of_eq_append {groups : Groups} {front back : List UInt16} {zeros : Nat}
    (same : groups.toList = front ++ List.replicate zeros 0 ++ back) :
    front.length + zeros + back.length = 8 ∧ fill? front back = some groups := by
  obtain ⟨row, eight⟩ := groups
  dsimp only at same
  have length : front.length + zeros + back.length = 8 := by
    rw [same] at eight
    simpa [Nat.add_assoc] using eight
  have missing : 8 - (front.length + back.length) = zeros := by omega
  refine ⟨length, ?_⟩
  rw [fill?, dif_pos (by omega)]
  simp only [missing, same]

theorem rendered_render (groups : Groups) : Rendered groups groups.render := by
  have zeros := spansZeros_longestZeroRun groups.toList
  unfold render
  generalize longestZeroRun groups.toList = run at zeros
  obtain ⟨start, zeroCount⟩ := run
  dsimp only
  split
  · next several =>
      have parts : groups.toList = groups.toList.take start ++ List.replicate zeroCount 0 ++
          groups.toList.drop (start + zeroCount) :=
        zeros.eq_append
      obtain ⟨length, whole⟩ := fill?_of_eq_append parts
      have fits : (groups.toList.take start).length +
          (groups.toList.drop (start + zeroCount)).length ≤ 6 := by
        omega
      have text := Rendered.elided _ _ fits whole
      simpa using text
  · exact .full

variable {groups : Groups} {text : List Char}

/-- The groups are read back from their text. -/
theorem Rendered.expand?_eq (rendered : Rendered groups text) : expand? text = some groups := by
  cases rendered with
  | elided front back fits whole =>
      rw [expand?, cutAtDouble?_renderRow_append]
      simp [groupRow?_renderRow, whole]
  | full =>
      rw [expand?, cutAtDouble?_renderRow]
      simp [groupRow?_renderRow, groups.eight]

theorem mem_renderRow {row : List UInt16} {char : Char} (member : char ∈ renderRow row) :
    char = ':' ∨ ∃ group, char ∈ renderGroup group := by
  rcases mem_glue member with same | ⟨part, known, inside⟩
  · exact .inl same
  · obtain ⟨group, _, rfl⟩ := List.mem_map.1 known
    exact .inr ⟨group, inside⟩

theorem Rendered.plain (rendered : Rendered groups text) {char : Char} (member : char ∈ text) :
    char ≠ '.' ∧ char.toLower = char := by
  have ofRow {row : List UInt16} (inside : char ∈ renderRow row) :
      char ≠ '.' ∧ char.toLower = char := by
    rcases mem_renderRow inside with rfl | ⟨group, digit⟩
    · decide
    · have plain := plain_of_mem_renderGroup digit
      exact ⟨plain.1, plain.2.2⟩
  cases rendered with
  | elided front back fits whole =>
      rcases List.mem_append.1 member with before | behind
      · exact ofRow before
      · rcases List.mem_cons.1 behind with rfl | behind
        · decide
        · rcases List.mem_cons.1 behind with rfl | behind
          · decide
          · exact ofRow behind
  | full => exact ofRow member

end Groups

/-! ## Texts of groups are literals -/

open Groups

theorem isGroup_renderGroup (group : UInt16) : IsGroup (renderGroup group) :=
  isGroup_iff.2 ⟨renderGroup_ne_nil group, isHexGroup_renderGroup group⟩

theorem isGroup_of_mem_map {row : List UInt16} {part : List Char}
    (member : part ∈ row.map renderGroup) : IsGroup part := by
  obtain ⟨group, _, rfl⟩ := List.mem_map.1 member
  exact isGroup_renderGroup group

theorem length_rowParts (row : List UInt16) :
    (rowParts row).length = if row = [] then 1 else row.length := by
  unfold rowParts
  split <;> simp

theorem pieces_rows (front back : List UInt16) :
    pieces ':' (renderRow front ++ ':' :: ':' :: renderRow back) =
      rowParts front ++ [] :: rowParts back := by
  rw [pieces_append, pieces_renderRow, pieces, if_pos rfl, pieces_renderRow]

theorem Groups.Rendered.accepted {groups : Groups} {text : List Char}
    (rendered : Rendered groups text) : Accepted text := by
  cases rendered with
  | elided front back fits whole =>
      refine .elided (front.map renderGroup) (back.map renderGroup) ?_ ?_ rfl
      · rw [← List.map_append]
        exact fun part member => isGroup_of_mem_map member
      · rw [pieces_rows, List.length_append, List.length_cons, length_rowParts, length_rowParts]
        split <;> split <;> omega
  | full =>
      exact .groups (groups.toList.map renderGroup) (by rw [List.length_map, groups.eight])
        (fun part member => isGroup_of_mem_map member) rfl

/-! ## Canonical texts -/

theorem normalize_quad (quad : Quad) :
    normalize (String.ofList quad.render) = .ok (String.ofList quad.render) := by
  have read : literal? (String.ofList quad.render) = .ok (.quad quad) := by
    rw [literal?, String.toList_ofList, quad.read?_render]
  rw [normalize, read]
  rfl

theorem colonParts_render (groups : Groups) :
    colonParts groups.render = pieces ':' groups.render := by
  have small : groups.render.map Char.toLower = groups.render := by
    rw [List.map_congr_left fun char member => (groups.rendered_render.plain member).2]
    exact List.map_id _
  rw [colonParts, small]

theorem isIpv6_render (groups : Groups) : isIpv6 (String.ofList groups.render) = true := by
  rw [isIpv6, String.toList_ofList, colonParts_render]
  exact partsFormLiteral_of_accepted groups.rendered_render.accepted

theorem literal?_render (groups : Groups) :
    literal? (String.ofList groups.render) = .ok (.colons (pieces ':' groups.render)) := by
  have noDot : '.' ∉ groups.render := fun dot => (groups.rendered_render.plain dot).1 rfl
  have noQuad : embeddedQuad? (pieces ':' groups.render) = none :=
    Quad.read?_of_not_mem (not_mem_lastPart fun part known dot =>
      noDot (mem_of_mem_pieces known dot))
  rw [literal?, if_pos (isIpv6_render groups), String.toList_ofList, colonParts_render,
    Quad.read?_of_not_mem noDot]
  dsimp only
  rw [noQuad]

theorem normalize_groups (groups : Groups) :
    normalize (String.ofList groups.render) = .ok (String.ofList groups.render) := by
  have expanded : Groups.expand? (glue ':' (pieces ':' groups.render)) = some groups := by
    rw [gluePieces]
    exact groups.rendered_render.expand?_eq
  rw [normalize, literal?_render]
  simp only [bind, Except.bind, expanded]
  rfl

/-- What a text is normalized to is the text of a dotted quad or of eight groups. -/
theorem exists_render_of_normalize {text sane : String} (normalized : normalize text = .ok sane) :
    (∃ quad : Quad, sane = String.ofList quad.render) ∨
      ∃ groups : Groups, sane = String.ofList groups.render := by
  unfold normalize at normalized
  cases read : literal? text with
  | error error =>
      simp [read, bind, Except.bind] at normalized
  | ok literal =>
      rw [read] at normalized
      cases literal with
      | quad quad => exact .inl ⟨quad, (Except.ok.inj normalized).symm⟩
      | colons parts =>
          cases expanded : Groups.expand? (glue ':' parts) with
          | none =>
              simp [bind, Except.bind, expanded, throw, throwThe, MonadExceptOf.throw]
                at normalized
          | some groups =>
              simp only [bind, Except.bind, expanded] at normalized
              exact .inr ⟨groups, (Except.ok.inj normalized).symm⟩

/-- The canonical text of a literal is its own canonical text. -/
theorem normalize_of_normalize {text sane : String} (normalized : normalize text = .ok sane) :
    normalize sane = .ok sane := by
  rcases exists_render_of_normalize normalized with ⟨quad, rfl⟩ | ⟨groups, rfl⟩
  · exact normalize_quad quad
  · exact normalize_groups groups

theorem sanitize_eq_ok_iff {text sane : String} :
    sanitize text = .ok sane ↔ normalize text = .ok sane ∧ sane ∉ meaninglessAddresses := by
  unfold sanitize
  cases normalized : normalize text with
  | error error => simp [bind, Except.bind]
  | ok canonical =>
      by_cases meaningless : canonical ∈ meaninglessAddresses
      · have refused : canonical = sane → sane ∈ meaninglessAddresses := fun same =>
          same ▸ meaningless
        simpa [bind, Except.bind, meaningless, throw, throwThe, MonadExceptOf.throw]
          using refused
      · have usable : canonical = sane → sane ∉ meaninglessAddresses := fun same =>
          same ▸ meaningless
        simpa [bind, Except.bind, meaningless, pure, Except.pure] using usable

/-- What was made usable stays as it is. -/
theorem sanitize_of_sanitize {text sane : String} (sanitized : sanitize text = .ok sane) :
    sanitize sane = .ok sane := by
  obtain ⟨normalized, usable⟩ := sanitize_eq_ok_iff.1 sanitized
  exact sanitize_eq_ok_iff.2 ⟨normalize_of_normalize normalized, usable⟩

end Ip

end PeerOverlay
