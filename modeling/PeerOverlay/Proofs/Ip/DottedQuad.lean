import PeerOverlay.Proofs.Ip.NormalForm
import PeerOverlay.Proofs.Text.Decimal

/-!
# The grammar of dotted quads

A dotted quad is spelled by four rows of decimal digits, of any length, with dots between them and
values up to 255.  Its canonical text has the digits of the same values without zeros in front.
-/

namespace PeerOverlay.Ip

open PeerOverlay.Text PeerOverlay.Numeral

/-! ## Texts that spell a quad -/

/-- Four rows of decimal digits with dots between them, none of a value above 255. -/
structure DottedRows (text : List Char) (rows : List (List Char)) : Prop where
  same : text = glue '.' rows
  four : rows.length = 4
  decimal : ∀ row ∈ rows, IsDecimal row
  small : ∀ row ∈ rows, decimalValue row ≤ 255

def Quad.values (quad : Quad) : List Nat :=
  quad.octets.map UInt8.toNat

def SpellsQuad (text : List Char) (quad : Quad) : Prop :=
  ∃ rows, DottedRows text rows ∧ quad.values = rows.map decimalValue

theorem octet?_eq_some_iff {row : List Char} {octet : UInt8} :
    octet? row = some octet ↔ IsDecimal row ∧ decimalValue row = octet.toNat := by
  have below := octet.toNat_lt
  rw [octet?, ← read?_ten_eq_some_iff]
  cases known : read? 10 row with
  | none => simp
  | some value =>
      rw [Option.some.injEq]
      show (if value ≤ 255 then some (UInt8.ofNat value) else none) = some octet ↔ _
      rw [Option.ite_none_right_eq_some, Option.some.injEq]
      constructor
      · rintro ⟨small, rfl⟩
        rw [UInt8.toNat_ofNat_of_lt' (Nat.lt_succ_of_le small)]
      · rintro rfl
        exact ⟨by omega, UInt8.ofNat_toNat⟩

theorem not_isDecimalDigit_dot : ¬ IsDecimalDigit '.' := by decide

theorem DottedRows.pieces_eq {text : List Char} {rows : List (List Char)}
    (dotted : DottedRows text rows) : pieces '.' text = rows := by
  have some? : rows ≠ [] := by
    rintro rfl
    cases dotted.four
  rw [dotted.same]
  exact pieces_glue some? fun row member =>
    (dotted.decimal row member).not_mem not_isDecimalDigit_dot

/-- Exactly the texts that spell a quad are read. -/
theorem Quad.read?_eq_some_iff {text : List Char} {quad : Quad} :
    read? text = some quad ↔ SpellsQuad text quad := by
  constructor
  · intro read
    have glued : text = glue '.' (pieces '.' text) := (gluePieces '.' text).symm
    unfold read? at read
    split at read
    · next a b c d parts =>
        simp only [Option.bind_eq_bind, Option.bind_eq_some_iff, octet?_eq_some_iff] at read
        obtain ⟨first, ⟨one, valueOne⟩, second, ⟨two, valueTwo⟩, third, ⟨three, valueThree⟩,
          fourth, ⟨four, valueFour⟩, same⟩ := read
        cases same
        have belowOne := first.toNat_lt
        have belowTwo := second.toNat_lt
        have belowThree := third.toNat_lt
        have belowFour := fourth.toNat_lt
        refine ⟨[a, b, c, d], ⟨by rw [glued, parts], rfl, ?_, ?_⟩, ?_⟩
        · simp [one, two, three, four]
        · simp only [List.forall_mem_cons, List.not_mem_nil, false_implies, implies_true, and_true]
          omega
        · simp [Quad.values, Quad.octets, valueOne, valueTwo, valueThree, valueFour]
    · cases read
  · rintro ⟨rows, dotted, values⟩
    have parts := dotted.pieces_eq
    obtain ⟨-, four, decimal, -⟩ := dotted
    obtain ⟨a, b, c, d, rfl⟩ := List.length_eq_four.1 four
    simp only [Quad.values, Quad.octets, List.map_cons, List.map_nil, List.cons.injEq,
      and_true] at values
    simp only [List.forall_mem_cons, List.not_mem_nil, false_implies, implies_true,
      and_true] at decimal
    obtain ⟨one, two, three, four⟩ := decimal
    obtain ⟨valueOne, valueTwo, valueThree, valueFour⟩ := values
    rw [read?, parts]
    simp [octet?_eq_some_iff.2 ⟨one, valueOne.symm⟩, octet?_eq_some_iff.2 ⟨two, valueTwo.symm⟩,
      octet?_eq_some_iff.2 ⟨three, valueThree.symm⟩, octet?_eq_some_iff.2 ⟨four, valueFour.symm⟩]

theorem isQuadLiteral_iff {text : List Char} :
    isQuadLiteral text = true ↔ ∃ quad, SpellsQuad text quad := by
  rw [isQuadLiteral, Option.isSome_iff_exists]
  simp only [Quad.read?_eq_some_iff]

/-- Octets can be found for all rows that are small enough. -/
theorem DottedRows.exists_spells {text : List Char} {rows : List (List Char)}
    (dotted : DottedRows text rows) : ∃ quad : Quad, quad.values = rows.map decimalValue := by
  obtain ⟨-, four, -, small⟩ := dotted
  obtain ⟨a, b, c, d, rfl⟩ := List.length_eq_four.1 four
  have octet (row : List Char) (member : row ∈ [a, b, c, d]) :
      (UInt8.ofNat (decimalValue row)).toNat = decimalValue row :=
    UInt8.toNat_ofNat_of_lt' (Nat.lt_succ_of_le (small row member))
  refine ⟨⟨.ofNat (decimalValue a), .ofNat (decimalValue b), .ofNat (decimalValue c),
    .ofNat (decimalValue d)⟩, ?_⟩
  simp [Quad.values, Quad.octets, octet a (by simp), octet b (by simp), octet c (by simp),
    octet d (by simp)]

/-! ## Canonical texts -/

/-- The digits of the value of a row, without zeros in front. -/
def trimmedRow (row : List Char) : List Char :=
  render 10 (decimalValue row)

theorem decimalValue_trimmedRow (row : List Char) :
    decimalValue (trimmedRow row) = decimalValue row :=
  (isDecimal_render (decimalValue row)).2

theorem DottedRows.trimmed {text : List Char} {rows : List (List Char)}
    (dotted : DottedRows text rows) :
    DottedRows (glue '.' (rows.map trimmedRow)) (rows.map trimmedRow) where
  same := rfl
  four := by rw [List.length_map, dotted.four]
  decimal := List.forall_mem_map.2 fun row _ => (isDecimal_render (decimalValue row)).1
  small := List.forall_mem_map.2 fun row member => by
    rw [decimalValue_trimmedRow]
    exact dotted.small row member

theorem Quad.render_eq {quad : Quad} {rows : List (List Char)}
    (values : quad.values = rows.map decimalValue) :
    quad.render = glue '.' (rows.map trimmedRow) := by
  have digits : rows.map trimmedRow = (rows.map decimalValue).map (Numeral.render 10) := by
    rw [List.map_map]
    rfl
  rw [digits, ← values, Quad.values, List.map_map]
  rfl

/-- Exactly the texts of four rows of decimal digits of values up to 255, however long, are IPv4
literals; and the canonical text has the digits of these values without zeros in front and is read
as the same values. -/
theorem isIpv4_iff_dottedRows_and_normalize (text : String) :
    (isIpv4 text = true ↔ ∃ rows, DottedRows text.toList rows) ∧
      ∀ rows, DottedRows text.toList rows →
        normalize text = .ok (String.ofList (glue '.' (rows.map trimmedRow))) ∧
          (∀ row ∈ rows.map trimmedRow, IsTrimmed row) ∧
          DottedRows (glue '.' (rows.map trimmedRow)) (rows.map trimmedRow) ∧
          ∃ quad, Quad.read? text.toList = some quad ∧
            Quad.read? (glue '.' (rows.map trimmedRow)) = some quad ∧
            quad.values = rows.map decimalValue := by
  constructor
  · rw [isIpv4, isQuadLiteral_iff]
    constructor
    · rintro ⟨quad, rows, dotted, -⟩
      exact ⟨rows, dotted⟩
    · rintro ⟨rows, dotted⟩
      obtain ⟨quad, values⟩ := dotted.exists_spells
      exact ⟨quad, rows, dotted, values⟩
  · intro rows dotted
    obtain ⟨quad, values⟩ := dotted.exists_spells
    have read := Quad.read?_eq_some_iff.2 ⟨rows, dotted, values⟩
    rw [← Quad.render_eq values]
    refine ⟨normalize_of_literal? (literal?_of_read? read), ?_,
      Quad.render_eq values ▸ dotted.trimmed, quad, read, quad.read?_render, values⟩
    exact List.forall_mem_map.2 fun row _ =>
      isTrimmed_render (by decide) (by decide) (decimalValue row)

/-- Zeros in front are passed over, however many there are. -/
example : normalize "010.0001.000.00000000000000000009" = .ok "10.1.0.9" := by decide

end PeerOverlay.Ip
