import PeerOverlay.Proofs.Json.Tokens

/-!
# Reading what was written

A value that is made of integers and texts is read back from its compact text.  The
text itself bounds the reading: every reader needs at most twice as many steps as it
takes bytes.
-/

namespace PeerOverlay.Json

/-- Whether a value is made of what can be written: it holds no number that is no
integer, and no string that is no text. -/
inductive Plain : Json → Prop where
  | null : Plain .null
  | bool (value : Bool) : Plain (.bool value)
  | integer (value : Int) : Plain (.integer value)
  | string (text : String) : Plain (.string (some text))
  | array (items : List Json) (each : ∀ item ∈ items, Plain item) : Plain (.array items)
  | object (fields : List (JsonString × Json)) (named : ∀ field ∈ fields, field.1.isSome)
      (each : ∀ field ∈ fields, Plain field.2) : Plain (.object fields)

/-! ## First bytes -/

theorem skipBlanks_cons {first : UInt8} (printed : isBlank first = false) (rest : List UInt8) :
    skipBlanks (first :: rest) = first :: rest :=
  List.dropWhile_cons_of_neg (by simp [printed])

/-- The text of a number starts with a minus or a digit. -/
theorem exists_renderInteger_eq (value : Int) :
    ∃ first others, renderInteger value = first :: others ∧ (first = minus ∨ isDigit first) := by
  cases value with
  | ofNat number =>
      obtain ⟨digits, ⟨first, others, start, _⟩, _⟩ := decimal_decimal number
      exact ⟨first, others, start, .inr (digits first (by simp [start]))⟩
  | negSucc number => exact ⟨minus, _, rfl, .inl rfl⟩

/-- A byte with which the text of a number may start is no other sign. -/
theorem number_start {first : UInt8} (start : first = minus ∨ isDigit first) :
    isBlank first = false ∧ first ≠ openBracket ∧ first ≠ closeBracket ∧ first ≠ openBrace ∧
      first ≠ quote ∧ first ≠ 0x6e ∧ first ≠ 0x74 ∧ first ≠ 0x66 := by
  have all : ∀ code : Fin 256, UInt8.ofNat code = minus ∨ isDigit (UInt8.ofNat code) →
      isBlank (UInt8.ofNat code) = false ∧ UInt8.ofNat code ≠ openBracket ∧
        UInt8.ofNat code ≠ closeBracket ∧ UInt8.ofNat code ≠ openBrace ∧
        UInt8.ofNat code ≠ quote ∧ UInt8.ofNat code ≠ 0x6e ∧ UInt8.ofNat code ≠ 0x74 ∧
        UInt8.ofNat code ≠ 0x66 := by
    decide +kernel
  have own := all ⟨first.toNat, first.toNat_lt⟩
  rw [UInt8.ofNat_toNat] at own
  exact own start

/-- The text of a value starts with a byte that is no blank and closes no array. -/
theorem Plain.exists_render_eq {value : Json} (plain : Plain value) :
    ∃ first others, value.render = first :: others ∧ isBlank first = false ∧
      first ≠ closeBracket := by
  cases plain with
  | null => exact ⟨_, _, rfl, by decide, by decide⟩
  | bool value => cases value <;> exact ⟨_, _, rfl, by decide, by decide⟩
  | integer value =>
      obtain ⟨first, others, same, start⟩ := exists_renderInteger_eq value
      obtain ⟨printed, _, inside, _⟩ := number_start start
      exact ⟨first, others, same, printed, inside⟩
  | string text => exact ⟨_, _, rfl, by decide, by decide⟩
  | array items each => exact ⟨_, _, rfl, by decide, by decide⟩
  | object fields named each => exact ⟨_, _, rfl, by decide, by decide⟩

theorem exists_renderItems_eq {item : Json} (plain : Plain item) (others : List Json) :
    ∃ first rest, renderItems (item :: others) = first :: rest ∧ isBlank first = false ∧
      first ≠ closeBracket := by
  obtain ⟨first, rest, same, printed, inside⟩ := plain.exists_render_eq
  cases others with
  | nil => exact ⟨first, rest, same, printed, inside⟩
  | cons next behind =>
      refine ⟨first, rest ++ comma :: renderItems (next :: behind), ?_, printed, inside⟩
      rw [renderItems, same, List.cons_append]

/-! ## Steps of the readers -/

theorem readValue_null (fuel : Nat) (rest : List UInt8) :
    readValue (fuel + 1) (ascii "null" ++ rest) = some (.null, rest) := rfl

theorem readValue_true (fuel : Nat) (rest : List UInt8) :
    readValue (fuel + 1) (ascii "true" ++ rest) = some (.bool true, rest) := rfl

theorem readValue_false (fuel : Nat) (rest : List UInt8) :
    readValue (fuel + 1) (ascii "false" ++ rest) = some (.bool false, rest) := rfl

theorem readValue_of_ne (fuel : Nat) {first : UInt8} (printed : isBlank first = false)
    (noArray : first ≠ openBracket) (noObject : first ≠ openBrace) (noString : first ≠ quote)
    (rest : List UInt8) :
    readValue (fuel + 1) (first :: rest) = readScalar (first :: rest) := by
  rw [readValue, skipBlanks_cons printed]
  split
  · next same => exact absurd (List.cons.inj same).1 noArray
  · next same => exact absurd (List.cons.inj same).1 noObject
  · next same => exact absurd (List.cons.inj same).1 noString
  · rfl

theorem dropWord?_of_ne {first letter : UInt8} (other : first ≠ letter)
    (letters rest : List UInt8) : dropWord? (letter :: letters) (first :: rest) = none := by
  unfold dropWord?
  rw [List.isPrefixOf_cons_cons, beq_eq_false_iff_ne.2 (Ne.symm other)]
  rfl

theorem readValue_renderInteger (fuel : Nat) (value : Int) {rest : List UInt8}
    (ends : EndsValue rest) :
    readValue (fuel + 1) (renderInteger value ++ rest) = some (.integer value, rest) := by
  have number := readNumber_renderInteger value ends
  obtain ⟨first, others, same, start⟩ := exists_renderInteger_eq value
  obtain ⟨printed, noArray, _, noObject, noString, noNull, noTrue, noFalse⟩ := number_start start
  rw [same, List.cons_append] at number ⊢
  rw [readValue_of_ne fuel printed noArray noObject noString, ← number]
  have null : dropWord? (ascii "null") (first :: (others ++ rest)) = none :=
    dropWord?_of_ne noNull _ _
  have true : dropWord? (ascii "true") (first :: (others ++ rest)) = none :=
    dropWord?_of_ne noTrue _ _
  have false : dropWord? (ascii "false") (first :: (others ++ rest)) = none :=
    dropWord?_of_ne noFalse _ _
  rw [readScalar, null, true, false]

theorem readValue_renderString (fuel : Nat) (text : String) (rest : List UInt8) :
    readValue (fuel + 1) (renderString text ++ rest) = some (.string (some text), rest) := by
  obtain ⟨content, same, read⟩ := readContent_renderString text rest
  rw [same]
  show (readContent (some []) content).map _ = _
  rw [read]
  rfl

theorem readValue_openBracket (fuel : Nat) {first : UInt8} (printed : isBlank first = false)
    (inside : first ≠ closeBracket) (rest : List UInt8) :
    readValue (fuel + 1) (openBracket :: first :: rest) = readItems fuel [] (first :: rest) := by
  rw [readValue, skipBlanks_cons (by decide)]
  split
  · next behind same =>
      rw [← (List.cons.inj same).2, skipBlanks_cons printed]
      split
      · next same => exact absurd (List.cons.inj same).1 inside
      · rfl
  · next same => exact absurd (List.cons.inj same).1 (by decide)
  · next same => exact absurd (List.cons.inj same).1 (by decide)
  · next opened _ _ => exact absurd rfl (opened (first :: rest))

theorem readValue_openBrace (fuel : Nat) (rest : List UInt8) :
    readValue (fuel + 1) (openBrace :: quote :: rest) = readFields fuel [] (quote :: rest) := rfl

theorem readName_renderString (name : String) (rest : List UInt8) :
    readName (renderString name ++ colon :: rest) = some (some name, rest) := by
  obtain ⟨content, same, read⟩ := readContent_renderString name (colon :: rest)
  rw [same]
  show (readContent (some []) content).bind _ = _
  rw [read]
  rfl

/-! ## Values -/

/-- Whether a reader with so many steps reads back what fits them. -/
structure Reads (fuel : Nat) : Prop where
  value : ∀ value rest, Plain value → EndsValue rest → 2 * value.render.length ≤ fuel →
    readValue fuel (value.render ++ rest) = some (value, rest)
  items : ∀ reversed items rest, items ≠ [] → (∀ item ∈ items, Plain item) →
    2 * (renderItems items).length < fuel →
      readItems fuel reversed (renderItems items ++ closeBracket :: rest) =
        some (.array (reversed.reverse ++ items), rest)
  fields : ∀ reversed fields rest, fields ≠ [] → (∀ field ∈ fields, field.1.isSome) →
    (∀ field ∈ fields, Plain field.2) → 2 * (renderFields fields).length < fuel →
      readFields fuel reversed (renderFields fields ++ closeBrace :: rest) =
        some (.object (reversed.reverse ++ fields), rest)

namespace Reads

variable {fuel : Nat}

theorem zero : Reads 0 where
  value := by
    intro value rest plain ends fits
    obtain ⟨first, others, same, _⟩ := plain.exists_render_eq
    rw [same, List.length_cons] at fits
    omega
  items := fun _ _ _ _ _ fits => absurd fits (Nat.not_lt_zero _)
  fields := fun _ _ _ _ _ _ fits => absurd fits (Nat.not_lt_zero _)

theorem value_succ (reads : Reads fuel) {value : Json} {rest : List UInt8}
    (plain : Plain value) (ends : EndsValue rest) (fits : 2 * value.render.length ≤ fuel + 1) :
    readValue (fuel + 1) (value.render ++ rest) = some (value, rest) := by
  cases plain with
  | null => exact readValue_null fuel rest
  | bool value =>
      cases value with
      | true => exact readValue_true fuel rest
      | false => exact readValue_false fuel rest
  | integer value => exact readValue_renderInteger fuel value ends
  | string text => exact readValue_renderString fuel text rest
  | array items each =>
      have shorter : 2 * (renderItems items).length < fuel := by
        simp only [render, List.length_append, List.length_cons, List.length_nil] at fits
        omega
      have whole : (Json.array items).render ++ rest =
          openBracket :: (renderItems items ++ closeBracket :: rest) := by
        simp [render]
      rw [whole]
      cases items with
      | nil => rfl
      | cons item others =>
          have read := reads.items [] (item :: others) rest (List.cons_ne_nil _ _) each shorter
          obtain ⟨first, behind, same, printed, inside⟩ :=
            exists_renderItems_eq (each item List.mem_cons_self) others
          rw [same, List.cons_append] at read ⊢
          rw [readValue_openBracket fuel printed inside, read]
          rfl
  | object fields named each =>
      have shorter : 2 * (renderFields fields).length < fuel := by
        simp only [render, List.length_append, List.length_cons, List.length_nil] at fits
        omega
      have whole : (Json.object fields).render ++ rest =
          openBrace :: (renderFields fields ++ closeBrace :: rest) := by
        simp [render]
      rw [whole]
      cases fields with
      | nil => rfl
      | cons field others =>
          have read := reads.fields [] (field :: others) rest (List.cons_ne_nil _ _) named each
            shorter
          obtain ⟨behind, same⟩ : ∃ behind, renderFields (field :: others) = quote :: behind := by
            cases others <;> exact ⟨_, rfl⟩
          rw [same, List.cons_append] at read ⊢
          rw [readValue_openBrace, read]
          rfl

theorem items_succ (reads : Reads fuel) {reversed items : List Json} {rest : List UInt8}
    (some? : items ≠ []) (each : ∀ item ∈ items, Plain item)
    (fits : 2 * (renderItems items).length < fuel + 1) :
    readItems (fuel + 1) reversed (renderItems items ++ closeBracket :: rest) =
      some (.array (reversed.reverse ++ items), rest) := by
  cases items with
  | nil => exact absurd rfl some?
  | cons item others =>
      have plain := each item List.mem_cons_self
      cases others with
      | nil =>
          have ends : EndsValue (closeBracket :: rest) := by
            rintro byte ⟨⟩
            exact .inr (.inl rfl)
          have read := reads.value item _ plain ends (by simp only [renderItems] at fits; omega)
          rw [readItems, renderItems, read]
          show some (Json.array (item :: reversed).reverse, rest) = _
          rw [List.reverse_cons]
      | cons next behind =>
          have shorter : 2 * item.render.length ≤ fuel ∧
              2 * (renderItems (next :: behind)).length < fuel := by
            simp only [renderItems, List.length_append, List.length_cons] at fits
            omega
          have ends : EndsValue
              (comma :: (renderItems (next :: behind) ++ closeBracket :: rest)) := by
            rintro byte ⟨⟩
            exact .inl rfl
          have read := reads.value item _ plain ends shorter.1
          have others := reads.items (item :: reversed) (next :: behind) rest
            (List.cons_ne_nil _ _)
            (fun other member => each other (List.mem_cons_of_mem item member)) shorter.2
          rw [readItems, renderItems, List.append_assoc, List.cons_append, read]
          show readItems fuel (item :: reversed) _ = _
          rw [others, List.reverse_cons, List.append_assoc, List.singleton_append]

theorem fields_succ (reads : Reads fuel) {reversed fields : List (JsonString × Json)}
    {rest : List UInt8} (some? : fields ≠ []) (named : ∀ field ∈ fields, field.1.isSome)
    (each : ∀ field ∈ fields, Plain field.2)
    (fits : 2 * (renderFields fields).length < fuel + 1) :
    readFields (fuel + 1) reversed (renderFields fields ++ closeBrace :: rest) =
      some (.object (reversed.reverse ++ fields), rest) := by
  cases fields with
  | nil => exact absurd rfl some?
  | cons field others =>
      obtain ⟨name?, value⟩ := field
      obtain ⟨name, rfl⟩ := Option.isSome_iff_exists.1 (named _ List.mem_cons_self)
      have plain : Plain value := each _ List.mem_cons_self
      cases others with
      | nil =>
          have ends : EndsValue (closeBrace :: rest) := by
            rintro byte ⟨⟩
            exact .inr (.inr rfl)
          have shorter : 2 * value.render.length ≤ fuel := by
            simp only [renderFields, List.length_append, List.length_cons] at fits
            omega
          have read := reads.value value _ plain ends shorter
          rw [readFields, renderFields, List.append_assoc, List.cons_append, Option.getD_some,
            readName_renderString]
          dsimp only
          rw [read]
          show some (Json.object ((some name, value) :: reversed).reverse, rest) = _
          rw [List.reverse_cons]
      | cons next behind =>
          have shorter : 2 * value.render.length ≤ fuel ∧
              2 * (renderFields (next :: behind)).length < fuel := by
            simp only [renderFields, List.length_append, List.length_cons] at fits
            omega
          have ends : EndsValue
              (comma :: (renderFields (next :: behind) ++ closeBrace :: rest)) := by
            rintro byte ⟨⟩
            exact .inl rfl
          have read := reads.value value _ plain ends shorter.1
          have others := reads.fields ((some name, value) :: reversed) (next :: behind) rest
            (List.cons_ne_nil _ _)
            (fun other member => named other (List.mem_cons_of_mem _ member))
            (fun other member => each other (List.mem_cons_of_mem _ member)) shorter.2
          rw [readFields, renderFields, List.append_assoc, List.append_assoc, List.cons_append,
            Option.getD_some, readName_renderString]
          dsimp only
          rw [List.cons_append, read]
          show readFields fuel ((some name, value) :: reversed) _ = _
          rw [others, List.reverse_cons, List.append_assoc, List.singleton_append]

end Reads

theorem reads (fuel : Nat) : Reads fuel := by
  induction fuel with
  | zero => exact .zero
  | succ fuel reads =>
      exact ⟨fun _ _ => reads.value_succ, fun _ _ _ => reads.items_succ,
        fun _ _ _ => reads.fields_succ⟩

/-- A value that was written is read back. -/
theorem parse?_render {value : Json} (plain : Plain value) : parse? value.render = some value := by
  have ends : EndsValue [] := by
    rintro byte ⟨⟩
  have read := (reads (2 * value.render.length + 2)).value value [] plain ends (by omega)
  rw [List.append_nil] at read
  rw [parse?, read]
  rfl

end PeerOverlay.Json
