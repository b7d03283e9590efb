import PeerOverlay.Message.Encoding
import PeerOverlay.Proofs.Json.RoundTrip

/-!
# Reading records and fields

The fields of a record are read back by their names, and the readers of numbers,
texts, options and lists undo their writers.
-/

namespace PeerOverlay.Json

/-- Whether a reader undoes a writer whose values have a text. -/
structure Undoes {α : Type} (read? : Json → Option α) (write : α → Json) : Prop where
  plain : ∀ value, Plain (write value)
  reads : ∀ value, read? (write value) = some value

/-! ## Records and variants -/

theorem plain_ofRecord {fields : List (String × Json)}
    (each : ∀ field ∈ fields, Plain field.2) : Plain (ofRecord fields) := by
  refine .object _ ?_ ?_
  · intro field member
    obtain ⟨named, _, rfl⟩ := List.mem_map.1 member
    rfl
  · intro field member
    obtain ⟨named, own, rfl⟩ := List.mem_map.1 member
    exact each named own

theorem plain_ofVariant (name : String) {content : Json} (plain : Plain content) :
    Plain (ofVariant name content) := by
  refine .object _ ?_ ?_
  · simp
  · simpa using plain

theorem valuesOf_cons (name key : String) (value : Json) (fields : List (JsonString × Json)) :
    valuesOf name ((some key, value) :: fields) =
      if key = name then value :: valuesOf name fields else valuesOf name fields := by
  rw [valuesOf, List.filterMap_cons]
  by_cases same : key = name <;> simp [same, valuesOf]

theorem valuesOf_of_not_mem {fields : List (String × Json)} {name : String}
    (missing : name ∉ fields.map Prod.fst) :
    valuesOf name (fields.map fun (name, value) => (some name, value)) = [] := by
  induction fields with
  | nil => rfl
  | cons field others hypothesis =>
      rw [List.map_cons, List.mem_cons, not_or] at missing
      rw [List.map_cons, valuesOf_cons, if_neg (Ne.symm missing.1), hypothesis missing.2]

theorem valuesOf_of_mem {fields : List (String × Json)} (distinct : (fields.map Prod.fst).Nodup)
    {field : String × Json} (member : field ∈ fields) :
    valuesOf field.1 (fields.map fun (name, value) => (some name, value)) = [field.2] := by
  induction fields with
  | nil => exact absurd member List.not_mem_nil
  | cons first others hypothesis =>
      rw [List.map_cons, List.nodup_cons] at distinct
      rcases List.mem_cons.1 member with rfl | behind
      · rw [List.map_cons, valuesOf_cons, if_pos rfl, valuesOf_of_not_mem distinct.1]
      · have other : first.1 ≠ field.1 := fun same =>
          distinct.1 (same ▸ List.mem_map_of_mem behind)
        rw [List.map_cons, valuesOf_cons, if_neg other, hypothesis distinct.2 behind]

/-- A record whose names are distinct is read back field by field. -/
theorem record?_ofRecord (names : List String) (distinct : names.Nodup)
    (fields : List (String × Json)) (same : fields.map Prod.fst = names) :
    (ofRecord fields).record? names = some (fields.map fun field => some field.2) := by
  rw [← same] at distinct ⊢
  have named : (fields.map fun (name, value) => ((some name : JsonString), value)).all
      fun field => field.1.isSome := by
    simp
  have each : ∀ front, front ⊆ fields →
      (front.map Prod.fst).mapM
          (field? (fields.map fun (name, value) => (some name, value))) =
        some (front.map fun field => some field.2) := by
    intro front part
    induction front with
    | nil => rfl
    | cons field others hypothesis =>
        obtain ⟨member, rest⟩ := List.cons_subset.1 part
        rw [List.map_cons, List.mapM_cons, field?, valuesOf_of_mem distinct member,
          hypothesis rest]
        rfl
  rw [ofRecord, record?, if_pos named]
  exact each fields (List.Subset.refl fields)

theorem variant?_ofVariant (name : String) (content : Json) :
    (ofVariant name content).variant? = some (name, content) := rfl

/-! ## Fields -/

theorem natBelow?_ofNat {bound value : Nat} (below : value < bound) :
    (ofNat value).natBelow? bound = some value :=
  if_pos below

theorem undoes_natBelow {α : Type} {toNat : α → Nat} {fromNat : Nat → α} {bound : Nat}
    (below : ∀ value, toNat value < bound) (back : ∀ value, fromNat (toNat value) = value) :
    Undoes (fun json => (json.natBelow? bound).map fromNat) fun value => ofNat (toNat value) where
  plain := fun _ => .integer _
  reads := fun value => by rw [natBelow?_ofNat (below value), Option.map_some, back]

theorem undoes_uint8 : Undoes uint8? fun value => ofNat value.toNat :=
  undoes_natBelow UInt8.toNat_lt fun _ => UInt8.ofNat_toNat

theorem undoes_uint16 : Undoes uint16? fun value => ofNat value.toNat :=
  undoes_natBelow UInt16.toNat_lt fun _ => UInt16.ofNat_toNat

theorem undoes_uint32 : Undoes uint32? fun value => ofNat value.toNat :=
  undoes_natBelow UInt32.toNat_lt fun _ => UInt32.ofNat_toNat

theorem undoes_uint64 : Undoes uint64? fun value => ofNat value.toNat :=
  undoes_natBelow UInt64.toNat_lt fun _ => UInt64.ofNat_toNat

theorem undoes_int64 : Undoes int64? fun value : Int64 => .integer value.toInt where
  plain := fun _ => .integer _
  reads := fun value => by
    have low := value.minValue_le_toInt
    have high := value.toInt_le
    show (if _ then some (Int64.ofInt value.toInt) else none) = _
    rw [if_pos ⟨low, high⟩, Int64.ofInt_toInt]

theorem undoes_string : Undoes string? ofText where
  plain := .string
  reads := fun _ => rfl

theorem Undoes.plain_optional {α : Type} {read? : Json → Option α} {write : α → Json}
    (undoes : Undoes read? write) (value : Option α) : Plain (ofOption write value) := by
  cases value with
  | none => exact .null
  | some value => exact undoes.plain value

theorem Undoes.optional? {α : Type} {read? : Json → Option α} {write : α → Json}
    (undoes : Undoes read? write) (some? : ∀ value, write value ≠ .null) (value : Option α) :
    optional? read? (some (ofOption write value)) = some value := by
  cases value with
  | none => rfl
  | some value =>
      have read := undoes.reads value
      rw [ofOption, Json.optional?, read]
      · rfl
      · intro null
        exact some? value null

theorem Undoes.list {α : Type} {read? : Json → Option α} {write : α → Json}
    (undoes : Undoes read? write) :
    Undoes (list? read?) fun values => .array (values.map write) where
  plain := by
    intro values
    refine .array _ ?_
    intro item member
    obtain ⟨value, _, rfl⟩ := List.mem_map.1 member
    exact undoes.plain value
  reads := by
    intro values
    show (values.map write).mapM read? = some values
    induction values with
    | nil => rfl
    | cons value others hypothesis =>
        rw [List.map_cons, List.mapM_cons, undoes.reads, hypothesis]
        rfl

end PeerOverlay.Json
