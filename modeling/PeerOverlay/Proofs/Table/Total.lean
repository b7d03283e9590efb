import PeerOverlay.Table

/-!
# Adding up rows

A measure of the rows of a table is added up.  A change under one key changes the
total by what that key contributes before and after.
-/

namespace PeerOverlay.Table

variable {κ α : Type}

def addRows (measure : κ → α → Nat) (rows : List (κ × α)) : Nat :=
  rows.foldr (fun row sum => measure row.1 row.2 + sum) 0

def total (table : Table κ α) (measure : κ → α → Nat) : Nat :=
  addRows measure table.rows

/-- What a key with a value, or without one, contributes to a total. -/
def portion (measure : κ → α → Nat) (key : κ) (found : Option α) : Nat :=
  found.elim 0 (measure key)

@[simp]
theorem portion_none (measure : κ → α → Nat) (key : κ) : portion measure key none = 0 := rfl

@[simp]
theorem portion_some (measure : κ → α → Nat) (key : κ) (value : α) :
    portion measure key (some value) = measure key value := rfl

@[simp]
theorem addRows_nil (measure : κ → α → Nat) : addRows measure [] = 0 := rfl

@[simp]
theorem addRows_cons (measure : κ → α → Nat) (row : κ × α) (rest : List (κ × α)) :
    addRows measure (row :: rest) = measure row.1 row.2 + addRows measure rest := rfl

theorem total_add (table : Table κ α) (first second : κ → α → Nat) :
    (table.total fun key value => first key value + second key value) =
      table.total first + table.total second := by
  unfold total
  induction table.rows with
  | nil => rfl
  | cons row rest hypothesis =>
      simp only [addRows_cons, hypothesis]
      omega

theorem total_le_total (table : Table κ α) {lighter heavier : κ → α → Nat}
    (less : ∀ key value, lighter key value ≤ heavier key value) :
    table.total lighter ≤ table.total heavier := by
  unfold total
  induction table.rows with
  | nil => exact Nat.le_refl 0
  | cons row rest hypothesis => exact Nat.add_le_add (less row.1 row.2) hypothesis

variable [DecidableEq κ]

/-! ## Inserting and erasing -/

theorem addRows_putRow (measure : κ → α → Nat) (key : κ) (value : α)
    (rows : List (κ × α)) :
    addRows measure (putRow key value rows) + portion measure key (findRow key rows) =
      addRows measure rows + measure key value := by
  induction rows with
  | nil => simp [putRow, findRow]
  | cons row rest hypothesis =>
      obtain ⟨known, old⟩ := row
      by_cases same : known = key
      · subst same
        simp only [putRow, findRow, if_true, addRows_cons, portion_some]
        omega
      · simp only [putRow, findRow, same, if_false, addRows_cons]
        omega

/-- Inserting a value replaces what its key contributes. -/
theorem total_insert (table : Table κ α) (measure : κ → α → Nat) (key : κ) (value : α) :
    (table.insert key value).total measure + portion measure key (table.get? key) =
      table.total measure + measure key value :=
  addRows_putRow measure key value table.rows

theorem dropRow_eq_self {key : κ} {rows : List (κ × α)}
    (absent : key ∉ rows.map Prod.fst) : dropRow key rows = rows := by
  apply List.filter_eq_self.2
  intro row member
  have different : row.1 ≠ key := by
    rintro rfl
    exact absent (List.mem_map.2 ⟨row, member, rfl⟩)
  simp [different]

theorem addRows_dropRow (measure : κ → α → Nat) (key : κ) {rows : List (κ × α)}
    (distinct : (rows.map Prod.fst).Nodup) :
    addRows measure (dropRow key rows) + portion measure key (findRow key rows) =
      addRows measure rows := by
  induction rows with
  | nil => simp [dropRow, findRow]
  | cons row rest hypothesis =>
      obtain ⟨known, old⟩ := row
      rw [List.map_cons, List.nodup_cons] at distinct
      by_cases same : known = key
      · subst same
        have dropped : dropRow known ((known, old) :: rest) = rest := by
          rw [dropRow, List.filter_cons_of_neg (by simp)]
          exact dropRow_eq_self distinct.1
        simp only [dropped, findRow, if_true, addRows_cons, portion_some]
        omega
      · have kept : dropRow key ((known, old) :: rest) = (known, old) :: dropRow key rest := by
          rw [dropRow, List.filter_cons_of_pos (by simpa using same)]
          rfl
        have later := hypothesis distinct.2
        simp only [kept, findRow, same, if_false, addRows_cons]
        omega

/-- Erasing a key takes away what it contributes. -/
theorem total_erase (table : Table κ α) (measure : κ → α → Nat) (key : κ) :
    (table.erase key).total measure + portion measure key (table.get? key) =
      table.total measure :=
  addRows_dropRow measure key table.distinct

/-! ## Changing a value in place -/

theorem changeRows_eq_self {key : κ} {rows : List (κ × α)} (change : α → α)
    (absent : key ∉ rows.map Prod.fst) :
    changeRows (fun known value => if known = key then change value else value) rows = rows := by
  unfold changeRows
  conv => rhs; rw [← List.map_id rows]
  apply List.map_congr_left
  intro row member
  have different : row.1 ≠ key := by
    rintro rfl
    exact absent (List.mem_map.2 ⟨row, member, rfl⟩)
  simp [different]

theorem changeRows_eq_putRow {key : κ} {value : α} {rows : List (κ × α)} (change : α → α)
    (distinct : (rows.map Prod.fst).Nodup) (found : findRow key rows = some value) :
    changeRows (fun known value => if known = key then change value else value) rows =
      putRow key (change value) rows := by
  induction rows with
  | nil => cases found
  | cons row rest hypothesis =>
      obtain ⟨known, old⟩ := row
      rw [List.map_cons, List.nodup_cons] at distinct
      by_cases same : known = key
      · subst same
        have others := changeRows_eq_self change distinct.1
        simp only [findRow, if_true, Option.some.injEq] at found
        subst found
        unfold changeRows at others ⊢
        rw [List.map_cons, others]
        simp [putRow]
      · simp only [findRow, same, if_false] at found
        have others := hypothesis distinct.2 found
        unfold changeRows at others ⊢
        rw [List.map_cons, others]
        simp [putRow, same]

theorem modify_eq_insert {table : Table κ α} {key : κ} {value : α} (change : α → α)
    (found : table.get? key = some value) :
    table.modify key change = table.insert key (change value) := by
  have rows := changeRows_eq_putRow change table.distinct found
  unfold modify mapValues insert
  simp only [rows]

theorem modify_eq_self {table : Table κ α} {key : κ} (change : α → α)
    (missing : table.get? key = none) : table.modify key change = table := by
  have absent : key ∉ table.rows.map Prod.fst := by
    intro member
    have present := (findRow_isSome_iff table.rows key).2 member
    rw [show findRow key table.rows = none from missing] at present
    cases present
  have rows := changeRows_eq_self change absent
  unfold modify mapValues
  simp only [rows]

/-- What a change in place does not touch is the same for all values. -/
theorem map_values_modify {β : Type} (table : Table κ α) (key : κ) {change : α → α}
    {view : α → β} (same : ∀ value, view (change value) = view value) :
    (table.modify key change).values.map view = table.values.map view := by
  unfold modify mapValues values changeRows
  rw [List.map_map, List.map_map, List.map_map]
  apply List.map_congr_left
  rintro ⟨known, value⟩ _
  by_cases here : known = key
  · simp [here, same]
  · simp [here]

/-- Changing a value in place replaces what its key contributes. -/
theorem total_modify (table : Table κ α) (measure : κ → α → Nat) (key : κ)
    (change : α → α) :
    (table.modify key change).total measure + portion measure key (table.get? key) =
      table.total measure + portion measure key ((table.get? key).map change) := by
  cases found : table.get? key with
  | none =>
      rw [modify_eq_self change found]
      rfl
  | some value =>
      have inserted := total_insert table measure key (change value)
      rw [found] at inserted
      rw [modify_eq_insert change found]
      exact inserted

theorem total_modify_le {table : Table κ α} {measure : κ → α → Nat} {key : κ}
    {change : α → α} (lighter : ∀ value, measure key (change value) ≤ measure key value) :
    (table.modify key change).total measure ≤ table.total measure := by
  have balance := total_modify table measure key change
  cases found : table.get? key with
  | none =>
      simp only [found, Option.map_none, portion_none] at balance
      omega
  | some value =>
      have less := lighter value
      simp only [found, Option.map_some, portion_some] at balance
      omega

end PeerOverlay.Table
