import PeerOverlay.Proofs.Table.Total

/-!
# Counting rows

The rows of a table that satisfy a test are counted.  Inserting a value under a
key and erasing a key change the count by what the key contributes before and
after.
-/

namespace PeerOverlay.Table

variable {κ α : Type}

def countRows (table : Table κ α) (test : κ → α → Bool) : Nat :=
  table.rows.countP fun row => test row.1 row.2

/-- What a key with a value, or without one, contributes to a count. -/
def share (test : κ → α → Bool) (key : κ) (found : Option α) : Nat :=
  if found.any (test key) then 1 else 0

@[simp]
theorem share_none (test : κ → α → Bool) (key : κ) : share test key none = 0 := rfl

@[simp]
theorem share_some (test : κ → α → Bool) (key : κ) (value : α) :
    share test key (some value) = if test key value then 1 else 0 := rfl

@[simp]
theorem countRows_empty [DecidableEq κ] (test : κ → α → Bool) :
    (empty : Table κ α).countRows test = 0 := rfl

theorem countRows_le_countRows (table : Table κ α) {strong weak : κ → α → Bool}
    (weaker : ∀ key value, strong key value → weak key value) :
    table.countRows strong ≤ table.countRows weak :=
  List.countP_mono_left fun row _ => weaker row.1 row.2

/-- A row that satisfies a test is counted by one of two tests that cover it. -/
theorem countRows_le_add (table : Table κ α) {test one other : κ → α → Bool}
    (covered : ∀ key value, test key value → one key value ∨ other key value) :
    table.countRows test ≤ table.countRows one + table.countRows other := by
  unfold countRows
  induction table.rows with
  | nil => exact Nat.zero_le _
  | cons row rest hypothesis =>
      have own : (if test row.1 row.2 then 1 else 0) ≤
          (if one row.1 row.2 then 1 else 0) + if other row.1 row.2 then 1 else 0 := by
        by_cases passed : test row.1 row.2
        · rcases covered row.1 row.2 passed with first | second
          · simp [passed, first]
          · simp [passed, second]
        · simp [passed]
      simp only [List.countP_cons]
      omega

variable [DecidableEq κ]

/-- A count is positive exactly if some key has a value that satisfies the test. -/
theorem countRows_pos_iff (table : Table κ α) (test : κ → α → Bool) :
    0 < table.countRows test ↔ ∃ key value, table.get? key = some value ∧ test key value := by
  unfold countRows
  rw [List.countP_pos_iff]
  constructor
  · rintro ⟨⟨key, value⟩, member, passed⟩
    exact ⟨key, value, (mem_rows_iff table key value).1 member, passed⟩
  · rintro ⟨key, value, found, passed⟩
    exact ⟨(key, value), (mem_rows_iff table key value).2 found, passed⟩

/-- A table is as large as a count in another one if it has the keys that are
counted there. -/
theorem size_eq_countRows {β : Type} (table : Table κ β) (other : Table κ α)
    (test : κ → α → Bool)
    (same : ∀ key, (table.get? key).isSome ↔ ∃ value, other.get? key = some value ∧ test key value) :
    table.size = other.countRows test := by
  have counted : ((other.rows.filter fun row => test row.1 row.2).map Prod.fst).Nodup :=
    filter_distinct _ other.distinct
  have members (key : κ) : key ∈ table.keys ↔
      key ∈ (other.rows.filter fun row => test row.1 row.2).map Prod.fst := by
    rw [← contains_iff, contains, same]
    constructor
    · rintro ⟨value, found, passed⟩
      have row := (mem_rows_iff other key value).2 found
      exact List.mem_map.2 ⟨(key, value), List.mem_filter.2 ⟨row, passed⟩, rfl⟩
    · intro member
      obtain ⟨⟨name, value⟩, row, rfl⟩ := List.mem_map.1 member
      obtain ⟨stored, passed⟩ := List.mem_filter.1 row
      exact ⟨value, (mem_rows_iff other name value).1 stored, passed⟩
  have lengths := ((List.perm_ext_iff_of_nodup table.distinct counted).2 members).length_eq
  rw [List.length_map, List.length_map, ← List.countP_eq_length_filter] at lengths
  exact lengths

/-! ## Counts after a change -/

omit [DecidableEq κ] in
theorem countRows_eq_total (table : Table κ α) (test : κ → α → Bool) :
    table.countRows test = table.total fun key value => if test key value then 1 else 0 := by
  unfold countRows total
  induction table.rows with
  | nil => rfl
  | cons row rest hypothesis =>
      rw [List.countP_cons, addRows_cons, hypothesis, Nat.add_comm]

omit [DecidableEq κ] in
theorem share_eq_portion (test : κ → α → Bool) (key : κ) (found : Option α) :
    share test key found = portion (fun key value => if test key value then 1 else 0) key found := by
  cases found <;> rfl

/-- Inserting a value replaces what its key contributes. -/
theorem countRows_insert (table : Table κ α) (test : κ → α → Bool) (key : κ) (value : α) :
    (table.insert key value).countRows test + share test key (table.get? key) =
      table.countRows test + if test key value then 1 else 0 := by
  rw [countRows_eq_total, countRows_eq_total, share_eq_portion]
  exact total_insert table _ key value

/-- Erasing a key takes away what it contributes. -/
theorem countRows_erase (table : Table κ α) (test : κ → α → Bool) (key : κ) :
    (table.erase key).countRows test + share test key (table.get? key) =
      table.countRows test := by
  rw [countRows_eq_total, countRows_eq_total, share_eq_portion]
  exact total_erase table _ key

end PeerOverlay.Table
