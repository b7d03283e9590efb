/-!
# Tables

A table assigns values to finitely many keys and remembers the order in which
its keys came.  Inserting a value under a known key keeps the key's place.
-/

namespace PeerOverlay

/-- Rows with different keys. -/
structure Table (κ α : Type) where
  rows : List (κ × α)
  distinct : (rows.map Prod.fst).Nodup

namespace Table

variable {κ α β : Type} [DecidableEq κ]

/-! ## Rows -/

def findRow (key : κ) : List (κ × α) → Option α
  | [] => none
  | (known, value) :: rest => if known = key then some value else findRow key rest

/-- Rows with a value in the row of a key, which is the last row if it is new. -/
def putRow (key : κ) (value : α) : List (κ × α) → List (κ × α)
  | [] => [(key, value)]
  | (known, old) :: rest =>
      if known = key then (known, value) :: rest
      else (known, old) :: putRow key value rest

def dropRow (key : κ) (rows : List (κ × α)) : List (κ × α) :=
  rows.filter fun row => row.1 ≠ key

def changeRows (change : κ → α → β) (rows : List (κ × α)) : List (κ × β) :=
  rows.map fun row => (row.1, change row.1 row.2)

omit [DecidableEq κ] in
theorem changeRows_keys (change : κ → α → β) (rows : List (κ × α)) :
    (changeRows change rows).map Prod.fst = rows.map Prod.fst := by
  simp [changeRows, Function.comp_def]

theorem mem_putRow_keys (key : κ) (value : α) (rows : List (κ × α)) (tested : κ) :
    tested ∈ (putRow key value rows).map Prod.fst ↔
      tested = key ∨ tested ∈ rows.map Prod.fst := by
  induction rows with
  | nil => simp [putRow]
  | cons row rest hypothesis =>
      obtain ⟨known, old⟩ := row
      by_cases same : known = key
      · subst same
        simp [putRow]
      · simp only [putRow, same, if_false, List.map_cons, List.mem_cons, hypothesis]
        constructor
        · rintro (h | h | h)
          · exact Or.inr (Or.inl h)
          · exact Or.inl h
          · exact Or.inr (Or.inr h)
        · rintro (h | h | h)
          · exact Or.inr (Or.inl h)
          · exact Or.inl h
          · exact Or.inr (Or.inr h)

theorem putRow_distinct (key : κ) (value : α) {rows : List (κ × α)}
    (distinct : (rows.map Prod.fst).Nodup) :
    ((putRow key value rows).map Prod.fst).Nodup := by
  induction rows with
  | nil => simp [putRow]
  | cons row rest hypothesis =>
      obtain ⟨known, old⟩ := row
      rw [List.map_cons, List.nodup_cons] at distinct
      by_cases same : known = key
      · simp only [putRow, same, if_true, List.map_cons, List.nodup_cons]
        subst same
        exact distinct
      · simp only [putRow, same, if_false, List.map_cons, List.nodup_cons]
        refine ⟨fun member => ?_, hypothesis distinct.2⟩
        rcases (mem_putRow_keys key value rest known).1 member with h | h
        · exact same h
        · exact distinct.1 h

omit [DecidableEq κ] in
theorem filter_distinct (keep : κ × α → Bool) {rows : List (κ × α)}
    (distinct : (rows.map Prod.fst).Nodup) :
    ((rows.filter keep).map Prod.fst).Nodup :=
  distinct.sublist (List.filter_sublist.map Prod.fst)

theorem findRow_putRow (key : κ) (value : α) (rows : List (κ × α)) (tested : κ) :
    findRow tested (putRow key value rows) =
      if key = tested then some value else findRow tested rows := by
  induction rows with
  | nil => simp [putRow, findRow]
  | cons row rest hypothesis =>
      obtain ⟨known, old⟩ := row
      by_cases same : known = key
      · subst same
        by_cases hit : known = tested <;> simp [putRow, findRow, hit]
      · simp only [putRow, same, if_false, findRow, hypothesis]
        by_cases hit : known = tested
        · subst hit
          simp [Ne.symm same]
        · simp [hit]

theorem findRow_filter (keep : κ × α → Bool) {rows : List (κ × α)}
    (distinct : (rows.map Prod.fst).Nodup) (tested : κ) :
    findRow tested (rows.filter keep) =
      (findRow tested rows).filter fun value => keep (tested, value) := by
  induction rows with
  | nil => rfl
  | cons row rest hypothesis =>
      obtain ⟨known, old⟩ := row
      rw [List.map_cons, List.nodup_cons] at distinct
      have later := hypothesis distinct.2
      by_cases hit : known = tested
      · subst hit
        have absent : findRow known (rest.filter keep) = none := by
          have missing : known ∉ (rest.filter keep).map Prod.fst := fun member =>
            distinct.1 ((List.filter_sublist.map Prod.fst).subset member)
          revert missing
          generalize rest.filter keep = others
          intro missing
          induction others with
          | nil => rfl
          | cons other others inner =>
              obtain ⟨name, stored⟩ := other
              rw [List.map_cons, List.mem_cons, not_or] at missing
              simp [findRow, Ne.symm missing.1, inner missing.2]
        by_cases kept : keep (known, old) <;>
          simp [findRow, kept, absent, Option.filter]
      · by_cases kept : keep (known, old) <;> simp [findRow, kept, hit, later]

theorem findRow_changeRows (change : κ → α → β) (rows : List (κ × α)) (tested : κ) :
    findRow tested (changeRows change rows) = (findRow tested rows).map (change tested) := by
  induction rows with
  | nil => rfl
  | cons row rest hypothesis =>
      obtain ⟨known, old⟩ := row
      by_cases hit : known = tested
      · subst hit
        simp [changeRows, findRow]
      · simpa [changeRows, findRow, hit] using hypothesis

theorem findRow_isSome_iff (rows : List (κ × α)) (tested : κ) :
    (findRow tested rows).isSome ↔ tested ∈ rows.map Prod.fst := by
  induction rows with
  | nil => simp [findRow]
  | cons row rest hypothesis =>
      obtain ⟨known, old⟩ := row
      by_cases hit : known = tested
      · simp [findRow, hit]
      · simp only [findRow, hit, if_false, hypothesis, List.map_cons, List.mem_cons]
        exact ⟨Or.inr, fun h => h.resolve_left (Ne.symm hit)⟩

theorem findRow_eq_some_of_mem {key : κ} {value : α} {rows : List (κ × α)}
    (distinct : (rows.map Prod.fst).Nodup) (member : (key, value) ∈ rows) :
    findRow key rows = some value := by
  induction rows with
  | nil => simp at member
  | cons row rest hypothesis =>
      obtain ⟨known, old⟩ := row
      rw [List.map_cons, List.nodup_cons] at distinct
      rcases List.mem_cons.1 member with first | later
      · injection first with sameKey sameValue
        simp [findRow, sameKey, sameValue]
      · have different : known ≠ key := by
          rintro rfl
          exact distinct.1 (List.mem_map.2 ⟨(known, value), later, rfl⟩)
        simp only [findRow, different, if_false]
        exact hypothesis distinct.2 later

theorem mem_of_findRow_eq_some {key : κ} {value : α} {rows : List (κ × α)}
    (found : findRow key rows = some value) : (key, value) ∈ rows := by
  induction rows with
  | nil => simp [findRow] at found
  | cons row rest hypothesis =>
      obtain ⟨known, old⟩ := row
      by_cases same : known = key
      · simp only [findRow, same, if_true, Option.some.injEq] at found
        simp [same, found]
      · simp only [findRow, same, if_false] at found
        exact List.mem_cons_of_mem _ (hypothesis found)

/-! ## Operations -/

def empty : Table κ α where
  rows := []
  distinct := by simp

instance : Inhabited (Table κ α) := ⟨empty⟩

def get? (table : Table κ α) (key : κ) : Option α :=
  findRow key table.rows

def contains (table : Table κ α) (key : κ) : Bool :=
  (table.get? key).isSome

def insert (table : Table κ α) (key : κ) (value : α) : Table κ α where
  rows := putRow key value table.rows
  distinct := putRow_distinct key value table.distinct

def erase (table : Table κ α) (key : κ) : Table κ α where
  rows := dropRow key table.rows
  distinct := filter_distinct _ table.distinct

def filter (table : Table κ α) (keep : κ → α → Bool) : Table κ α where
  rows := table.rows.filter fun row => keep row.1 row.2
  distinct := filter_distinct _ table.distinct

def mapValues (table : Table κ α) (change : κ → α → β) : Table κ β where
  rows := changeRows change table.rows
  distinct := by rw [changeRows_keys]; exact table.distinct

def modify (table : Table κ α) (key : κ) (change : α → α) : Table κ α :=
  table.mapValues fun known value => if known = key then change value else value

omit [DecidableEq κ] in
def keys (table : Table κ α) : List κ :=
  table.rows.map Prod.fst

omit [DecidableEq κ] in
def values (table : Table κ α) : List α :=
  table.rows.map Prod.snd

omit [DecidableEq κ] in
def size (table : Table κ α) : Nat :=
  table.rows.length

/-! ## What is under a key -/

@[simp]
theorem get?_empty (tested : κ) : (empty : Table κ α).get? tested = none := rfl

theorem get?_insert (table : Table κ α) (key : κ) (value : α) (tested : κ) :
    (table.insert key value).get? tested =
      if key = tested then some value else table.get? tested :=
  findRow_putRow key value table.rows tested

theorem get?_erase (table : Table κ α) (key tested : κ) :
    (table.erase key).get? tested = if key = tested then none else table.get? tested := by
  have filtered := findRow_filter (fun row : κ × α => row.1 ≠ key) table.distinct tested
  simp only [get?, erase, dropRow]
  rw [filtered]
  by_cases same : key = tested
  · subst same
    cases findRow key table.rows <;> simp [Option.filter]
  · have different : tested ≠ key := fun h => same h.symm
    cases findRow tested table.rows <;> simp [Option.filter, same, different]

theorem get?_filter (table : Table κ α) (keep : κ → α → Bool) (tested : κ) :
    (table.filter keep).get? tested = (table.get? tested).filter (keep tested) :=
  findRow_filter (fun row => keep row.1 row.2) table.distinct tested

theorem get?_mapValues (table : Table κ α) (change : κ → α → β) (tested : κ) :
    (table.mapValues change).get? tested = (table.get? tested).map (change tested) :=
  findRow_changeRows change table.rows tested

theorem get?_modify (table : Table κ α) (key : κ) (change : α → α) (tested : κ) :
    (table.modify key change).get? tested =
      (table.get? tested).map fun value => if tested = key then change value else value :=
  get?_mapValues table _ tested

theorem mem_rows_iff (table : Table κ α) (key : κ) (value : α) :
    (key, value) ∈ table.rows ↔ table.get? key = some value :=
  ⟨findRow_eq_some_of_mem table.distinct, mem_of_findRow_eq_some⟩

theorem contains_iff (table : Table κ α) (tested : κ) :
    table.contains tested = true ↔ tested ∈ table.keys :=
  findRow_isSome_iff table.rows tested

end Table

end PeerOverlay
