import Mathlib.Data.Set.Card
import Station.Table

/-!
# Tables as finite maps

What the view `Table.get?` says about the other things a table can be asked. A table built from a
list of rows answers with the last row of a key (`get?_ofList`), its size is the number of keys that
have a row (`size_eq_ncard`), and each operation moves the size by one row at most.
-/

namespace Station.Table

universe u v

variable {κ : Type u} {α : Type v} [Ord κ] [Std.TransOrd κ] [DecidableEq κ]

theorem contains_insert [Std.LawfulEqOrd κ] (t : Table κ α) (key probe : κ) (value : α) :
    (t.insert key value).contains probe = true ↔ probe = key ∨ t.contains probe = true := by
  rw [contains, get?_insert]
  split
  · rename_i heq
    simp [heq]
  · rename_i hne
    simp [hne, contains]

/-- The row of a key holds its value, whichever value stands for a missing row. -/
theorem mem_rows_iff_getD (t : Table κ α) (key : κ) (value default : α) :
    (key, value) ∈ t.rows ↔ t.contains key = true ∧ value = (t.get? key).getD default := by
  rw [mem_rows_iff, contains]
  cases t.get? key with
  | none => simp
  | some stored => simp [eq_comm]

/-- Erasing a key without a row changes nothing. -/
theorem erase_of_get?_eq_none {t : Table κ α} {key : κ} (h : t.get? key = none) :
    t.erase key = t := by
  refine ext_get? fun probe => ?_
  rw [get?_erase]
  split
  · rename_i heq
    rw [heq, h]
  · rfl

/-- A new row that is erased again leaves the table of before. -/
theorem erase_insert_of_get?_eq_none [Std.LawfulEqOrd κ] {t : Table κ α} {key : κ} (value : α)
    (h : t.get? key = none) : (t.insert key value).erase key = t := by
  refine ext_get? fun probe => ?_
  rw [get?_erase, get?_insert]
  split
  · rename_i heq
    rw [heq, h]
  · rfl

/-! ## Lists of rows -/

section OfList

variable [Std.LawfulEqOrd κ]

omit [DecidableEq κ] in
theorem ofList_concat (rows : List (κ × α)) (row : κ × α) :
    ofList (rows ++ [row]) = (ofList rows).insert row.1 row.2 := by
  simp only [ofList, List.foldl_append, List.foldl_cons, List.foldl_nil]

/-- Of the rows with one key, the last decides. -/
theorem get?_ofList (rows : List (κ × α)) (key : κ) :
    (ofList rows).get? key = (rows.reverse.find? fun row => decide (row.1 = key)).map (·.2) := by
  induction rows using List.reverseRecOn with
  | nil => rfl
  | append_singleton rows row ih =>
    rw [ofList_concat, get?_insert, List.reverse_concat, List.find?_cons, ih]
    by_cases h : row.1 = key
    · simp [h]
    · simp [h, Ne.symm h]

/-- Whatever a table of rows holds is one of the rows. -/
theorem mem_of_get?_ofList {rows : List (κ × α)} {key : κ} {value : α}
    (h : (ofList rows).get? key = some value) : (key, value) ∈ rows := by
  rw [get?_ofList, Option.map_eq_some_iff] at h
  obtain ⟨row, hfound, rfl⟩ := h
  have hkey : row.1 = key := by simpa using List.find?_some hfound
  have hmem : row ∈ rows := List.mem_reverse.1 (List.mem_of_find?_eq_some hfound)
  rw [← hkey]
  exact hmem

end OfList

/-! ## Sizes -/

omit [DecidableEq κ] in
theorem keys_nodup (t : Table κ α) : t.keys.Nodup := by
  refine t.keys_ascending.imp fun {a b} hlt heq => ?_
  rw [heq] at hlt
  simp at hlt

/-- The size of a table is the number of keys that have a row. -/
theorem size_eq_ncard (t : Table κ α) : t.size = {key | t.contains key = true}.ncard := by
  have hset : {key | t.contains key = true} = (t.keys.toFinset : Set κ) := by
    ext key
    simp only [Set.mem_ofPred_eq, List.coe_toFinset]
    exact (t.mem_keys_iff key).symm
  rw [hset, Set.ncard_coe_finset, List.toFinset_card_of_nodup t.keys_nodup, keys, List.length_map,
    size]

theorem finite_contains (t : Table κ α) : {key | t.contains key = true}.Finite := by
  refine t.keys.finite_toSet.subset fun key hkey => ?_
  exact (t.mem_keys_iff key).2 hkey

/-- A new key adds one row. -/
theorem size_insert_of_get?_eq_none [Std.LawfulEqOrd κ] {t : Table κ α} {key : κ} (value : α)
    (h : t.get? key = none) : (t.insert key value).size = t.size + 1 := by
  have hset : {k | (t.insert key value).contains k = true} =
      Insert.insert key {k | t.contains k = true} := by
    ext probe
    exact t.contains_insert key probe value
  have hnew : key ∉ {k | t.contains k = true} := by simp [contains, h]
  rw [size_eq_ncard, size_eq_ncard, hset]
  exact Set.ncard_insert_of_notMem hnew t.finite_contains

/-- Erasing a key with a row takes one row away. -/
theorem size_erase_of_get?_eq_some {t : Table κ α} {key : κ} {value : α}
    (h : t.get? key = some value) : (t.erase key).size + 1 = t.size := by
  have hset : {k | (t.erase key).contains k = true} = {k | t.contains k = true} \ {key} := by
    ext probe
    by_cases heq : probe = key <;> simp [contains, get?_erase, heq]
  have hold : key ∈ {k | t.contains k = true} := by simp [contains, h]
  rw [size_eq_ncard, size_eq_ncard, hset]
  exact Set.ncard_sdiff_singleton_add_one hold t.finite_contains

end Station.Table
