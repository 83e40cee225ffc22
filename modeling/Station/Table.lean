/-!
# Finite maps with ascending keys

A `Table κ α` holds at most one value per key and lists its rows by strictly ascending key. The
order is part of the type, so two tables with the same lookups are the same table
(`Table.ext_get?`), and every listing of a table is sorted without sorting it.

The view of a table is `Table.get?`. Each operation comes with the equation that says what it does
to the view: `get?_empty`, `get?_insert`, `get?_erase`, `get?_modify`.
-/

namespace Station

universe u v

/-- The rows of a table: pairs of a key and its value, by strictly ascending key. -/
def RowsAscending {κ : Type u} {α : Type v} [Ord κ] (rows : List (κ × α)) : Prop :=
  rows.Pairwise fun a b => compare a.1 b.1 = .lt

/-- Puts a row at its place, in the place of an older row of the same key. -/
def insertRow {κ : Type u} {α : Type v} [Ord κ] (key : κ) (value : α) :
    List (κ × α) → List (κ × α)
  | [] => [(key, value)]
  | row :: rest =>
    match compare key row.1 with
    | .lt => (key, value) :: row :: rest
    | .eq => (key, value) :: rest
    | .gt => row :: insertRow key value rest

/-- The value in the row of a key. -/
def lookupRow {κ : Type u} {α : Type v} [DecidableEq κ] (key : κ) : List (κ × α) → Option α
  | [] => none
  | row :: rest => if row.1 = key then some row.2 else lookupRow key rest

section Rows

variable {κ : Type u} {α : Type v} [Ord κ]

theorem mem_insertRow {key : κ} {value : α} {row : κ × α} {rows : List (κ × α)}
    (h : row ∈ insertRow key value rows) : row = (key, value) ∨ row ∈ rows := by
  induction rows with
  | nil => simpa [insertRow] using h
  | cons head rest ih =>
    simp only [insertRow] at h
    split at h
    · simpa using h
    · simp only [List.mem_cons] at h ⊢
      exact h.elim Or.inl fun h => Or.inr (Or.inr h)
    · simp only [List.mem_cons] at h ⊢
      rcases h with h | h
      · exact Or.inr (Or.inl h)
      · exact (ih h).elim Or.inl fun h => Or.inr (Or.inr h)

theorem rowsAscending_insertRow [Std.TransOrd κ] [Std.LawfulEqOrd κ] (key : κ) (value : α)
    {rows : List (κ × α)} (h : RowsAscending rows) :
    RowsAscending (insertRow key value rows) := by
  induction rows with
  | nil => simp [insertRow, RowsAscending]
  | cons head rest ih =>
    obtain ⟨hhead, hrest⟩ := List.pairwise_cons.1 h
    simp only [insertRow]
    split
    · rename_i hlt
      refine List.pairwise_cons.2 ⟨fun row hrow => ?_, h⟩
      rcases List.mem_cons.1 hrow with rfl | hrow
      · exact hlt
      · exact Std.TransCmp.lt_trans hlt (hhead row hrow)
    · rename_i heq
      have hkey : key = head.1 := Std.LawfulEqOrd.eq_of_compare heq
      exact List.pairwise_cons.2 ⟨fun row hrow => hkey ▸ hhead row hrow, hrest⟩
    · rename_i hgt
      refine List.pairwise_cons.2 ⟨fun row hrow => ?_, ih hrest⟩
      rcases mem_insertRow hrow with rfl | hrow
      · exact Std.OrientedCmp.gt_iff_lt.1 hgt
      · exact hhead row hrow

theorem rowsAscending_filter (keep : κ × α → Bool) {rows : List (κ × α)}
    (h : RowsAscending rows) : RowsAscending (rows.filter keep) :=
  List.Pairwise.filter keep h

theorem rowsAscending_map_value (change : κ → α → α) {rows : List (κ × α)}
    (h : RowsAscending rows) :
    RowsAscending (rows.map fun row => (row.1, change row.1 row.2)) :=
  List.Pairwise.map _ (fun _ _ hlt => hlt) h

variable [DecidableEq κ]

theorem lookupRow_insertRow [Std.LawfulEqOrd κ] (key probe : κ) (value : α)
    (rows : List (κ × α)) :
    lookupRow probe (insertRow key value rows) =
      if probe = key then some value else lookupRow probe rows := by
  induction rows with
  | nil => simp [insertRow, lookupRow, @eq_comm _ key probe]
  | cons head rest ih =>
    simp only [insertRow]
    split
    · by_cases h : probe = key
      · simp [lookupRow, h]
      · simp [lookupRow, h, Ne.symm h]
    · rename_i heq
      obtain rfl : key = head.1 := Std.LawfulEqOrd.eq_of_compare heq
      by_cases h : probe = head.1
      · simp [lookupRow, h]
      · simp [lookupRow, h, Ne.symm h]
    · rename_i hgt
      have hne : key ≠ head.1 := fun h => by simp [h] at hgt
      by_cases h : probe = key
      · subst h
        simp [lookupRow, Ne.symm hne, ih]
      · simp [lookupRow, ih, h]

omit [Ord κ] in
theorem lookupRow_filter_ne (key probe : κ) (rows : List (κ × α)) :
    lookupRow probe (rows.filter fun row => decide (row.1 ≠ key)) =
      if probe = key then none else lookupRow probe rows := by
  induction rows with
  | nil => simp [lookupRow]
  | cons head rest ih =>
    by_cases hk : head.1 = key <;> by_cases hp : probe = key <;>
      by_cases hh : head.1 = probe <;> simp_all [lookupRow]

omit [Ord κ] in
theorem lookupRow_map_value (change : κ → α → α) (probe : κ) (rows : List (κ × α)) :
    lookupRow probe (rows.map fun row => (row.1, change row.1 row.2)) =
      (lookupRow probe rows).map (change probe) := by
  induction rows with
  | nil => simp [lookupRow]
  | cons head rest ih => by_cases h : head.1 = probe <;> simp_all [lookupRow]

theorem lookupRow_eq_some_iff [Std.TransOrd κ] {probe : κ} {value : α} {rows : List (κ × α)}
    (h : RowsAscending rows) : lookupRow probe rows = some value ↔ (probe, value) ∈ rows := by
  induction rows with
  | nil => simp [lookupRow]
  | cons head rest ih =>
    obtain ⟨hhead, hrest⟩ := List.pairwise_cons.1 h
    by_cases hp : head.1 = probe
    · simp only [lookupRow, hp, if_true, Option.some.injEq, List.mem_cons]
      constructor
      · rintro rfl
        exact Or.inl (by rw [← hp])
      · rintro (heq | hmem)
        · exact (congrArg Prod.snd heq).symm
        · have hlt := hhead _ hmem
          simp [hp] at hlt
    · simp only [lookupRow, hp, if_false, List.mem_cons, ih hrest]
      constructor
      · exact Or.inr
      · rintro (heq | hmem)
        · exact absurd (congrArg Prod.fst heq).symm hp
        · exact hmem

theorem rows_eq_of_lookupRow [Std.TransOrd κ] {rows others : List (κ × α)}
    (h : RowsAscending rows) (h' : RowsAscending others)
    (heq : ∀ key, lookupRow key rows = lookupRow key others) : rows = others := by
  induction rows generalizing others with
  | nil =>
    cases others with
    | nil => rfl
    | cons head rest => simpa [lookupRow] using heq head.1
  | cons head rest ih =>
    cases others with
    | nil => simpa [lookupRow] using heq head.1
    | cons head' rest' =>
      obtain ⟨hhead, hrest⟩ := List.pairwise_cons.1 h
      obtain ⟨hhead', hrest'⟩ := List.pairwise_cons.1 h'
      have hmem : (head.1, head.2) ∈ head' :: rest' :=
        (lookupRow_eq_some_iff h').1 (heq head.1 ▸ by simp [lookupRow])
      have hmem' : (head'.1, head'.2) ∈ head :: rest :=
        (lookupRow_eq_some_iff h).1 ((heq head'.1).symm ▸ by simp [lookupRow])
      have hheads : head = head' := by
        rcases List.mem_cons.1 hmem with hsame | hlater
        · exact hsame
        rcases List.mem_cons.1 hmem' with hsame | hlater'
        · exact hsame.symm
        have hlt := hhead' _ hlater
        have hgt := hhead _ hlater'
        have hself := Std.TransCmp.lt_trans hlt hgt
        simp at hself
      subst hheads
      refine congrArg _ (ih hrest hrest' fun key => ?_)
      by_cases hk : head.1 = key
      · have habsent : ∀ {tail : List (κ × α)}, RowsAscending tail →
            (∀ row ∈ tail, compare head.1 row.1 = .lt) → lookupRow key tail = none := by
          intro tail htail hlater
          cases hfound : lookupRow key tail with
          | none => rfl
          | some value =>
            have hlt := hlater _ ((lookupRow_eq_some_iff htail).1 hfound)
            simp [hk] at hlt
        rw [habsent hrest hhead, habsent hrest' hhead']
      · simpa [lookupRow, hk] using heq key

end Rows

/-- A finite map whose rows are listed by strictly ascending key. -/
structure Table (κ : Type u) (α : Type v) [Ord κ] where
  /-- The rows, one per key. -/
  rows : List (κ × α)
  /-- Each key is below the keys of all later rows. -/
  ascending : RowsAscending rows

namespace Table

variable {κ : Type u} {α : Type v} [Ord κ]

/-- The table without rows. -/
def empty : Table κ α := ⟨[], List.Pairwise.nil⟩

instance : Inhabited (Table κ α) := ⟨empty⟩

instance [DecidableEq κ] [DecidableEq α] : DecidableEq (Table κ α) := fun s t =>
  decidable_of_iff (s.rows = t.rows) ⟨fun h => by cases s; cases t; simp_all, fun h => h ▸ rfl⟩

/-- The keys, ascending. -/
def keys (t : Table κ α) : List κ := t.rows.map (·.1)

/-- The number of rows. -/
def size (t : Table κ α) : Nat := t.rows.length

/-- Stores a value under a key, in the place of an older one. -/
def insert [Std.TransOrd κ] [Std.LawfulEqOrd κ] (t : Table κ α) (key : κ) (value : α) :
    Table κ α :=
  ⟨insertRow key value t.rows, rowsAscending_insertRow key value t.ascending⟩

/-- The table of a list of rows; of two rows with one key the later wins. -/
def ofList [Std.TransOrd κ] [Std.LawfulEqOrd κ] (rows : List (κ × α)) : Table κ α :=
  rows.foldl (fun t row => t.insert row.1 row.2) empty

/-- Rewrites every value, given its key. -/
def mapValues (t : Table κ α) (change : κ → α → α) : Table κ α :=
  ⟨t.rows.map fun row => (row.1, change row.1 row.2),
    rowsAscending_map_value change t.ascending⟩

variable [DecidableEq κ]

/-- The value stored under a key. -/
def get? (t : Table κ α) (key : κ) : Option α := lookupRow key t.rows

/-- Whether a key has a row. -/
def contains (t : Table κ α) (key : κ) : Bool := (t.get? key).isSome

/-- Drops the row of a key. -/
def erase (t : Table κ α) (key : κ) : Table κ α :=
  ⟨t.rows.filter fun row => decide (row.1 ≠ key), rowsAscending_filter _ t.ascending⟩

/-- Rewrites the value of one key and leaves every other row alone. -/
def modify (t : Table κ α) (key : κ) (change : α → α) : Table κ α :=
  t.mapValues fun k value => if k = key then change value else value

@[simp] theorem get?_empty (key : κ) : (empty : Table κ α).get? key = none := rfl

theorem get?_insert [Std.TransOrd κ] [Std.LawfulEqOrd κ] (t : Table κ α) (key probe : κ)
    (value : α) :
    (t.insert key value).get? probe = if probe = key then some value else t.get? probe :=
  lookupRow_insertRow key probe value t.rows

theorem get?_erase (t : Table κ α) (key probe : κ) :
    (t.erase key).get? probe = if probe = key then none else t.get? probe :=
  lookupRow_filter_ne key probe t.rows

theorem get?_mapValues (t : Table κ α) (change : κ → α → α) (probe : κ) :
    (t.mapValues change).get? probe = (t.get? probe).map (change probe) :=
  lookupRow_map_value change probe t.rows

theorem get?_modify (t : Table κ α) (key probe : κ) (change : α → α) :
    (t.modify key change).get? probe =
      if probe = key then (t.get? probe).map change else t.get? probe := by
  by_cases h : probe = key <;> simp [modify, get?_mapValues, h]

theorem mem_rows_iff [Std.TransOrd κ] (t : Table κ α) (key : κ) (value : α) :
    (key, value) ∈ t.rows ↔ t.get? key = some value :=
  (lookupRow_eq_some_iff t.ascending).symm

/-- Tables with the same lookups are the same table. -/
theorem ext_get? [Std.TransOrd κ] {s t : Table κ α} (h : ∀ key, s.get? key = t.get? key) :
    s = t := by
  cases s with
  | mk rows hrows =>
    cases t with
    | mk others hothers =>
      have := rows_eq_of_lookupRow hrows hothers h
      subst this
      rfl

theorem mem_keys_iff [Std.TransOrd κ] (t : Table κ α) (key : κ) :
    key ∈ t.keys ↔ (t.get? key).isSome := by
  simp only [keys, List.mem_map, Option.isSome_iff_exists]
  constructor
  · rintro ⟨row, hrow, rfl⟩
    exact ⟨row.2, (t.mem_rows_iff _ _).1 hrow⟩
  · rintro ⟨value, hvalue⟩
    exact ⟨(key, value), (t.mem_rows_iff _ _).2 hvalue, rfl⟩

omit [DecidableEq κ] in
theorem keys_ascending (t : Table κ α) : t.keys.Pairwise fun a b => compare a b = .lt :=
  List.Pairwise.map _ (fun _ _ h => h) t.ascending

end Table

end Station
