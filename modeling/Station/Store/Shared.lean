import Station.Store

/-!
# Shared component tables

A component table can be handed to several parts of a program. Each of them holds a handle, and a
copy of a handle leads to the same table as the handle itself.
-/

namespace Station

/-- Component tables and handles of them, both in the order in which they came up. -/
structure SharedTables (α : Type) where
  /-- The tables, each at its place. -/
  tables : List (ComponentTable α) := []
  /-- For each handle the place of its table. -/
  leads : List Nat := []
  /-- Every handle leads to a table. -/
  leads_lt : ∀ place ∈ leads, place < tables.length := by simp

namespace SharedTables

variable {α : Type}

/-- Makes an empty table and a handle of it. -/
def make (s : SharedTables α) : SharedTables α where
  tables := s.tables ++ [{}]
  leads := s.leads ++ [s.tables.length]
  leads_lt := by
    intro place h
    rw [List.length_append, List.length_singleton]
    rcases List.mem_append.1 h with h | h
    · exact Nat.lt_succ_of_lt (s.leads_lt place h)
    · exact List.mem_singleton.1 h ▸ Nat.lt_succ_self _

/-- Makes a copy of a handle. -/
def copy (s : SharedTables α) (handle : Nat) : SharedTables α where
  tables := s.tables
  leads := s.leads ++ s.leads[handle]?.toList
  leads_lt := by
    intro place h
    rcases List.mem_append.1 h with h | h
    · exact s.leads_lt place h
    · exact s.leads_lt place (List.mem_of_getElem? (Option.mem_toList.1 h))

/-- The table at a place. Where none was made yet, it is the empty one that will be made. -/
def tableAt (s : SharedTables α) (place : Nat) : ComponentTable α := s.tables[place]?.getD {}

/-- Puts a table at a place, instead of the one that is there. -/
def put (s : SharedTables α) (place : Nat) (table : ComponentTable α) : SharedTables α where
  tables := s.tables.set place table
  leads := s.leads
  leads_lt := by
    rw [List.length_set]
    exact s.leads_lt

/-- Makes a call on the table that a handle leads to. A call that fails leaves all tables as they
were. Only a handle that was never made leads nowhere. -/
def call {β : Type} (s : SharedTables α) (handle : Nat)
    (run : ComponentTable α → Except StoreError (β × ComponentTable α)) :
    Option (Except StoreError β × SharedTables α) :=
  s.leads[handle]?.map fun place =>
    match run (s.tableAt place) with
    | .ok (answer, table) => (.ok answer, s.put place table)
    | .error error => (.error error, s)

end SharedTables

end Station
