import Mathlib.Data.List.Induction
import Mathlib.Logic.Function.Basic
import Station.Felinid
import Station.Proofs.Store
import Station.Proofs.Table
import Station.Store.Shared

/-!
# A shared table is one finite map

`TableCall` are the calls on a component table, each with the type of its answer. For a finite map
of rows, `TableCall.Answers` says what each of them has to answer and `TableCall.change?` what it
makes of the map. A table that works does just this (`ComponentTable.Shows.answers`,
`ComponentTable.Shows.leaves`), until a function that changes a row breaks off in the middle. From
then on the table is broken, and every call on it fails and changes nothing
(`TableCall.run_of_broken`).

Whichever handles the calls come through, a table sees the calls through the handles that lead to
it, in order, and no others (`SharedTables.tableAt_after`). So the handles of one table share one
map.
-/

namespace Station

/-- Rows by their entity. -/
abbrev RowMap (α : Type) := EntityUid → Option α

/-- A call on a component table that answers with some type. -/
inductive TableCall (α : Type) : Type → Type 1 where
  /-- Attaches a component. -/
  | insert (uid : EntityUid) (component : α) : TableCall α (Option α)
  /-- Changes a component by a function that returns. -/
  | update {β : Type} (uid : EntityUid) (change : α → β × α) : TableCall α (Option β)
  /-- Changes a component by a function that breaks off in the middle. -/
  | breakOff (uid : EntityUid) : TableCall α Bool
  /-- Detaches a component. -/
  | remove (uid : EntityUid) : TableCall α (Option α)
  /-- Asks for a component. -/
  | get (uid : EntityUid) : TableCall α (Option α)
  /-- Asks for a component that has to be there. -/
  | require (uid : EntityUid) : TableCall α α
  /-- Asks for the entities. -/
  | entities : TableCall α (List EntityUid)
  /-- Asks whether an entity has a component. -/
  | contains (uid : EntityUid) : TableCall α Bool
  /-- Asks for the number of rows. -/
  | count : TableCall α Nat

namespace TableCall

variable {α β : Type}

/-- Makes a call. -/
def run : TableCall α β → ComponentTable α → Except StoreError (β × ComponentTable α)
  | .insert uid component, t => t.insert uid component
  | .update uid change, t => t.update uid change
  | .breakOff uid, t => t.breakOff uid
  | .remove uid, t => t.remove uid
  | .get uid, t => (t.get uid).map (·, t)
  | .require uid, t => (ComponentStore.require t uid).map (·, t)
  | .entities, t => t.entities.map (·, t)
  | .contains uid, t => (t.contains uid).map (·, t)
  | .count, t => t.count.map (·, t)

/-- The table after a call: if the call fails, the one of before. -/
def leaves (c : TableCall α β) (t : ComponentTable α) : ComponentTable α :=
  match c.run t with
  | .ok (_, table) => table
  | .error _ => t

/-- How a call fails on a broken table. -/
def failure : TableCall α β → StoreError
  | .insert .. | .update .. | .breakOff _ | .remove _ => ComponentTable.unwritable
  | .get _ | .require _ | .entities | .contains _ | .count => ComponentTable.unreadable

/-- What a map of rows answers to a call. -/
def Answers (m : RowMap α) : {β : Type} → TableCall α β → Except StoreError β → Prop
  | _, .insert uid _, answer => answer = .ok (m uid)
  | _, .update uid change, answer => answer = .ok ((m uid).map fun row => (change row).1)
  | _, .breakOff uid, answer => answer = .ok (m uid).isSome
  | _, .remove uid, answer => answer = .ok (m uid)
  | _, .get uid, answer => answer = .ok (m uid)
  | _, .require uid, answer =>
    answer = match m uid with
      | some row => .ok row
      | none => .error (.notFound (toString uid.raw.toNat))
  | _, .entities, answer => ∃ uids, answer = .ok uids ∧
    uids.Pairwise (fun a b => a.raw < b.raw) ∧ ∀ uid, uid ∈ uids ↔ (m uid).isSome = true
  | _, .contains uid, answer => answer = .ok (m uid).isSome
  | _, .count, answer => answer = .ok {uid | (m uid).isSome = true}.ncard

/-- What a call makes of a map of rows. No map is left once a change of a row breaks off. -/
def change? (m : RowMap α) : TableCall α β → Option (RowMap α)
  | .insert uid component => some (Function.update m uid (some component))
  | .update uid change => some (Function.update m uid ((m uid).map fun row => (change row).2))
  | .breakOff uid => if (m uid).isSome then none else some m
  | .remove uid => some (Function.update m uid none)
  | .get _ | .require _ | .entities | .contains _ | .count => some m

/-- The entity whose row a call may change. -/
def uid? : TableCall α β → Option EntityUid
  | .insert uid _ | .update uid _ | .breakOff uid | .remove uid => some uid
  | .get _ | .require _ | .entities | .contains _ | .count => none

/-- The map of rows after some calls on an empty table. -/
def mapAfter (calls : List (Σ β, TableCall α β)) : Option (RowMap α) :=
  calls.foldlM (fun m c => c.2.change? m) fun _ => none

end TableCall

namespace ComponentTable

variable {α β : Type} {t : ComponentTable α} {m : RowMap α}

/-- The store with the methods that every store has unless it brings its own. -/
@[reducible] def byDefault : ComponentStore (ComponentTable α) α where
  insert := insert
  get := get
  update := update
  remove := remove
  entities := entities

/-- The table after some calls. -/
def after (t : ComponentTable α) (calls : List (Σ β, TableCall α β)) : ComponentTable α :=
  calls.foldl (fun t c => c.2.leaves t) t

/-- A table that works and holds the rows of a map. -/
structure Shows (t : ComponentTable α) (m : RowMap α) : Prop where
  working : t.broken = false
  get?_eq : ∀ uid, t.rows.get? uid = m uid

/-- A table holds the rows of a map as long as there is one, and otherwise it is broken. -/
def Models (t : ComponentTable α) : Option (RowMap α) → Prop
  | some m => t.Shows m
  | none => t.broken = true

/-! ## Calls on one table -/

theorem contains_eq_byDefault (t : ComponentTable α) (uid : EntityUid) :
    t.contains uid = byDefault.contains t uid := by
  show t.read _ = (t.read _).map Option.isSome
  cases h : t.broken with
  | true => rw [read_of_broken h, read_of_broken h, Except.map]
  | false => rw [read_of_working h, read_of_working h, Except.map, Table.contains]

theorem count_eq_byDefault (t : ComponentTable α) : t.count = byDefault.count t := by
  show t.read _ = (t.read _).map List.length
  cases h : t.broken with
  | true => rw [read_of_broken h, read_of_broken h, Except.map]
  | false =>
    rw [read_of_working h, read_of_working h, Except.map, Table.keys, List.length_map, Table.size]

end ComponentTable

namespace TableCall

variable {α β : Type} {t : ComponentTable α} {m : RowMap α}

theorem mapAfter_concat (calls : List (Σ β, TableCall α β)) (c : Σ β, TableCall α β) :
    mapAfter (calls ++ [c]) = (mapAfter calls).bind fun m => c.2.change? m := by
  rw [mapAfter, List.foldlM_append]
  simp only [List.foldlM_cons, List.foldlM_nil, bind_pure]
  rfl

/-- A call that asks for something changes nothing, whether it fails or not. -/
theorem leaves_of_uid?_eq_none {c : TableCall α β} (h : c.uid? = none) (t : ComponentTable α) :
    c.leaves t = t := by
  -- a read answers beside the table it was given, so a failure of it leaves nothing to put back
  have hread : ∀ {γ : Type} (read : Except StoreError γ),
      (match read.map (·, t) with
        | .ok (_, table) => table
        | .error _ => t) = t := by
    intro γ read
    cases read <;> rfl
  cases c with
  | insert | update | breakOff | remove => cases h
  | get | require | entities | contains | count => exact hread _

/-- No call changes the row of an entity that it does not name. -/
theorem apply_of_change?_eq_some {c : TableCall α β} {next : RowMap α} {uid : EntityUid}
    (h : c.change? m = some next) (hother : c.uid? ≠ some uid) : next uid = m uid := by
  have hne : ∀ changed, some changed ≠ some uid → uid ≠ changed := by
    rintro changed hchanged rfl
    exact hchanged rfl
  cases c with
  | insert changed component =>
    cases h
    exact Function.update_of_ne (hne changed hother) ..
  | update changed change =>
    cases h
    exact Function.update_of_ne (hne changed hother) ..
  | breakOff changed =>
    rw [change?] at h
    split at h <;> cases h
    rfl
  | remove changed =>
    cases h
    exact Function.update_of_ne (hne changed hother) ..
  | get | require | entities | contains | count =>
    cases h
    rfl

/-- Every call on a broken table fails. -/
theorem run_of_broken (h : t.broken = true) (c : TableCall α β) : c.run t = .error c.failure := by
  cases c with
  | insert uid component =>
    rw [run, ComponentTable.insert, ComponentTable.write_of_broken h]
    rfl
  | update uid change =>
    rw [run, ComponentTable.update, ComponentTable.write_of_broken h]
    rfl
  | breakOff uid =>
    rw [run, ComponentTable.breakOff, h]
    rfl
  | remove uid =>
    rw [run, ComponentTable.remove, ComponentTable.write_of_broken h]
    rfl
  | get uid =>
    rw [run, ComponentTable.get_of_broken h]
    rfl
  | require uid =>
    have hget : ComponentStore.get t uid = .error ComponentTable.unreadable :=
      ComponentTable.get_of_broken h uid
    rw [run, ComponentStore.require, hget]
    rfl
  | entities =>
    rw [run, ComponentTable.entities, ComponentTable.read_of_broken h]
    rfl
  | contains uid =>
    rw [run, ComponentTable.contains_of_broken h]
    rfl
  | count =>
    rw [run, ComponentTable.count, ComponentTable.read_of_broken h]
    rfl

end TableCall

namespace ComponentTable

variable {α β : Type} {t : ComponentTable α} {m : RowMap α}

namespace Shows

theorem contains_eq (h : t.Shows m) (uid : EntityUid) : t.rows.contains uid = (m uid).isSome := by
  rw [Table.contains, h.get?_eq]

theorem finite (h : t.Shows m) : {uid | (m uid).isSome = true}.Finite := by
  have hfinite := t.rows.finite_contains
  simp only [h.contains_eq] at hfinite
  exact hfinite

/-- A table that works is determined by its map. -/
theorem unique {other : ComponentTable α} (h : t.Shows m) (hother : other.Shows m) : t = other := by
  have hrows : t.rows = other.rows :=
    Table.ext_get? fun uid => (h.get?_eq uid).trans (hother.get?_eq uid).symm
  cases t
  cases other
  rw [ComponentTable.mk.injEq]
  exact ⟨hrows, h.working.trans hother.working.symm⟩

/-- A table that works answers from its map. -/
theorem answers (h : t.Shows m) (c : TableCall α β) : c.Answers m ((c.run t).map (·.1)) := by
  cases c with
  | insert uid component =>
    rw [TableCall.run, insert_of_working h.working, TableCall.Answers, ← h.get?_eq]
    rfl
  | update uid change =>
    rw [TableCall.run, update_of_working h.working, TableCall.Answers, ← h.get?_eq]
    rfl
  | breakOff uid =>
    rw [TableCall.run, breakOff_of_working h.working, TableCall.Answers, ← h.contains_eq]
    rfl
  | remove uid =>
    rw [TableCall.run, remove_of_working h.working, TableCall.Answers, ← h.get?_eq]
    rfl
  | get uid =>
    rw [TableCall.run, get_of_working h.working, TableCall.Answers, ← h.get?_eq]
    rfl
  | require uid =>
    rw [TableCall.run, require_of_working h.working, TableCall.Answers, h.get?_eq]
    cases m uid <;> rfl
  | entities =>
    rw [TableCall.run, entities_of_working h.working, TableCall.Answers]
    refine ⟨t.rows.keys, rfl, ?_, fun uid => ?_⟩
    · exact t.rows.keys_ascending.imp EntityUid.compare_eq_lt_iff.1
    · rw [Table.mem_keys_iff, h.get?_eq]
  | contains uid =>
    rw [TableCall.run, contains_of_working h.working, TableCall.Answers, ← h.contains_eq]
    rfl
  | count =>
    rw [TableCall.run, count, read_of_working h.working, TableCall.Answers]
    simp only [← h.contains_eq, ← Table.size_eq_ncard]
    rfl

/-- A table that works follows its map, or breaks where no map is left. -/
theorem leaves (h : t.Shows m) (c : TableCall α β) : (c.leaves t).Models (c.change? m) := by
  cases c with
  | insert uid component =>
    rw [TableCall.leaves, TableCall.run, insert_of_working h.working, TableCall.change?]
    refine ⟨h.working, fun probe => ?_⟩
    rw [Table.get?_insert, Function.update_apply, h.get?_eq]
  | update uid change =>
    rw [TableCall.leaves, TableCall.run, update_of_working h.working, TableCall.change?]
    refine ⟨h.working, fun probe => ?_⟩
    rw [Table.get?_modify, Function.update_apply, h.get?_eq]
    split
    · rename_i heq
      rw [heq]
    · rfl
  | breakOff uid =>
    rw [TableCall.leaves, TableCall.run, breakOff_of_working h.working, TableCall.change?,
      h.contains_eq]
    cases hrow : (m uid).isSome with
    | true => rfl
    | false => exact ⟨rfl, h.get?_eq⟩
  | remove uid =>
    rw [TableCall.leaves, TableCall.run, remove_of_working h.working, TableCall.change?]
    refine ⟨h.working, fun probe => ?_⟩
    rw [Table.get?_erase, Function.update_apply, h.get?_eq]
  | get | require | entities | contains | count =>
    rw [TableCall.leaves_of_uid?_eq_none rfl]
    exact h

/-- A call that leaves the map as it is leaves the table as it is. -/
theorem leaves_eq_self (h : t.Shows m) {c : TableCall α β} (hsame : c.change? m = some m) :
    c.leaves t = t := by
  have hmodels := h.leaves c
  rw [hsame] at hmodels
  exact unique hmodels h

/-- An update of a missing row answers that it is missing and leaves the table as it is. -/
theorem update_of_missing (h : t.Shows m) {uid : EntityUid} (hmissing : m uid = none)
    (change : α → β × α) :
    ((TableCall.update uid change).run t).map (·.1) = .ok none ∧
      (TableCall.update uid change).leaves t = t := by
  have hanswer := h.answers (.update uid change)
  rw [TableCall.Answers, hmissing, Option.map_none] at hanswer
  refine ⟨hanswer, h.leaves_eq_self ?_⟩
  rw [TableCall.change?, hmissing, Option.map_none, ← hmissing, Function.update_eq_self]

end Shows

theorem Models.leaves {found : Option (RowMap α)} (h : t.Models found) (c : TableCall α β) :
    (c.leaves t).Models (found.bind fun m => c.change? m) := by
  cases found with
  | some m => exact Shows.leaves h c
  | none =>
    rw [TableCall.leaves, TableCall.run_of_broken h]
    exact h

theorem after_append (t : ComponentTable α) (calls later : List (Σ β, TableCall α β)) :
    t.after (calls ++ later) = (t.after calls).after later :=
  List.foldl_append

/-- After every history of calls a table holds the map that the calls make, unless one of them has
broken it. -/
theorem models_after (calls : List (Σ β, TableCall α β)) :
    (({} : ComponentTable α).after calls).Models (TableCall.mapAfter calls) := by
  -- along the history, as the map of a longer one comes from the map before its last call
  induction calls using List.reverseRecOn with
  | nil => exact ⟨rfl, fun uid => rfl⟩
  | append_singleton calls c ih =>
    rw [after_append, TableCall.mapAfter_concat]
    exact ih.leaves c.2

end ComponentTable

/-! ## Calls through handles -/

/-- What the holders of component tables do. -/
inductive TableAct (α : Type) : Type 1 where
  /-- Make a table. -/
  | make
  /-- Copy a handle. -/
  | copy (handle : Nat)
  /-- Make a call through a handle. -/
  | call {β : Type} (handle : Nat) (c : TableCall α β)

namespace SharedTables

variable {α β : Type} {s : SharedTables α} {handle place : Nat}

/-- The tables after an act. -/
def act (s : SharedTables α) : TableAct α → SharedTables α
  | .make => s.make
  | .copy handle => s.copy handle
  | .call handle c => ((s.call handle c.run).map (·.2)).getD s

/-- The tables after some acts. -/
def after (s : SharedTables α) (acts : List (TableAct α)) : SharedTables α := acts.foldl act s

/-- The call that an act makes on the table at a place, if it makes one. -/
def callTo (place : Nat) (s : SharedTables α) : TableAct α → List (Σ β, TableCall α β)
  | .make | .copy _ => []
  | .call handle c => if s.leads[handle]? = some place then [⟨_, c⟩] else []

/-- The calls that some acts make on the table at a place, through all handles that lead there. -/
def callsTo (place : Nat) : SharedTables α → List (TableAct α) → List (Σ β, TableCall α β)
  | _, [] => []
  | s, a :: rest => s.callTo place a ++ callsTo place (s.act a) rest

theorem callsTo_append (place : Nat) (s : SharedTables α) (acts later : List (TableAct α)) :
    s.callsTo place (acts ++ later) =
      s.callsTo place acts ++ (s.after acts).callsTo place later := by
  induction acts generalizing s with
  | nil => rfl
  | cons a acts ih =>
    rw [List.cons_append, callsTo, ih, callsTo, List.append_assoc]
    rfl

theorem tableAt_put (s : SharedTables α) {place : Nat} (h : place < s.tables.length) (probe : Nat)
    (table : ComponentTable α) :
    (s.put place table).tableAt probe = if probe = place then table else s.tableAt probe := by
  rw [tableAt, put, List.getElem?_set]
  by_cases heq : place = probe
  · rw [if_pos heq, if_pos h, if_pos heq.symm, Option.getD_some]
  · rw [if_neg heq, if_neg (Ne.symm heq), tableAt]

theorem put_tableAt (s : SharedTables α) (place : Nat) : s.put place (s.tableAt place) = s := by
  have hset : s.tables.set place (s.tableAt place) = s.tables := by
    refine List.ext_getElem? fun probe => ?_
    rw [List.getElem?_set]
    split
    · rename_i heq
      subst heq
      split
      · rename_i hlt
        rw [tableAt, List.getElem?_eq_getElem hlt, Option.getD_some]
      · rename_i hlt
        exact (List.getElem?_eq_none (Nat.le_of_not_lt hlt)).symm
    · rfl
  simp only [put, hset]

/-- A new table is empty. -/
theorem tableAt_make (s : SharedTables α) (place : Nat) :
    s.make.tableAt place = s.tableAt place := by
  rw [tableAt, make, tableAt, List.getElem?_append]
  split
  · rfl
  · rename_i hlt
    rw [List.getElem?_eq_none (Nat.le_of_not_lt hlt)]
    -- past the last table there is none yet, and the new one is as empty as none
    cases hindex : place - s.tables.length with
    | zero => rfl
    | succ index => rfl

/-- A call changes the table that its handle leads to as it would change it without handles. -/
theorem call_of_leads (h : s.leads[handle]? = some place) (c : TableCall α β) :
    s.call handle c.run =
      some ((c.run (s.tableAt place)).map (·.1), s.put place (c.leaves (s.tableAt place))) := by
  rw [call, h, Option.map_some, TableCall.leaves]
  cases c.run (s.tableAt place) with
  | ok done => rfl
  | error error => rw [put_tableAt, Except.map]

theorem act_of_leads (h : s.leads[handle]? = some place) (c : TableCall α β) :
    s.act (.call handle c) = s.put place (c.leaves (s.tableAt place)) := by
  rw [act, call_of_leads h]
  rfl

/-- A table sees the calls through the handles that lead to it, and nothing else. -/
theorem tableAt_act (s : SharedTables α) (place : Nat) (a : TableAct α) :
    (s.act a).tableAt place = (s.tableAt place).after (s.callTo place a) := by
  cases a with
  | make => exact s.tableAt_make place
  | copy handle => rfl
  | call handle c =>
    cases hlead : s.leads[handle]? with
    | none => simp [act, call, callTo, hlead, ComponentTable.after]
    | some taken =>
      have hlt : taken < s.tables.length := s.leads_lt taken (List.mem_of_getElem? hlead)
      rw [act_of_leads hlead, tableAt_put s hlt, callTo, hlead]
      -- a call through a handle of another table is no call on this one
      by_cases heq : place = taken
      · rw [if_pos heq, if_pos (congrArg some heq.symm), heq]
        rfl
      · rw [if_neg heq, if_neg fun hsome => heq (Option.some.inj hsome).symm]
        rfl

theorem tableAt_after (s : SharedTables α) (place : Nat) (acts : List (TableAct α)) :
    (s.after acts).tableAt place = (s.tableAt place).after (s.callsTo place acts) := by
  induction acts generalizing s with
  | nil => rfl
  | cons a acts ih =>
    rw [callsTo, ComponentTable.after_append, ← tableAt_act, ← ih]
    rfl

/-- A later call belongs to a table exactly if it comes through one of its handles. -/
theorem callsTo_call (s : SharedTables α) (acts : List (TableAct α)) (c : TableCall α β) :
    s.callsTo place (acts ++ [.call handle c]) =
      if (s.after acts).leads[handle]? = some place then s.callsTo place acts ++ [⟨β, c⟩]
      else s.callsTo place acts := by
  rw [callsTo_append, callsTo, callsTo, List.append_nil, callTo]
  split
  · rfl
  · exact List.append_nil _

/-- A copy leads to the table of the handle that was copied. -/
theorem leads_copy (h : s.leads[handle]? = some place) :
    (s.copy handle).leads[s.leads.length]? = some place := by
  simp only [copy, h, Option.toList_some, List.getElem?_concat_length]

/-- All handles of a table, copied from each other in any order, share one finite map of rows, that
of the calls made through any of them: calls through other handles make no difference to it. As long
as no function has broken off in the middle of a row, every call has the answer of this map, a call
that leaves the map as it is leaves all tables as they are, an update of a missing row among them,
and no call changes a row that it does not name. Once one has broken off, every call fails, with one
error for all reads and one for all writes, and changes nothing. Whatever has happened, the table
itself counts and looks up as any store does by default. -/
theorem handles_share_one_map (acts : List (TableAct α))
    (h : (({} : SharedTables α).after acts).leads[handle]? = some place) :
    let s := ({} : SharedTables α).after acts
    let calls := ({} : SharedTables α).callsTo place acts
    let t := s.tableAt place
    (∀ m, TableCall.mapAfter calls = some m →
      {uid | (m uid).isSome = true}.Finite ∧
        (∀ {β : Type} (c : TableCall α β), ∃ answer,
          s.call handle c.run = some (answer, s.act (.call handle c)) ∧ c.Answers m answer ∧
            (c.change? m = some m → s.act (.call handle c) = s) ∧
            ∀ next, c.change? m = some next → ∀ uid, c.uid? ≠ some uid → next uid = m uid) ∧
        ∀ {β : Type} (uid : EntityUid) (change : α → β × α), m uid = none →
          s.call handle (TableCall.update uid change).run = some (.ok none, s)) ∧
      (TableCall.mapAfter calls = none → ∀ {β : Type} (c : TableCall α β),
        s.call handle c.run = some (.error c.failure, s)) ∧
      (∀ uid, t.contains uid = ComponentTable.byDefault.contains t uid) ∧
      t.count = ComponentTable.byDefault.count t ∧
      (∀ (other : Nat) {β : Type} (c : TableCall α β),
        ({} : SharedTables α).callsTo place (acts ++ [.call other c]) =
          if s.leads[other]? = some place then calls ++ [⟨β, c⟩] else calls) ∧
      (s.copy handle).leads[s.leads.length]? = some place := by
  intro s calls t
  have htable : t.Models (TableCall.mapAfter calls) := by
    show (s.tableAt place).Models _
    rw [tableAt_after]
    exact ComponentTable.models_after calls
  have hcall : ∀ {β : Type} (c : TableCall α β),
      s.call handle c.run = some ((c.run t).map (·.1), s.put place (c.leaves t)) :=
    fun c => call_of_leads h c
  have hput : s.put place t = s := s.put_tableAt place
  refine ⟨fun m hm => ?_, fun hbroken => ?_, t.contains_eq_byDefault, t.count_eq_byDefault,
    fun other _ c => callsTo_call {} acts c, leads_copy h⟩
  · rw [hm] at htable
    have hshows : t.Shows m := htable
    refine ⟨hshows.finite, fun c => ?_, fun uid change hmissing => ?_⟩
    · have hact : s.act (.call handle c) = s.put place (c.leaves t) := act_of_leads h c
      refine ⟨(c.run t).map (·.1), ?_, hshows.answers c, fun hsame => ?_, fun next hnext uid => ?_⟩
      · rw [hcall, hact]
      · rw [hact, hshows.leaves_eq_self hsame, hput]
      · exact TableCall.apply_of_change?_eq_some hnext
    · obtain ⟨hanswer, hsame⟩ := hshows.update_of_missing hmissing change
      rw [hcall, hanswer, hsame, hput]
  · rw [hbroken] at htable
    intro β c
    have hrun : c.run t = .error c.failure := TableCall.run_of_broken htable c
    rw [hcall, TableCall.leaves, hrun, hput]
    rfl

/-- A table that two hands share, and one that breaks. -/
def errands : List (TableAct Felinid) :=
  [.make, .copy 0, .call 0 (.insert ⟨3⟩ {}), .make, .call 2 (.insert ⟨3⟩ {}),
    .call 2 (.breakOff ⟨3⟩), .call 1 (.update ⟨3⟩ (Felinid.bindAction ⟨9⟩))]

theorem handles_share_one_map_errands :
    let s := ({} : SharedTables Felinid).after errands
    s.leads = [0, 0, 1] ∧
      (s.call 0 (TableCall.get ⟨3⟩).run).map (·.1) =
        some (.ok (some { actionEntity := some ⟨9⟩ })) ∧
      (s.call 0 (TableCall.require ⟨4⟩).run).map (·.1) = some (.error (.notFound "4")) ∧
      s.call 0 (TableCall.update ⟨4⟩ (Felinid.bindAction ⟨9⟩)).run = some (.ok none, s) ∧
      s.call 2 (TableCall.insert ⟨3⟩ {}).run = some (.error ComponentTable.unwritable, s) := by
  intro s
  have hfirst : s.leads[0]? = some 0 := rfl
  have hthird : s.leads[2]? = some 1 := rfl
  obtain ⟨hworks, -⟩ := handles_share_one_map errands hfirst
  obtain ⟨-, hfails, -⟩ := handles_share_one_map errands hthird
  obtain ⟨-, hcalls, hmissing⟩ := hworks _ rfl
  obtain ⟨found, hget, hfound, -⟩ := hcalls (.get ⟨3⟩)
  obtain ⟨refused, hrequire, hrefused, -⟩ := hcalls (.require ⟨4⟩)
  refine ⟨rfl, ?_, ?_, hmissing ⟨4⟩ _ rfl, hfails rfl _⟩
  · exact (congrArg (Option.map Prod.fst) hget).trans (congrArg some hfound)
  · exact (congrArg (Option.map Prod.fst) hrequire).trans (congrArg some hrefused)

/-- There is no map from which a broken table answers. -/
theorem broken_table_answers_from_no_map :
    let s := ({} : SharedTables Felinid).after
      [.make, .call 0 (.insert ⟨1⟩ {}), .call 0 (.breakOff ⟨1⟩)]
    let answer := (s.call 0 (TableCall.require ⟨1⟩).run).map (·.1)
    answer = some (.error (.persistence "Failed to acquire read lock")) ∧
      ¬ ∃ m : RowMap Felinid, ∃ answered, answer = some answered ∧
        (TableCall.require ⟨1⟩).Answers m answered := by
  intro s answer
  have hanswer : answer = some (.error (.persistence "Failed to acquire read lock")) := rfl
  refine ⟨hanswer, ?_⟩
  rintro ⟨m, answered, hanswered, hfrom⟩
  obtain rfl : .error (.persistence "Failed to acquire read lock") = answered :=
    Option.some.inj (hanswer.symm.trans hanswered)
  rw [TableCall.Answers] at hfrom
  cases hrow : m ⟨1⟩ with
  | some row => simp [hrow] at hfrom
  | none => simp [hrow] at hfrom

end SharedTables

end Station
