import Station.Store

/-!
# Component tables that work

A table in memory works until a write breaks off. As long as it does, each of its calls succeeds and
answers from the rows. After that each of them fails, with one error for all reads and one for all
writes.
-/

namespace Station.ComponentTable

variable {α : Type} {t : ComponentTable α}

/-- A read of a table that works sees the rows. -/
theorem read_of_working {β : Type} (h : t.broken = false) (look : Table EntityUid α → β) :
    t.read look = .ok (look t.rows) := by
  rw [read, h]
  rfl

/-- A write to a table that works changes the rows and nothing else. -/
theorem write_of_working {β : Type} (h : t.broken = false)
    (change : Table EntityUid α → β × Table EntityUid α) :
    t.write change = .ok ((change t.rows).1, { t with rows := (change t.rows).2 }) := by
  rw [write, h]
  rfl

theorem get_of_working (h : t.broken = false) (uid : EntityUid) :
    t.get uid = .ok (t.rows.get? uid) :=
  read_of_working h _

theorem contains_of_working (h : t.broken = false) (uid : EntityUid) :
    t.contains uid = .ok (t.rows.contains uid) :=
  read_of_working h _

theorem entities_of_working (h : t.broken = false) : t.entities = .ok t.rows.keys :=
  read_of_working h _

theorem insert_of_working (h : t.broken = false) (uid : EntityUid) (component : α) :
    t.insert uid component =
      .ok (t.rows.get? uid, { t with rows := t.rows.insert uid component }) :=
  write_of_working h _

theorem remove_of_working (h : t.broken = false) (uid : EntityUid) :
    t.remove uid = .ok (t.rows.get? uid, { t with rows := t.rows.erase uid }) :=
  write_of_working h _

theorem update_of_working {β : Type} (h : t.broken = false) (uid : EntityUid)
    (change : α → β × α) :
    t.update uid change =
      .ok ((t.rows.get? uid).map fun component => (change component).1,
        { t with rows := t.rows.modify uid fun component => (change component).2 }) :=
  write_of_working h _

theorem require_of_working (h : t.broken = false) (uid : EntityUid) :
    ComponentStore.require t uid =
      match t.rows.get? uid with
      | some row => .ok row
      | none => .error (.notFound uid.text) := by
  have hget : ComponentStore.get t uid = .ok (t.rows.get? uid) := get_of_working h uid
  rw [ComponentStore.require, hget]
  cases t.rows.get? uid <;> rfl

theorem breakOff_of_working (h : t.broken = false) (uid : EntityUid) :
    t.breakOff uid = .ok (t.rows.contains uid, { t with broken := t.rows.contains uid }) := by
  rw [breakOff, h]
  rfl

/-- A read of a broken table fails. -/
theorem read_of_broken {β : Type} (h : t.broken = true) (look : Table EntityUid α → β) :
    t.read look = .error unreadable := by
  rw [read, h]
  rfl

/-- A write to a broken table fails. -/
theorem write_of_broken {β : Type} (h : t.broken = true)
    (change : Table EntityUid α → β × Table EntityUid α) : t.write change = .error unwritable := by
  rw [write, h]
  rfl

theorem get_of_broken (h : t.broken = true) (uid : EntityUid) : t.get uid = .error unreadable :=
  read_of_broken h _

theorem contains_of_broken (h : t.broken = true) (uid : EntityUid) :
    t.contains uid = .error unreadable :=
  read_of_broken h _

theorem remove_of_broken (h : t.broken = true) (uid : EntityUid) :
    t.remove uid = .error unwritable :=
  write_of_broken h _

end Station.ComponentTable
