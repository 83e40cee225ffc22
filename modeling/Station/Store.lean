import Station.Entity
import Station.Table

/-!
# Component stores

A component store attaches at most one component of one type to each entity. `ComponentStore` is
the interface that the rules of this library are written against; any of its calls may fail, and a
call that fails leaves its own store as it was, because a failing call returns no store.

`ComponentTable` is the store in memory. It works until a write breaks off in the middle
(`ComponentTable.breakOff`); from then on every call fails.
-/

namespace Station

/-- Why a call on a store failed. -/
inductive StoreError where
  /-- There is no record under the id. -/
  | notFound (id : String)
  /-- The store itself does not work. -/
  | persistence (message : String)
  deriving DecidableEq, Repr, Inhabited

/-- The text of a store error. -/
def StoreError.message : StoreError → String
  | .notFound id => "Record not found: " ++ id
  | .persistence message => "Persistence error: " ++ message

/-- A store of components of type `α`, one per entity, whose calls may fail. -/
class ComponentStore (σ : Type) (α : outParam Type) where
  /-- Attaches a component and returns the one it replaced. -/
  insert : σ → EntityUid → α → Except StoreError (Option α × σ)
  /-- The component of an entity. -/
  get : σ → EntityUid → Except StoreError (Option α)
  /-- Changes the component of an entity in place; `none` if it has none. -/
  update : {β : Type} → σ → EntityUid → (α → β × α) → Except StoreError (Option β × σ)
  /-- Detaches a component and returns it. -/
  remove : σ → EntityUid → Except StoreError (Option α × σ)
  /-- The entities that have the component, in ascending order. -/
  entities : σ → Except StoreError (List EntityUid)
  /-- Whether an entity has the component. -/
  contains : σ → EntityUid → Except StoreError Bool := fun store uid =>
    (get store uid).map Option.isSome
  /-- How many entities have the component. -/
  count : σ → Except StoreError Nat := fun store => (entities store).map List.length

/-- The component of an entity, or the error that names the entity by its decimal id. -/
def ComponentStore.require {σ α : Type} [ComponentStore σ α] (store : σ) (uid : EntityUid) :
    Except StoreError α := do
  match ← ComponentStore.get store uid with
  | some component => .ok component
  | none => .error (.notFound uid.text)

/-- A component store in memory. -/
structure ComponentTable (α : Type) where
  /-- The components, by ascending entity. -/
  rows : Table EntityUid α := .empty
  /-- Whether a write broke off in the middle. -/
  broken : Bool := false

namespace ComponentTable

variable {α : Type}

instance : Inhabited (ComponentTable α) := ⟨{}⟩

/-- What a read of a broken table answers. -/
def unreadable : StoreError := .persistence "Failed to acquire read lock"

/-- What a write to a broken table answers. -/
def unwritable : StoreError := .persistence "Failed to acquire write lock"

/-- A read, which fails once the table is broken. -/
def read {β : Type} (t : ComponentTable α) (look : Table EntityUid α → β) : Except StoreError β :=
  if t.broken then .error unreadable else .ok (look t.rows)

/-- A write, which fails once the table is broken. -/
def write {β : Type} (t : ComponentTable α) (change : Table EntityUid α → β × Table EntityUid α) :
    Except StoreError (β × ComponentTable α) :=
  if t.broken then .error unwritable
  else
    let (answer, rows) := change t.rows
    .ok (answer, { t with rows })

/-- Attaches a component and returns the one it replaced. -/
def insert (t : ComponentTable α) (uid : EntityUid) (component : α) :
    Except StoreError (Option α × ComponentTable α) :=
  t.write fun rows => (rows.get? uid, rows.insert uid component)

/-- The component of an entity. -/
def get (t : ComponentTable α) (uid : EntityUid) : Except StoreError (Option α) :=
  t.read fun rows => rows.get? uid

/-- Changes the component of an entity in place; `none` if it has none. -/
def update {β : Type} (t : ComponentTable α) (uid : EntityUid) (change : α → β × α) :
    Except StoreError (Option β × ComponentTable α) :=
  t.write fun rows =>
    ((rows.get? uid).map fun component => (change component).1,
      rows.modify uid fun component => (change component).2)

/-- Detaches a component and returns it. -/
def remove (t : ComponentTable α) (uid : EntityUid) :
    Except StoreError (Option α × ComponentTable α) :=
  t.write fun rows => (rows.get? uid, rows.erase uid)

/-- The entities that have a row, in ascending order. -/
def entities (t : ComponentTable α) : Except StoreError (List EntityUid) :=
  t.read Table.keys

/-- Whether an entity has a row. -/
def contains (t : ComponentTable α) (uid : EntityUid) : Except StoreError Bool :=
  t.read fun rows => rows.contains uid

/-- The number of rows. -/
def count (t : ComponentTable α) : Except StoreError Nat :=
  t.read Table.size

instance : ComponentStore (ComponentTable α) α where
  insert := insert
  get := get
  update := update
  remove := remove
  entities := entities
  contains := contains
  count := count

/-- Lets a change of an entity's row break off in the middle, which breaks the table. Without such
a row nothing starts and nothing breaks. Answers whether there was a row. -/
def breakOff (t : ComponentTable α) (uid : EntityUid) :
    Except StoreError (Bool × ComponentTable α) :=
  if t.broken then .error unwritable
  else .ok (t.rows.contains uid, { t with broken := t.rows.contains uid })

end ComponentTable

end Station
