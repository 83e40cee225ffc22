import Station.Store

/-!
# Carrying

One entity may carry another. Each side of a carry is a component of its own entity and lies in a
store of its own: `Carrying` on the carrier, `BeingCarried` on the carried. `CarryTables.begin?`
starts a carry and `CarryTables.release` ends one.

Both are written against any two component stores. Their calls may fail, so a result always comes
with the tables as they were left, and a drop that was raised comes with the tables that its
subscribers see.
-/

namespace Station

/-- The component of an entity that carries another. -/
structure Carrying where
  /-- What it carries. -/
  carried : EntityUid
  deriving DecidableEq, Repr, Inhabited

/-- The component of an entity that is being carried. -/
structure BeingCarried where
  /-- Who carries it. -/
  carrier : EntityUid
  deriving DecidableEq, Repr, Inhabited

/-- Why a carry did not start. -/
inductive CarryError where
  /-- An entity cannot carry itself. -/
  | selfCarry (uid : EntityUid)
  /-- The carrier carries something already. -/
  | alreadyCarrying (carrier : EntityUid)
  /-- The other entity is being carried already. -/
  | alreadyCarried (carried : EntityUid)
  /-- A store failed. -/
  | store (error : StoreError)
  deriving DecidableEq, Repr, Inhabited

/-- The text of a carry error. -/
def CarryError.message : CarryError → String
  | .selfCarry uid => "Entity " ++ uid.text ++ " cannot carry itself"
  | .alreadyCarrying carrier => "Entity " ++ carrier.text ++ " is already carrying something"
  | .alreadyCarried carried => "Entity " ++ carried.text ++ " is already being carried"
  | .store error => error.message

/-- The two stores that hold the carries. -/
structure CarryTables (γ β : Type) where
  /-- What each carrier carries. -/
  carrying : γ
  /-- Who carries each carried entity. -/
  beingCarried : β
  deriving Inhabited

/-- A carry that ended: the entity that was dropped and the tables at that moment. -/
structure Drop (γ β : Type) where
  /-- The entity that was carried. -/
  uid : EntityUid
  /-- The tables that a subscriber of the drop sees. -/
  tables : CarryTables γ β

/-- What ending a carry answers. -/
structure Release (γ β : Type) where
  /-- Whether a carry was ended, or the failure of a store. -/
  answer : Except StoreError Bool
  /-- The tables as they were left. -/
  tables : CarryTables γ β
  /-- The drops that were raised, in order. -/
  drops : List (Drop γ β) := []

namespace CarryTables

variable {γ β : Type} [ComponentStore γ Carrying] [ComponentStore β BeingCarried]

/-- Starts a carry between two entities. The carrier's side is written first. -/
def begin? (t : CarryTables γ β) (carrier carried : EntityUid) :
    Except CarryError Unit × CarryTables γ β :=
  if carrier = carried then (.error (.selfCarry carrier), t)
  else
    match ComponentStore.contains t.carrying carrier with
    | .error e => (.error (.store e), t)
    | .ok true => (.error (.alreadyCarrying carrier), t)
    | .ok false =>
      match ComponentStore.contains t.beingCarried carried with
      | .error e => (.error (.store e), t)
      | .ok true => (.error (.alreadyCarried carried), t)
      | .ok false =>
        match ComponentStore.insert t.carrying carrier ⟨carried⟩ with
        | .error e => (.error (.store e), t)
        | .ok (_, carrying) =>
          match ComponentStore.insert t.beingCarried carried ⟨carrier⟩ with
          | .error e => (.error (.store e), { t with carrying })
          | .ok (_, beingCarried) => (.ok (), ⟨carrying, beingCarried⟩)

/-- Clears the carrier's side of a carry, but only if it still points at the carried entity. -/
def clearCarrier (carrying : γ) (carrier carried : EntityUid) : Except StoreError γ :=
  match ComponentStore.get carrying carrier with
  | .error e => .error e
  | .ok none => .ok carrying
  | .ok (some side) =>
    if side.carried = carried then
      match ComponentStore.remove carrying carrier with
      | .error e => .error e
      | .ok (_, rest) => .ok rest
    else .ok carrying

/-- Ends the carry of an entity, if there is one. The drop is raised once both sides are clear. -/
def release (t : CarryTables γ β) (carried : EntityUid) : Release γ β :=
  match ComponentStore.remove t.beingCarried carried with
  | .error e => ⟨.error e, t, []⟩
  | .ok (none, beingCarried) => ⟨.ok false, { t with beingCarried }, []⟩
  | .ok (some link, beingCarried) =>
    match clearCarrier t.carrying link.carrier carried with
    | .error e => ⟨.error e, { t with beingCarried }, []⟩
    | .ok carrying => ⟨.ok true, ⟨carrying, beingCarried⟩, [⟨carried, ⟨carrying, beingCarried⟩⟩]⟩

end CarryTables

end Station
