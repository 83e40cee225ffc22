/-!
# Entities

Everything in a running station is an entity, named by a 64-bit number. Ids of prototypes, jobs,
minds and sound collections are texts; each has its own name here, so that signatures say which one
they take.
-/

namespace Station

/-- The number that names a live entity. -/
structure EntityUid where
  /-- The number itself. -/
  raw : UInt64
  deriving DecidableEq, Hashable, Repr, Inhabited

namespace EntityUid

instance : Ord EntityUid := ⟨compareOn EntityUid.raw⟩

instance : Std.TransOrd EntityUid :=
  inferInstanceAs (Std.TransCmp (compareOn EntityUid.raw))

instance : Std.LawfulEqOrd EntityUid where
  compare_self {a} := Std.ReflOrd.compare_self (a := a.raw)
  eq_of_compare {a b} h := by
    cases a
    cases b
    exact congrArg EntityUid.mk (Std.LawfulEqOrd.eq_of_compare (α := UInt64) h)

/-- Ids are ordered as their numbers are. -/
theorem compare_eq_lt_iff {a b : EntityUid} : compare a b = .lt ↔ a.raw < b.raw :=
  compareOfLessAndEq_eq_lt

/-- The decimal text of an id, as messages show it. -/
def text (uid : EntityUid) : String := toString uid.raw.toNat

/-- The id after this one; the last id is followed by zero. -/
def next (uid : EntityUid) : EntityUid := ⟨uid.raw + 1⟩

end EntityUid

/-- The id of a prototype. -/
abbrev PrototypeId := String

/-- The id of a job. -/
abbrev JobId := String

/-- The id of a mind. -/
abbrev MindId := String

/-- The id of a sound collection. -/
abbrev SoundCollectionId := String

end Station
