import Station.Mind

/-!
# Mind filters

A filter lists jobs and lets pass the minds that hold at least one of them. Content calls the list
a blacklist; what it does is the opposite, and content relies on it.

The rules ask whether a mind holds a job through a query, so that they do not depend on where minds
are kept. `MindFilter.asked` and `askedByAll` give the questions in the order in which they are
put: a filter stops at the first listed job that the mind holds, and a mind is not asked about again
once a filter has turned it away.
-/

namespace Station

/-- Whether a mind holds a job. -/
abbrev JobQuery := MindId → JobId → Bool

/-- A list of jobs of which a mind has to hold one. -/
structure MindFilter where
  /-- The listed jobs, in the configured order. -/
  blacklist : List JobId := []
  deriving DecidableEq, Repr, Inhabited

namespace MindFilter

/-- Whether a mind is turned away: it holds none of the listed jobs. -/
def shouldRemove (f : MindFilter) (query : JobQuery) (mind : MindId) : Bool :=
  !f.blacklist.any (query mind)

/-- Whether a mind passes. -/
def isAllowed (f : MindFilter) (query : JobQuery) (mind : MindId) : Bool :=
  !f.shouldRemove query mind

/-- Listed jobs up to the first one that is held, which is the last one asked about. -/
def askedJobs (held : JobId → Bool) : List JobId → List JobId
  | [] => []
  | job :: rest => if held job then [job] else job :: askedJobs held rest

/-- The questions that deciding about one mind puts. -/
def asked (f : MindFilter) (query : JobQuery) (mind : MindId) : List (MindId × JobId) :=
  (askedJobs (query mind) f.blacklist).map fun job => (mind, job)

end MindFilter

/-- The minds that pass every filter, in the given order. -/
def retainAllowed (filters : List MindFilter) (query : JobQuery) (minds : List MindId) :
    List MindId :=
  minds.filter fun mind => filters.all fun f => f.isAllowed query mind

/-- The questions that several filters put about one mind; the first that turns it away is the
last that asks. -/
def askedByAll (query : JobQuery) (mind : MindId) : List MindFilter → List (MindId × JobId)
  | [] => []
  | f :: rest =>
    f.asked query mind ++ if f.isAllowed query mind then askedByAll query mind rest else []

/-- The questions that `retainAllowed` puts. -/
def askedToRetain (filters : List MindFilter) (query : JobQuery) (minds : List MindId) :
    List (MindId × JobId) :=
  minds.flatMap fun mind => askedByAll query mind filters

end Station
