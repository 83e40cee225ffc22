import Station.Path

/-!
# Server configuration

Every setting has a default. `ServerConfig.rebase` resolves relative directories against the
directory that the configuration was found in.
-/

namespace Station

/-- The settings of the join queue. -/
structure JoinQueueConfig where
  /-- Whether the queue gates admissions. -/
  enabled : Bool := false
  /-- How often the state of the queue is reported, in seconds. -/
  statusIntervalSecs : UInt64 := 30
  deriving DecidableEq, Repr, Inhabited

/-- The settings of a server. -/
structure ServerConfig where
  /-- The join queue. -/
  joinQueue : JoinQueueConfig := {}
  /-- The directory of the documents. -/
  prototypesDir : Path := ⟨"Resources/Prototypes"⟩
  /-- The directory of the message keys. -/
  localeDir : Path := ⟨"Resources/Locale"⟩
  /-- Which messages are logged. -/
  logFilter : String := "info"
  deriving DecidableEq, Repr, Inhabited

/-- Resolves relative directories against a base. -/
def ServerConfig.rebase (c : ServerConfig) (base : Path) : ServerConfig :=
  { c with prototypesDir := base.join c.prototypesDir, localeDir := base.join c.localeDir }

/-- The value under a name among named values: a name may be missing, but it may not be repeated. -/
def setting? {α : Type} (name : String) (values : List (String × α)) : Option (Option α) :=
  match values.filter (·.1 == name) with
  | [] => some none
  | [(_, value)] => some (some value)
  | _ => none

end Station
