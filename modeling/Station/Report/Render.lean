import Station.Json.Pretty
import Station.Report

/-!
# Writing reports

A report as data, and as lines for readers.
-/

namespace Station

/-- A finding as data. -/
def Issue.toJson (i : Issue) : Json :=
  .record [("kind", .ofText i.kind.name), ("id", .ofText i.id), ("locations", .ofTexts i.locations)]

/-- The lines of a finding. -/
def Issue.lines (i : Issue) : List String :=
  ("[" ++ i.kind.label ++ "] " ++ i.id) :: i.locations.map ("   -> " ++ ·)

namespace Report

/-- A report as data, with the time at which it was made. -/
def toJson (r : Report) (time : String) : Json :=
  .record
    [("issues", .array (r.issues.map Issue.toJson)), ("prototypeIds", .ofNat r.prototypeIds),
      ("referencedIds", .ofNat r.referencedIds), ("localeKeys", .ofNat r.localeKeys),
      ("skippedFiles", .ofTexts r.skippedFiles), ("generatedAt", .ofText time)]

/-- The lines of a report. -/
def lines (r : Report) : List String :=
  let counts :=
    ["Total prototype IDs: " ++ toString r.prototypeIds,
      "Total referenced IDs: " ++ toString r.referencedIds,
      "Total locale IDs: " ++ toString r.localeKeys]
  let findings :=
    if r.isOk then ["All checks passed!"]
    else "=== Validation Errors ===" :: r.issues.flatMap Issue.lines
  counts ++ r.skippedFiles.map ("skipped " ++ ·) ++ findings

end Report

end Station
