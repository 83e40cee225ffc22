import Station.CommandLine.Arguments
import Station.Config.File
import Station.Mind.Check
import Station.Report.Directory
import Station.Report.Render
import Station.Server

/-!
# The command line

What a run of the program writes and how it ends, as a function of its words and of the files it
finds. Words that are wrong end a run with 2, and a command that fails with 1. A failure is written
with what lies behind it.
-/

namespace Station.CommandLine

/-- What a run writes and how it ends. -/
structure Outcome where
  /-- How it ends. -/
  exit : UInt32 := 0
  /-- What it writes as its output. -/
  stdout : String := ""
  /-- What it writes as its errors. -/
  stderr : String := ""
  deriving DecidableEq, Repr, Inhabited

/-- What a run comes to. -/
inductive Run where
  /-- It ends. -/
  | finished (outcome : Outcome)
  /-- It goes on as a server that reports on its queue at an interval of seconds. -/
  | serving (server : Server) (interval : UInt64)
  deriving Inhabited

/-- The version of the program. -/
def version : String := "genesis 0.1.0"

/-- How the program is used. -/
def usage : String :=
  "Usage: genesis [OPTIONS] <COMMAND>\n\n" ++
    "Commands:\n" ++
    "  validate [--prototypes DIR] [--locale DIR] [--json]\n" ++
    "  mind check [--jobs JOBS] [--blacklist JOBS] [--json]\n" ++
    "  serve [--status-interval SECONDS]\n\n" ++
    "Options:\n" ++
    "  -c, --config FILE\n" ++
    "  -h, --help\n" ++
    "  -V, --version\n"

/-- Lines with their ends. -/
def unlines (lines : List String) : String := String.join (lines.map (· ++ "\n"))

/-- A text whose lines after the first one are indented. -/
def indentLines (indentation text : String) : String :=
  ("\n" ++ indentation).intercalate (text.splitOn "\n")

/-- A cause under its number, counted from zero. -/
def numberedCause (number : Nat) (text : String) : String :=
  let digits := toString number
  String.ofList (List.replicate (5 - digits.length) ' ') ++ digits ++ ": " ++
    indentLines "       " text

/-- What is written about a failure. A single cause goes without a number. -/
def failureText (message : String) (causes : List String) : String :=
  let listed :=
    match causes with
    | [] => []
    | [cause] => ["", "Caused by:", "    " ++ indentLines "    " cause]
    | causes => "" :: "Caused by:" :: causes.mapIdx numberedCause
  unlines (("Error: " ++ message) :: listed)

/-- The end of a run that failed after it wrote something. -/
def failed (message : String) (causes : List String) (stdout : String) : Run :=
  .finished { exit := 1, stdout, stderr := failureText message causes }

/-- Writes a report. Findings make the run fail. -/
def reportRun (report : Report) (json : Bool) (time : String) : Run :=
  let stdout := if json then (report.toJson time).pretty ++ "\n" else unlines report.lines
  if report.isOk then .finished { stdout }
  else
    failed ("validation failed with " ++ toString report.issues.length ++ " issue(s)") [] stdout

/-- A check of a mind as data. -/
def checkJson (check : MindCheck) : Json :=
  .record
    [("jobs", .ofTexts check.jobs), ("blacklist", .ofTexts check.blacklist),
      ("shouldRemove", .bool check.shouldRemove), ("isAllowed", .bool check.isAllowed)]

/-- Writes a check of a mind. -/
def checkText (check : MindCheck) (json : Bool) : String :=
  if json then (checkJson check).pretty ++ "\n"
  else if check.isAllowed then "kept mind holds a listed job\n"
  else "removed mind holds none of the listed jobs\n"

/-- Builds a server and starts it. -/
def serveRun (tree : FileTree) (config : ServerConfig) (statusInterval : Option UInt64) : Run :=
  match Server.bootstrap tree config with
  | .error failure => failed failure.message failure.causes ""
  | .ok server =>
    let started := server.start
    match started.answer with
    | .error failure => failed failure.message failure.causes ""
    | .ok () =>
      .serving started.server (max 1 (statusInterval.getD config.joinQueue.statusIntervalSecs))

/-- The directories that a command reads. -/
def directoriesOf (config : ServerConfig) : Command → List Path
  | .validate prototypes locale _ =>
    [prototypes.getD config.prototypesDir, locale.getD config.localeDir]
  | .mindCheck .. => []
  | .serve _ => [config.prototypesDir]

/-- Runs a command under a configuration. -/
def runCommand (tree : FileTree) (time : String) (config : ServerConfig) : Command → Run
  | .validate prototypes locale json =>
    match Report.ofDirectories tree (prototypes.getD config.prototypesDir)
        (locale.getD config.localeDir) with
    | .error failure => failed failure.message failure.causes ""
    | .ok report => reportRun report json time
  | .mindCheck jobs blacklist json =>
    .finished { stdout := checkText (MindCheck.of jobs blacklist) json }
  | .serve statusInterval => serveRun tree config statusInterval

/-- Runs the program on its words. `time` is the time that a report carries. -/
def run (tree : FileTree) (time : String) (words : List String) : Run :=
  match parse words with
  | .error .version => .finished { stdout := version ++ "\n" }
  | .error .help => .finished { stdout := usage }
  | .error (.usage error) =>
    .finished { exit := 2, stderr := unlines ["error: " ++ error.message, "", usage] }
  | .ok invocation =>
    match ServerConfig.forRun tree invocation.config with
    | .error failure => failed failure.message failure.causes ""
    | .ok config => runCommand tree time config invocation.command

end Station.CommandLine
