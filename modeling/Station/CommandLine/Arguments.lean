import Station.Entity
import Station.Path

/-!
# Arguments

The words of a command line name a command, one word per level, and give options. An option of a
level is given after the word of the level and before the next one; the configuration file may be
given at any level, and the innermost one counts. A value follows its option, or stands behind an
equals sign.
-/

namespace Station.CommandLine

/-- What is wrong with the words. -/
inductive UsageError where
  /-- A word that nothing takes. -/
  | unexpected (word : String)
  /-- An option without its value. -/
  | missingValue (option : String)
  /-- An option with a value that it does not take. -/
  | badValue (option value : String)
  /-- An option that is given again. -/
  | repeated (option : String)
  /-- No command. -/
  | missingCommand
  deriving DecidableEq, Repr, Inhabited

/-- The text of a usage error. -/
def UsageError.message : UsageError → String
  | .unexpected word => "unexpected argument '" ++ word ++ "' found"
  | .missingValue option => "a value is required for '--" ++ option ++ "' but none was supplied"
  | .badValue option value => "invalid value '" ++ value ++ "' for '--" ++ option ++ "'"
  | .repeated option => "the argument '--" ++ option ++ "' cannot be used multiple times"
  | .missingCommand => "a subcommand is required but one was not provided"

/-- Which values an option takes. -/
inductive OptionKind where
  /-- None. -/
  | flag
  /-- A path, which is not empty. -/
  | path
  /-- A natural number of 64 bits. -/
  | number
  /-- Texts between commas; the option may be given again. -/
  | texts
  /-- None; it asks for the version and nothing else. -/
  | version
  /-- None; it asks for help and nothing else. -/
  | help
  deriving DecidableEq, Repr, Inhabited

/-- An option. -/
structure OptionSpec where
  /-- Its name. -/
  name : String
  /-- Its letter, if it has one. -/
  letter : Option Char := none
  /-- Its values. -/
  kind : OptionKind
  deriving DecidableEq, Repr, Inhabited

/-- A level of commands. -/
structure Level where
  /-- Its options. -/
  options : List OptionSpec
  /-- The words for the next level. -/
  commands : List String := []
  deriving DecidableEq, Repr, Inhabited

/-- Why reading ends before the last word. -/
inductive Halt where
  /-- The version is asked for. -/
  | version
  /-- Help is asked for. -/
  | help
  /-- The words are wrong. -/
  | usage (error : UsageError)
  deriving DecidableEq, Repr, Inhabited

/-- The options that were given, with their values, in order. -/
abbrev Given := List (String × String)

/-- The values that an option was given. -/
def Given.values (given : Given) (name : String) : List String :=
  (given.filter (·.1 == name)).map (·.2)

/-- The number that a text is: digits, perhaps after a plus sign. -/
def number? (text : String) : Option UInt64 :=
  let digits := if text.toList.head? = some '+' then text.toList.drop 1 else text.toList
  if digits.isEmpty || !digits.all Char.isDigit then none
  else
    let n := digits.foldl (fun n c => 10 * n + (c.toNat - '0'.toNat)) 0
    if n < UInt64.size then some (UInt64.ofNat n) else none

/-- Whether an option takes a value. -/
def OptionKind.accepts : OptionKind → String → Bool
  | .path, value => !value.isEmpty
  | .number, value => (number? value).isSome
  | .texts, _ => true
  | .flag, _ | .version, _ | .help, _ => false

/-- The option that a word names, and the value that is attached to it. -/
def Level.option? (level : Level) (word : String) : Option (OptionSpec × Option String) :=
  match word.toList with
  | '-' :: '-' :: text =>
    let name := text.takeWhile (· != '=')
    let attached :=
      match text.drop name.length with
      | [] => none
      | _ :: value => some (String.ofList value)
    (level.options.find? (·.name == String.ofList name)).map fun spec => (spec, attached)
  | '-' :: letter :: text =>
    let attached :=
      match text with
      | [] => none
      | '=' :: value => some (String.ofList value)
      | value => some (String.ofList value)
    (level.options.find? (·.letter == some letter)).map fun spec => (spec, attached)
  | _ => none

/-- Whether a word may be a value: a word with a dash in front is an option, unless it is the dash.
-/
def mayBeValue (word : String) : Bool := word == "-" || word.toList.head? != some '-'

/-- Whether a word names an option by its letter. -/
def isLetterWord (word : String) : Bool := word.toList[1]? != some '-'

/-- Takes one more option in. -/
def give (given : Given) (spec : OptionSpec) (value : String) : Except Halt Given :=
  if spec.kind != .texts && given.any (·.1 == spec.name) then
    .error (.usage (.repeated spec.name))
  else if spec.kind == .flag || spec.kind.accepts value then .ok (given ++ [(spec.name, value)])
  else .error (.usage (.badValue spec.name value))

/-- Reads the options of a level, up to the word for the next level. -/
def readLevel (level : Level) (given : Given) :
    List String → Except Halt (Given × List String)
  | [] => .ok (given, [])
  | word :: rest =>
    if level.commands.contains word then .ok (given, word :: rest)
    else if word == "--" then
      match rest with
      | [] => .ok (given, [])
      | word :: _ => .error (.usage (.unexpected word))
    else
      match level.option? word with
      | none => .error (.usage (.unexpected word))
      | some (spec, attached) =>
        match spec.kind, attached with
        | .version, none => .error .version
        | .help, none => .error .help
        | .version, some value =>
          .error (if isLetterWord word then .version else .usage (.badValue spec.name value))
        | .help, some value =>
          .error (if isLetterWord word then .help else .usage (.badValue spec.name value))
        | .flag, some value => .error (.usage (.badValue spec.name value))
        | .flag, none => do readLevel level (← give given spec "") rest
        | _, some value => do readLevel level (← give given spec value) rest
        | _, none =>
          match rest with
          | [] => .error (.usage (.missingValue spec.name))
          | value :: rest =>
            if mayBeValue value then do readLevel level (← give given spec value) rest
            else .error (.usage (.missingValue spec.name))

/-! ## The commands -/

/-- Asks for a configuration file. -/
def configOption : OptionSpec := { name := "config", letter := some 'c', kind := .path }

/-- Asks for help. -/
def helpOption : OptionSpec := { name := "help", letter := some 'h', kind := .help }

/-- The outermost level. -/
def topLevel : Level where
  options := [configOption, helpOption, { name := "version", letter := some 'V', kind := .version }]
  commands := ["validate", "mind", "serve", "help"]

/-- The level of `validate`. -/
def validateLevel : Level where
  options :=
    [{ name := "prototypes", kind := .path }, { name := "locale", kind := .path },
      { name := "json", kind := .flag }, configOption, helpOption]

/-- The level of `mind`. -/
def mindLevel : Level where
  options := [configOption, helpOption]
  commands := ["check", "help"]

/-- The level of `mind check`. -/
def checkLevel : Level where
  options :=
    [{ name := "jobs", kind := .texts }, { name := "blacklist", kind := .texts },
      { name := "json", kind := .flag }, configOption, helpOption]

/-- The level of `serve`. -/
def serveLevel : Level where
  options := [{ name := "status-interval", kind := .number }, configOption, helpOption]

/-- What is to be done. -/
inductive Command where
  /-- Check the content of directories, of the configured ones unless others are given. -/
  | validate (prototypes locale : Option Path) (json : Bool)
  /-- Check a mind with some jobs against a filter of some jobs. -/
  | mindCheck (jobs blacklist : List JobId) (json : Bool)
  /-- Run a server that reports on its queue at an interval, unless it is the configured one. -/
  | serve (statusInterval : Option UInt64)
  deriving DecidableEq, Repr, Inhabited

/-- What a command line asks for. -/
structure Invocation where
  /-- The configuration file, if one is given. -/
  config : Option Path
  /-- What is to be done. -/
  command : Command
  deriving DecidableEq, Repr, Inhabited

/-- The path that an option was given last. -/
def Given.path? (given : Given) (name : String) : Option Path :=
  (given.values name).getLast?.map Path.mk

/-- Whether a flag was given. -/
def Given.flag (given : Given) (name : String) : Bool := !(given.values name).isEmpty

/-- The texts that an option was given. -/
def Given.texts (given : Given) (name : String) : List String :=
  (given.values name).flatMap fun value => value.splitOn ","

/-- The configuration file of the innermost level that gives one. -/
def innermostConfig (levels : List Given) : Option Path :=
  levels.reverse.findSome? fun given => given.path? "config"

/-- Reads the words after a request for help, which may only name commands. -/
def readHelp (commands : List String) : List String → Halt
  | [] => .help
  | word :: rest =>
    if commands.contains word then
      readHelp (if word == "mind" then mindLevel.commands else []) rest
    else .usage (.unexpected word)

/-- Reads the options of an innermost level. -/
def readLast (level : Level) (words : List String) : Except Halt Given :=
  (readLevel level [] words).map (·.1)

/-- Reads the words of a command line. -/
def parse (words : List String) : Except Halt Invocation := do
  let (top, words) ← readLevel topLevel [] words
  match words with
  | "validate" :: words =>
    let last ← readLast validateLevel words
    return {
      config := innermostConfig [top, last]
      command := .validate (last.path? "prototypes") (last.path? "locale") (last.flag "json") }
  | "mind" :: words =>
    let (mind, words) ← readLevel mindLevel [] words
    match words with
    | "check" :: words =>
      let last ← readLast checkLevel words
      return {
        config := innermostConfig [top, mind, last]
        command := .mindCheck (last.texts "jobs") (last.texts "blacklist") (last.flag "json") }
    | "help" :: words => throw (readHelp mindLevel.commands words)
    | _ => throw (.usage .missingCommand)
  | "serve" :: words =>
    let last ← readLast serveLevel words
    return {
      config := innermostConfig [top, last]
      command := .serve ((last.values "status-interval").getLast?.bind number?) }
  | "help" :: words => throw (readHelp topLevel.commands words)
  | _ => throw (.usage .missingCommand)

end Station.CommandLine
