import Station.Catalogue
import Station.Locale

/-!
# The content report

The report lists what is wrong with content as a whole: ids that several documents define,
references that no document answers, message keys that are defined more than once, and ids without a
message key. Two of the checks look at the census: one pass over the documents that notes, for every
id, which files define it and which refer to it. The findings are sorted by kind and then by id.
-/

namespace Station

/-- What is wrong. -/
inductive IssueKind where
  /-- Several documents define an id. -/
  | duplicateId
  /-- No document defines an id that some document refers to. -/
  | unknownReference
  /-- Several lines define a message key. -/
  | duplicateLocale
  /-- No line defines a message key for an id. -/
  | missingLocale
  deriving DecidableEq, Repr, Inhabited

namespace IssueKind

/-- The kinds in order. -/
def all : List IssueKind := [.duplicateId, .unknownReference, .duplicateLocale, .missingLocale]

/-- The name of a kind in data. -/
def name : IssueKind → String
  | .duplicateId => "duplicate-id"
  | .unknownReference => "unknown-reference"
  | .duplicateLocale => "duplicate-locale"
  | .missingLocale => "missing-locale"

/-- The label of a kind for readers. -/
def label : IssueKind → String
  | .duplicateId => "DUPLICATE ID"
  | .unknownReference => "UNKNOWN REFERENCE"
  | .duplicateLocale => "DUPLICATE LOCALE"
  | .missingLocale => "MISSING LOCALE"

end IssueKind

/-- A single finding. -/
structure Issue where
  /-- What is wrong. -/
  kind : IssueKind
  /-- The id or the message key. -/
  id : String
  /-- The files, or the lines of files, that it is about. -/
  locations : List String
  deriving DecidableEq, Repr, Inhabited

/-- The findings about content, with the counts of what was looked at. -/
structure Report where
  /-- The findings, by kind and then by id. -/
  issues : List Issue
  /-- How many ids documents define. -/
  prototypeIds : Nat
  /-- How many ids documents refer to. -/
  referencedIds : Nat
  /-- How many message keys there are. -/
  localeKeys : Nat
  /-- The texts of the errors that kept files from being read. -/
  skippedFiles : List String
  deriving DecidableEq, Repr, Inhabited

/-! ## The census -/

/-- The ids that documents define and refer to, with the files of these documents. -/
structure Census where
  /-- The files of the documents that define an id, one for each document, in order. -/
  defined : Table PrototypeId (List String) := .empty
  /-- The files of the documents that refer to an id, each file once. -/
  referenced : Table PrototypeId (Table String Unit) := .empty
  deriving Inhabited

namespace Census

/-- The files of the documents that define an id. -/
def definitions (census : Census) (id : PrototypeId) : List String :=
  (census.defined.get? id).getD []

/-- The files of the documents that refer to an id. -/
def referrers (census : Census) (id : PrototypeId) : Table String Unit :=
  (census.referenced.get? id).getD .empty

/-- Notes one more document that defines an id. -/
def define (census : Census) (file : String) (id : PrototypeId) : Census :=
  { census with defined := census.defined.insert id (census.definitions id ++ [file]) }

/-- Notes a document that refers to an id. -/
def refer (census : Census) (file : String) (id : PrototypeId) : Census :=
  { census with referenced := census.referenced.insert id ((census.referrers id).insert file ()) }

/-- Notes what a document defines and what it refers to. -/
def note (census : Census) (loaded : LoadedPrototype) : Census :=
  let file := loaded.path.text
  let census := loaded.prototype.id?.elim census (census.define file)
  loaded.prototype.references.foldl (fun census id => census.refer file id) census

end Census

/-- The census of the documents that were read. -/
def Catalogue.census (c : Catalogue) : Census := c.prototypes.foldl Census.note {}

/-! ## The findings -/

/-- The order of findings: by kind, as the kinds are declared, and then by id. -/
def Issue.order : Issue → Issue → Ordering :=
  compareLex (compareOn fun issue => issue.kind.ctorIdx) (compareOn Issue.id)

namespace Report

/-- One finding for each row of a list. -/
def ofRows {α : Type} (kind : IssueKind) (locations : α → List String)
    (rows : List (String × α)) : List Issue :=
  rows.map fun row => ⟨kind, row.1, locations row.2⟩

/-- The ids that several documents define. -/
def duplicateIds (census : Census) : List Issue :=
  ofRows .duplicateId (fun files => files)
    (census.defined.rows.filter fun row => decide (1 < row.2.length))

/-- The references that no document answers. -/
def unknownReferences (census : Census) : List Issue :=
  ofRows .unknownReference Table.keys
    (census.referenced.rows.filter fun row => !census.defined.contains row.1)

/-- The message keys that several lines define. -/
def duplicateKeys (locale : LocaleIndex) : List Issue :=
  ofRows .duplicateLocale (fun places => places.map KeyLocation.text) locale.duplicates

/-- The ids without a message key. -/
def missingKeys (census : Census) (locale : LocaleIndex) : List Issue :=
  ofRows .missingLocale (fun files => files)
    (census.defined.rows.filter fun row => !locale.contains row.1)

/-- The findings of the four checks, one check after the other. -/
def findings (census : Census) (locale : LocaleIndex) : List Issue :=
  duplicateIds census ++ unknownReferences census ++ duplicateKeys locale ++
    missingKeys census locale

/-- The report on documents and message keys. -/
def of (c : Catalogue) (locale : LocaleIndex) : Report where
  issues := (findings c.census locale).mergeSort fun a b => (a.order b).isLE
  prototypeIds := c.census.defined.size
  referencedIds := c.census.referenced.size
  localeKeys := locale.size
  skippedFiles := c.errors.map ContentError.message

/-- Whether nothing is wrong. Files that were not read do not count. -/
def isOk (r : Report) : Bool := r.issues.isEmpty

/-- The findings of one kind. -/
def ofKind (r : Report) (kind : IssueKind) : List Issue := r.issues.filter (·.kind == kind)

end Report

end Station
