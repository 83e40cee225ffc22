import Mathlib.Data.List.Forall2
import Station.Proofs.Documents

/-!
# A text is loaded whole or not at all

`CatalogueM` is work on a catalogue that may fail half-way, and then leaves behind whatever it has
done so far. `loadText` is the loading of a text in such steps: the text is parsed, its root opened,
its documents read one by one, and only then are they added. So a failure leaves nothing behind
(`run_loadText`), and `Catalogue.addText` may as well return a catalogue or an error.

`Refused` says which texts fail, and how. `Prototype.Keeps` says what a text that does not fail adds
for each document.
-/

namespace Station

open Yaml (Value)

/-- The documents that lie under a root. -/
inductive Yaml.Value.Holds : Value → List Value → Prop
  /-- Nothing holds no documents. -/
  | null : Holds .null []
  /-- A list holds its items. -/
  | sequence (documents : List Value) : Holds (.sequence documents) documents
  /-- A mapping holds the list that it has under `prototypes`. -/
  | mapping {entries : List (Value × Value)} {documents : List Value}
      (listed : Value.lookup "prototypes" entries = some (.sequence documents)) :
      Holds (.mapping entries) documents

/-- The errors for which a text adds no documents. -/
inductive ContentError.Refused (path : Path) (parsed : Except Yaml.Problem Value) :
    ContentError → Prop
  /-- The text is no YAML. -/
  | yaml {problem : Yaml.Problem} (failed : parsed = .error problem) :
      Refused path parsed (.yaml path problem)
  /-- The root holds no documents. -/
  | invalidShape {root : Value} (read : parsed = .ok root)
      (shapeless : ∀ documents, ¬ root.Holds documents) : Refused path parsed (.invalidShape path)
  /-- A document, the first of this sort, names no type. -/
  | missingType {root : Value} {documents : List Value} {index : Nat} (read : parsed = .ok root)
      (holds : root.Holds documents)
      (first : documents.findIdx? (·.typeName?.isNone) = some index) :
      Refused path parsed (.missingType path index)

namespace Catalogue

open ContentError (Refused)

variable {path : Path} {parsed : Except Yaml.Problem Value}

/-! ## The documents of a text -/

/-- The documents of a text that was parsed. -/
def documentsIn (path : Path) (parsed : Except Yaml.Problem Value) :
    Except ContentError (List LoadedPrototype) :=
  match parsed with
  | .error problem => .error (.yaml path problem)
  | .ok root =>
    match documentsOf? root with
    | none => .error (.invalidShape path)
    | some documents => readDocuments path 0 documents

theorem addText_eq (c : Catalogue) (text : String) (path : Path) :
    c.addText text path = (documentsIn path (Yaml.parse text)).map fun loaded =>
      { c with prototypes := c.prototypes ++ loaded } := by
  rw [addText, documentsIn.eq_def]
  cases Yaml.parse text with
  | error problem => rfl
  | ok root =>
    simp only [addValue]
    cases documentsOf? root <;> rfl

theorem documentsOf?_eq_some_iff {root : Value} {documents : List Value} :
    documentsOf? root = some documents ↔ root.Holds documents := by
  constructor
  · intro h
    rw [documentsOf?.eq_def] at h
    split at h
    · obtain rfl := Option.some.inj h
      exact .null
    · obtain rfl := Option.some.inj h
      exact .sequence _
    · split at h
      · rename_i hlisted
        obtain rfl := Option.some.inj h
        exact .mapping hlisted
      · cases h
    · cases h
  · intro h
    cases h with
    | null => rfl
    | sequence => rfl
    | mapping listed => simp only [documentsOf?, listed]

theorem documentsOf?_eq_none_iff {root : Value} :
    documentsOf? root = none ↔ ∀ documents, ¬ root.Holds documents := by
  simp only [← documentsOf?_eq_some_iff, Option.eq_none_iff_forall_ne_some, ne_eq]

/-- A loaded document comes from a file and keeps what the document there says. -/
def Records (path : Path) (document : Value) (loaded : LoadedPrototype) : Prop :=
  loaded.path = path ∧ loaded.prototype.Keeps document

/-- The documents are read up to the first one that names no type. -/
theorem readDocuments_spec (path : Path) (index : Nat) (documents : List Value) :
    match readDocuments path index documents with
    | .ok loaded =>
      documents.findIdx? (·.typeName?.isNone) = none ∧
        List.Forall₂ (Records path) documents loaded
    | .error error =>
      ∃ k, documents.findIdx? (·.typeName?.isNone) = some k ∧
        error = .missingType path (index + k) := by
  induction documents generalizing index with
  | nil => exact ⟨rfl, .nil⟩
  | cons document rest ih =>
    have hrest := ih (index + 1)
    rw [readDocuments, List.findIdx?_cons]
    cases hread : Prototype.ofDocument? document with
    | none =>
      rw [Prototype.ofDocument?_eq_none_iff] at hread
      exact ⟨0, by simp [hread], rfl⟩
    | some prototype =>
      have hkeeps := Prototype.keeps_of_ofDocument? hread
      simp only [hkeeps.kind_eq, Option.isNone_some, Bool.false_eq_true, if_false]
      cases hlater : readDocuments path (index + 1) rest with
      | error error =>
        rw [hlater] at hrest
        obtain ⟨k, hk, rfl⟩ := hrest
        -- the error counts from `index + 1`, where the rest begins
        refine ⟨k + 1, by rw [hk, Option.map_some], ?_⟩
        rw [Nat.add_assoc, Nat.add_comm 1 k]
      | ok later =>
        rw [hlater] at hrest
        exact ⟨by rw [hrest.1, Option.map_none], .cons ⟨rfl, hkeeps⟩ hrest.2⟩

theorem documentsIn_eq_error_iff {error : ContentError} :
    documentsIn path parsed = .error error ↔ Refused path parsed error := by
  constructor
  · intro h
    rw [documentsIn.eq_def] at h
    split at h
    · obtain rfl := Except.error.inj h
      exact .yaml rfl
    · split at h
      · rename_i hnone
        obtain rfl := Except.error.inj h
        exact .invalidShape rfl (documentsOf?_eq_none_iff.1 hnone)
      · rename_i documents hdocuments
        have hspec := readDocuments_spec path 0 documents
        rw [h] at hspec
        obtain ⟨index, hfirst, rfl⟩ := hspec
        rw [Nat.zero_add]
        exact .missingType rfl (documentsOf?_eq_some_iff.1 hdocuments) hfirst
  · intro h
    cases h with
    | yaml failed => simp only [documentsIn, failed]
    | invalidShape read shapeless =>
      simp only [documentsIn, read, documentsOf?_eq_none_iff.2 shapeless]
    | @missingType root documents index read holds first =>
      simp only [documentsIn, read, documentsOf?_eq_some_iff.2 holds]
      have hspec := readDocuments_spec path 0 documents
      split at hspec
      · rw [first] at hspec
        cases hspec.1
      · rename_i error hread
        obtain ⟨k, hk, rfl⟩ := hspec
        rw [first] at hk
        obtain rfl := Option.some.inj hk
        rw [hread, Nat.zero_add]

theorem of_documentsIn_eq_ok {loaded : List LoadedPrototype}
    (h : documentsIn path parsed = .ok loaded) :
    ∃ root documents, parsed = .ok root ∧ root.Holds documents ∧
      (∀ document ∈ documents, document.typeName?.isSome) ∧
      List.Forall₂ (Records path) documents loaded := by
  rw [documentsIn.eq_def] at h
  split at h
  · cases h
  · rename_i root
    split at h
    · cases h
    · rename_i documents hdocuments
      have hspec := readDocuments_spec path 0 documents
      rw [h] at hspec
      refine ⟨root, documents, rfl, documentsOf?_eq_some_iff.1 hdocuments, ?_, hspec.2⟩
      intro document hdocument
      simpa using List.findIdx?_eq_none_iff.1 hspec.1 document hdocument

theorem exists_documentsIn_iff (path : Path) (parsed : Except Yaml.Problem Value) :
    (∃ loaded, documentsIn path parsed = .ok loaded) ↔
      ∃ root documents, parsed = .ok root ∧ root.Holds documents ∧
        ∀ document ∈ documents, document.typeName?.isSome := by
  constructor
  · rintro ⟨loaded, h⟩
    obtain ⟨root, documents, hread, hholds, htyped, -⟩ := of_documentsIn_eq_ok h
    exact ⟨root, documents, hread, hholds, htyped⟩
  · rintro ⟨root, documents, hread, hholds, htyped⟩
    simp only [documentsIn, hread, documentsOf?_eq_some_iff.2 hholds]
    have hspec := readDocuments_spec path 0 documents
    split at hspec
    · rename_i loaded hloaded
      exact ⟨loaded, hloaded⟩
    · obtain ⟨k, hk, -⟩ := hspec
      have hnone : documents.findIdx? (·.typeName?.isNone) = none :=
        List.findIdx?_eq_none_iff.2 fun document hdocument => by
          simpa using htyped document hdocument
      rw [hnone] at hk
      cases hk

end Catalogue

/-! ## Loading step by step -/

/-- Work on a catalogue. If it fails, what it has done up to then stays done. -/
abbrev CatalogueM := EStateM ContentError Catalogue

namespace CatalogueM

/-- Whoever recovers from a failure finds what was done before it. -/
theorem run_tryCatch {α : Type} (work : CatalogueM α) (recover : ContentError → CatalogueM α)
    (c : Catalogue) :
    (tryCatch work recover).run c =
      match work.run c with
      | .ok a left => .ok a left
      | .error error left => (recover error).run left := by
  show EStateM.tryCatch work recover c = _
  rw [EStateM.tryCatch, EStateM.run]
  cases work c <;> rfl

/-- Reads one more document, after some that were read. -/
def readNext (path : Path) (decoded : List LoadedPrototype) (index : Nat) (document : Value) :
    CatalogueM (List LoadedPrototype) :=
  match Prototype.ofDocument? document with
  | none => throw (.missingType path index)
  | some prototype => return decoded ++ [⟨prototype, path⟩]

/-- Reads documents, one after the other. -/
def readAll (path : Path) (documents : List Value) : CatalogueM (List LoadedPrototype) := do
  let mut decoded := []
  for entry in documents.zipIdx do
    decoded ← readNext path decoded entry.2 entry.1
  return decoded

/-- Loads a text that was read from a path. All of its documents are read before the first one is
added. -/
def loadText (parse : String → Except Yaml.Problem Value) (text : String) (path : Path) :
    CatalogueM Unit := do
  match parse text with
  | .error problem => throw (.yaml path problem)
  | .ok root =>
    match documentsOf? root with
    | none => throw (.invalidShape path)
    | some documents =>
      let decoded ← readAll path documents
      modify fun c => { c with prototypes := c.prototypes ++ decoded }

/-- The loop reads the documents behind those that it has, and leaves the catalogue alone. -/
theorem run_forIn_readNext (path : Path) (documents : List Value) (index : Nat)
    (decoded : List LoadedPrototype) (c : Catalogue) :
    (forIn (documents.zipIdx index) decoded fun entry decoded =>
        ForInStep.yield <$> readNext path decoded entry.2 entry.1).run c =
      match readDocuments path index documents with
      | .ok loaded => .ok (decoded ++ loaded) c
      | .error error => .error error c := by
  -- the loop appends to what it has, while `readDocuments` puts a document before the later ones
  induction documents generalizing index decoded with
  | nil => simp [readDocuments]
  | cons document rest ih =>
    rw [List.zipIdx_cons, List.forIn_cons, readNext, readDocuments]
    cases Prototype.ofDocument? document with
    | none => rfl
    | some prototype =>
      refine (ih (index + 1) (decoded ++ [⟨prototype, path⟩])).trans ?_
      cases readDocuments path (index + 1) rest with
      | error error => rfl
      | ok later => simp [Except.map]

theorem run_readAll (path : Path) (documents : List Value) (c : Catalogue) :
    (readAll path documents).run c =
      match readDocuments path 0 documents with
      | .ok loaded => .ok loaded c
      | .error error => .error error c := by
  simp only [readAll, bind_pure_comp, bind_pure]
  exact run_forIn_readNext path documents 0 [] c

theorem run_loadText (parse : String → Except Yaml.Problem Value) (text : String) (path : Path)
    (c : Catalogue) :
    (loadText parse text path).run c =
      match Catalogue.documentsIn path (parse text) with
      | .ok loaded => .ok () { c with prototypes := c.prototypes ++ loaded }
      | .error error => .error error c := by
  rw [loadText, Catalogue.documentsIn.eq_def]
  cases parse text with
  | error problem => rfl
  | ok root =>
    simp only
    cases documentsOf? root with
    | none => rfl
    | some documents =>
      simp only [EStateM.run_bind, run_readAll]
      cases readDocuments path 0 documents <;> rfl

/-- A catalogue is returned where the loading of a text ends, and an error where it fails. -/
theorem run_loadText_parse (text : String) (path : Path) (c : Catalogue) :
    (loadText Yaml.parse text path).run c =
      match c.addText text path with
      | .ok added => .ok () added
      | .error error => .error error c := by
  rw [run_loadText, Catalogue.addText_eq]
  cases Catalogue.documentsIn path (Yaml.parse text) <;> rfl

/-! ## Whole or not at all -/

/-- Whatever parses it, a text is loaded exactly if its root holds documents that all name a type.
Then each of them adds one entry, in order. Otherwise the catalogue stays as it was and the error says
what is wrong. A list counts the same alone and under `prototypes`. -/
theorem text_is_loaded_whole_or_not_at_all (parse : String → Except Yaml.Problem Value)
    (c : Catalogue) (text : String) (path : Path) :
    let loading := (loadText parse text path).run c
    ((∃ added, loading = .ok () added) ↔
      ∃ root documents, parse text = .ok root ∧ root.Holds documents ∧
        ∀ document ∈ documents, document.typeName?.isSome) ∧
    (∀ added, loading = .ok () added → ∃ root documents loaded,
      parse text = .ok root ∧ root.Holds documents ∧
        List.Forall₂ (Catalogue.Records path) documents loaded ∧
        added = { prototypes := c.prototypes ++ loaded, errors := c.errors }) ∧
    (∀ error left, loading = .error error left ↔
      left = c ∧ ContentError.Refused path (parse text) error) ∧
    (∀ other documents entries, parse text = .ok (.sequence documents) →
      parse other = .ok (.mapping entries) →
      Value.lookup "prototypes" entries = some (.sequence documents) →
      (loadText parse other path).run c = loading) ∧
    (loadText Yaml.parse text path).run c =
      match c.addText text path with
      | .ok added => .ok () added
      | .error error => .error error c := by
  intro loading
  have hrun : loading = _ := run_loadText parse text path c
  refine ⟨?_, ?_, ?_, ?_, run_loadText_parse text path c⟩
  · rw [← Catalogue.exists_documentsIn_iff path, hrun]
    cases Catalogue.documentsIn path (parse text) <;> simp
  · intro added hadded
    rw [hrun] at hadded
    split at hadded
    · rename_i loaded hloaded
      obtain ⟨root, documents, hread, hholds, -, hrecords⟩ :=
        Catalogue.of_documentsIn_eq_ok hloaded
      cases hadded
      exact ⟨root, documents, loaded, hread, hholds, hrecords, rfl⟩
    · cases hadded
  · intro error left
    rw [← Catalogue.documentsIn_eq_error_iff, hrun]
    cases Catalogue.documentsIn path (parse text) <;> simp [and_comm, eq_comm]
  · intro other documents entries hlist hmapping hlisted
    rw [hrun, run_loadText, hlist, hmapping]
    simp only [Catalogue.documentsIn, documentsOf?, hlisted]

/-- An entity whose components are no list. -/
def brokenMob : Value :=
  .mapping [(.string "type", .string "entity"), (.string "id", .string "MobFelinid"),
    (.string "components", .string "oops")]

/-- A job. -/
def captain : Value :=
  .mapping [(.string "type", .string "job"), (.string "id", .string "Captain")]

/-- A parser of two texts: a list, and a mapping that has the list beside something else. -/
def parseMobs (text : String) : Except Yaml.Problem Value :=
  if text = "list" then .ok (.sequence [brokenMob, captain])
  else if text = "mapping" then
    .ok (.mapping [(.string "version", .atom (.int 2)),
      (.string "prototypes", .sequence [brokenMob, captain])])
  else .error .noToken

/-- The entity is kept by its type and its id, and the job behind it is read. -/
theorem text_is_loaded_whole_or_not_at_all_mobs :
    parseMobs "list" = .ok (.sequence [brokenMob, captain]) ∧
      (loadText parseMobs "list" ⟨"mobs.yml"⟩).run {} =
        .ok () { prototypes := [⟨.other "entity" (some "MobFelinid"), ⟨"mobs.yml"⟩⟩,
          ⟨.job ⟨"Captain", none⟩, ⟨"mobs.yml"⟩⟩] } ∧
      (loadText parseMobs "mapping" ⟨"mobs.yml"⟩).run {} =
        (loadText parseMobs "list" ⟨"mobs.yml"⟩).run {} ∧
      (loadText parseMobs "" ⟨"mobs.yml"⟩).run {} =
        .error (.yaml ⟨"mobs.yml"⟩ .noToken) {} := by
  obtain ⟨-, -, -, hsame, -⟩ :=
    text_is_loaded_whole_or_not_at_all parseMobs {} "list" ⟨"mobs.yml"⟩
  obtain ⟨-, -, hfails, -⟩ := text_is_loaded_whole_or_not_at_all parseMobs {} "" ⟨"mobs.yml"⟩
  exact ⟨rfl, rfl, hsame "mapping" _ _ rfl rfl rfl, (hfails _ _).2 ⟨rfl, .yaml rfl⟩⟩

end CatalogueM

end Station
