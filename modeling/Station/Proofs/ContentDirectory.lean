import Mathlib
import Station.Catalogue.Directory
import Station.Locale.Directory
import Station.Proofs.Loading
import Station.Proofs.Scan
import Station.Proofs.Table

/-!
# The content of a directory

The catalogue of a directory visits the YAML files below it, each once: a file adds its documents
under its path, or records one error about it (`Catalogue.AccountsFor`). The locale index of a
directory holds what the locale files below it define, unless one of them cannot be read.

This takes a directory whose name stands for itself in a pattern. A bracket in the name is read as a
class of characters, and then nothing may be found (`scanContent_bracketed`).
-/

namespace Station

open FileTree (Lists)
open Glob (HasExtension)

variable {tree : FileTree} {directory path : Path} {paths : List Path}

/-! ## The documents of one file -/

/-- A text is read through the events of its document. -/
theorem Yaml.parse_of_events {text : String} {events : List Yaml.Event} {d : Yaml.Document}
    {value : Yaml.Value} (hevents : (Yaml.tokensOf text >>= Yaml.eventsOf) = .ok events)
    (hvalue : d.value = .ok value) (hdocument : Yaml.Document.ofEvents events = .ok d) :
    Yaml.parse text = .ok value := by
  have htext : Yaml.Document.ofText text =
      (Yaml.tokensOf text >>= Yaml.eventsOf) >>= Yaml.Document.ofEvents := by
    rw [Yaml.Document.ofText]
    cases Yaml.tokensOf text <;> rfl
  rw [Yaml.parse, htext, hevents]
  exact (congrArg (· >>= Yaml.Document.value) hdocument).trans hvalue

/-- The file or directory that an error is about. -/
def ContentError.path? : ContentError → Option Path
  | .file path _ | .yaml path _ | .missingType path _ | .invalidShape path
  | .missingDirectory path => some path
  | .pattern _ => none

namespace Catalogue

/-- The documents of a file. -/
def documentsAt (tree : FileTree) (path : Path) : Except ContentError (List LoadedPrototype) :=
  match tree.readText path with
  | .error error => .error (.file path error)
  | .ok text =>
    match Yaml.parse text with
    | .error problem => .error (.yaml path problem)
    | .ok root =>
      match documentsOf? root with
      | none => .error (.invalidShape path)
      | some documents => readDocuments path 0 documents

theorem documentsAt_eq (tree : FileTree) (path : Path) :
    documentsAt tree path =
      match tree.readText path with
      | .error error => .error (.file path error)
      | .ok text => documentsIn path (Yaml.parse text) := by
  rw [documentsAt]
  cases tree.readText path with
  | error error => rfl
  | ok text =>
    dsimp only
    cases Yaml.parse text <;> rfl

/-- A file that cannot be read holds no documents, and the error says what the system said. -/
theorem documentsAt_of_unreadable {error : SystemError}
    (h : tree.find path = .ok (.unreadable error)) :
    documentsAt tree path = .error (.file path (.refused error)) := by
  rw [documentsAt_eq, FileTree.readText_of_unreadable h]

/-- A file adds its documents, or the error that keeps them from being read. -/
theorem addFile_eq (tree : FileTree) (c : Catalogue) (path : Path) :
    c.addFile tree path =
      match documentsAt tree path with
      | .ok loaded => { c with prototypes := c.prototypes ++ loaded }
      | .error error => c.record error := by
  rw [addFile, documentsAt_eq]
  cases tree.readText path with
  | error error => rfl
  | ok text =>
    simp only [addText_eq]
    cases documentsIn path (Yaml.parse text) <;> rfl

/-- Documents are read under the path of their file, and so is the error that stops them. -/
theorem documentsIn_path (path : Path) (parsed : Except Yaml.Problem Yaml.Value) :
    match documentsIn path parsed with
    | .ok loaded => ∀ document ∈ loaded, document.path = path
    | .error error => error.path? = some path := by
  cases hread : documentsIn path parsed with
  | ok loaded =>
    obtain ⟨-, documents, -, -, -, hrecords⟩ := of_documentsIn_eq_ok hread
    exact ((List.forall₂_and_left ..).1 hrecords.flip).1
  | error error => cases documentsIn_eq_error_iff.1 hread <;> rfl

theorem documentsAt_path (tree : FileTree) (path : Path) :
    match documentsAt tree path with
    | .ok loaded => ∀ document ∈ loaded, document.path = path
    | .error error => error.path? = some path := by
  rw [documentsAt_eq]
  cases tree.readText path with
  | error error => rfl
  | ok text => exact documentsIn_path path (Yaml.parse text)

/-! ## The documents of many files -/

/-- What a file adds to the documents. -/
def loadedAt (tree : FileTree) (path : Path) : List LoadedPrototype :=
  (documentsAt tree path).toOption.getD []

/-- What a file adds to the errors. -/
def failuresAt (tree : FileTree) (path : Path) : List ContentError :=
  match documentsAt tree path with
  | .ok _ => []
  | .error error => [error]

theorem path_of_mem_loadedAt {document : LoadedPrototype} (h : document ∈ loadedAt tree path) :
    document.path = path := by
  have hpath := documentsAt_path tree path
  rw [loadedAt] at h
  cases hread : documentsAt tree path with
  | error error =>
    rw [hread] at h
    cases h
  | ok loaded =>
    rw [hread] at h hpath
    exact hpath document h

theorem path?_of_mem_failuresAt {error : ContentError} (h : error ∈ failuresAt tree path) :
    error.path? = some path := by
  have hpath := documentsAt_path tree path
  rw [failuresAt] at h
  cases hread : documentsAt tree path with
  | error failure =>
    rw [hread] at h hpath
    rw [List.mem_singleton.1 h]
    exact hpath
  | ok loaded =>
    rw [hread] at h
    cases h

/-- Files are read one after the other, and none keeps another from being read. -/
theorem foldl_addFile (tree : FileTree) (paths : List Path) (c : Catalogue) :
    paths.foldl (addFile tree) c =
      ⟨c.prototypes ++ paths.flatMap (loadedAt tree),
        c.errors ++ paths.flatMap (failuresAt tree)⟩ := by
  induction paths generalizing c with
  | nil => simp
  | cons path rest ih =>
    rw [List.foldl_cons, ih, addFile_eq, List.flatMap_cons, List.flatMap_cons, loadedAt,
      failuresAt]
    cases documentsAt tree path <;> simp [record, Except.toOption]

/-- Of what many keys add under their own labels, a label finds what its key added. -/
theorem filter_flatMap_of_mem {κ α ν : Type} [DecidableEq ν] {add : κ → List α} {label : κ → ν}
    {labelOf : α → ν} (hlabel : Function.Injective label)
    (hadd : ∀ key, ∀ a ∈ add key, labelOf a = label key) {keys : List κ} (hnodup : keys.Nodup)
    {key : κ} (h : key ∈ keys) :
    (keys.flatMap add).filter (labelOf · = label key) = add key := by
  have hothers : ∀ others : List κ, key ∉ others →
      (others.flatMap add).filter (labelOf · = label key) = [] := by
    intro others hnotMem
    refine List.filter_eq_nil_iff.2 fun a ha => ?_
    obtain ⟨other, hother, ha⟩ := List.mem_flatMap.1 ha
    rw [hadd other a ha, decide_eq_true_eq, hlabel.eq_iff]
    rintro rfl
    exact hnotMem hother
  have hown : (add key).filter (labelOf · = label key) = add key :=
    List.filter_eq_self.2 fun a ha => decide_eq_true (hadd key a ha)
  -- before and after the key itself there is nothing under its label
  obtain ⟨before, after, rfl⟩ := List.append_of_mem h
  rw [List.nodup_append] at hnodup
  obtain ⟨-, hafter, hdisjoint⟩ := hnodup
  rw [List.flatMap_append, List.flatMap_cons, List.filter_append, List.filter_append, hown,
    hothers before fun hmem => hdisjoint key hmem key List.mem_cons_self rfl,
    hothers after (List.nodup_cons.1 hafter).1, List.nil_append, List.append_nil]

/-- A catalogue has visited exactly some files: each of them has either added its documents or been
recorded by one error, and everything in the catalogue is due to one of them. -/
structure AccountsFor (c : Catalogue) (tree : FileTree) (paths : List Path) : Prop where
  /-- A file has added what it holds, or one error. -/
  visited : ∀ path ∈ paths,
    (∃ loaded, documentsAt tree path = .ok loaded ∧
      c.prototypes.filter (·.path = path) = loaded ∧
      c.errors.filter (·.path? = some path) = []) ∨
    ∃ error, documentsAt tree path = .error error ∧
      c.prototypes.filter (·.path = path) = [] ∧
      c.errors.filter (·.path? = some path) = [error]
  /-- A document is attributed to one of the files. -/
  prototypes : ∀ document ∈ c.prototypes, document.path ∈ paths
  /-- An error is about one of the files. -/
  errors : ∀ error ∈ c.errors, ∃ path ∈ paths, error.path? = some path

theorem accountsFor_foldl (hnodup : paths.Nodup) :
    (paths.foldl (addFile tree) {}).AccountsFor tree paths := by
  rw [foldl_addFile, List.nil_append, List.nil_append]
  refine ⟨fun path hpath => ?_, fun document hdocument => ?_, fun error herror => ?_⟩
  · have hloaded : (paths.flatMap (loadedAt tree)).filter (·.path = path) = loadedAt tree path :=
      filter_flatMap_of_mem Function.injective_id (fun _ _ => path_of_mem_loadedAt) hnodup hpath
    have hfailures : (paths.flatMap (failuresAt tree)).filter (·.path? = some path) =
        failuresAt tree path :=
      filter_flatMap_of_mem (Option.some_injective Path) (fun _ _ => path?_of_mem_failuresAt)
        hnodup hpath
    rw [hloaded, hfailures, loadedAt, failuresAt]
    cases documentsAt tree path with
    | ok loaded => exact Or.inl ⟨loaded, rfl, rfl, rfl⟩
    | error error => exact Or.inr ⟨error, rfl, rfl, rfl⟩
  · obtain ⟨path, hpath, hmem⟩ := List.mem_flatMap.1 hdocument
    rwa [path_of_mem_loadedAt hmem]
  · obtain ⟨path, hpath, hmem⟩ := List.mem_flatMap.1 herror
    exact ⟨path, hpath, path?_of_mem_failuresAt hmem⟩

/-- No name has both extensions of YAML files. -/
theorem not_hasExtension_both {place : List String} (h : HasExtension "yml" place) :
    ¬ HasExtension "yaml" place := by
  intro hlong
  have hsuffix := List.suffix_of_suffix_length_le h hlong (by decide)
  exact absurd hsuffix (by decide)

/-- A regular file below a directory whose name has one of the extensions of YAML files. -/
def IsSource (tree : FileTree) (directory : Path) (place : List String) (node : FileNode) : Prop :=
  tree.Below directory place node ∧ node.isDirectory = false ∧
    (HasExtension "yml" place ∨ HasExtension "yaml" place)

/-- The scans of a directory yield the YAML files below it, each of them by one path. -/
theorem exists_scans (hroot : tree.root.Proper) (hdirectory : directory.Verbatim)
    (hexists : tree.isDirectory directory = true) :
    ∃ short long, scanContent tree directory "yml" = .ok short ∧
      scanContent tree directory "yaml" = .ok long ∧
      tree.Lists (IsSource tree directory) ((short ++ long).filter tree.isFile) := by
  obtain ⟨short, hshort, hlistsShort⟩ := Glob.scanContent_places "yml" hroot hdirectory hexists
    (by decide) (by decide)
  obtain ⟨long, hlong, hlistsLong⟩ := Glob.scanContent_places "yaml" hroot hdirectory hexists
    (by decide) (by decide)
  -- a file that both scans found would be read twice
  have hboth := hlistsShort.append hlistsLong fun _ _ _ hyml hyaml =>
    not_hasExtension_both hyml.2 hyaml.2
  have hfiles := hboth.files fun place node hnode => hnode.elim (·.1.descend?) (·.1.descend?)
  have hwanted : (fun place node =>
      (tree.Below directory place node ∧ HasExtension "yml" place ∨
        tree.Below directory place node ∧ HasExtension "yaml" place) ∧
      node.isDirectory = false) = IsSource tree directory := by
    funext place node
    rw [IsSource, eq_iff_iff]
    tauto
  exact ⟨short, long, hshort, hlong, hwanted ▸ hfiles⟩

/-- The catalogue of a directory visits the YAML files below it, each by one path. -/
theorem addDirectory_eq (hroot : tree.root.Proper) (hdirectory : directory.Verbatim)
    (hexists : tree.isDirectory directory = true) :
    ∃ paths, tree.Lists (IsSource tree directory) paths ∧
      addDirectory tree {} directory = .ok (paths.foldl (addFile tree) {}) := by
  obtain ⟨short, long, hshort, hlong, hfiles⟩ := exists_scans hroot hdirectory hexists
  refine ⟨_, hfiles.sort, ?_⟩
  rw [addDirectory, if_pos (FileTree.contains_of_isDirectory hexists), hshort, hlong]
  rfl

end Catalogue

/-! ## The places that locale files define -/

namespace LocaleIndex

/-- The places at which a file defines a key. -/
def placesIn (tree : FileTree) (key : String) (path : Path) : List KeyLocation :=
  match tree.readText path with
  | .error _ => []
  | .ok text =>
    ((Locale.definitions text).filter (·.1 = key)).map fun definition => ⟨path, definition.2⟩

theorem locations_add (index : LocaleIndex) (key probe : String) (location : KeyLocation) :
    (index.add key location).locations probe =
      index.locations probe ++ if key = probe then [location] else [] := by
  rw [locations, add, Table.get?_insert]
  by_cases h : key = probe
  · subst h
    simp
  · simp [h, locations, Ne.symm h]

theorem locations_addText (index : LocaleIndex) (text : String) (path : Path) (key : String) :
    (index.addText text path).locations key = index.locations key ++
      ((Locale.definitions text).filter (·.1 = key)).map fun definition =>
        ⟨path, definition.2⟩ := by
  rw [addText]
  induction Locale.definitions text generalizing index with
  | nil => simp
  | cons definition rest ih =>
    rw [List.foldl_cons, ih, locations_add, List.filter_cons]
    by_cases h : definition.1 = key <;> simp [h]

/-- An index of files holds what they define, in the order of the files. The first file that cannot
be read stops it. -/
theorem foldlM_addFile (tree : FileTree) (paths : List Path) (index : LocaleIndex) :
    (∃ indexed, paths.foldlM (addFile tree) index = .ok indexed ∧
      (∀ path ∈ paths, ∃ text, tree.readText path = .ok text) ∧
      ∀ key, indexed.locations key = index.locations key ++ paths.flatMap (placesIn tree key)) ∨
    ∃ path ∈ paths, ∃ error, tree.readText path = .error error ∧
      paths.foldlM (addFile tree) index = .error (.file path error) := by
  induction paths generalizing index with
  | nil => exact Or.inl ⟨index, rfl, by simp⟩
  | cons path rest ih =>
    cases hread : tree.readText path with
    | error error =>
      refine Or.inr ⟨path, List.mem_cons_self, error, hread, ?_⟩
      rw [List.foldlM_cons, addFile, hread]
      rfl
    | ok text =>
      have hcons : (path :: rest).foldlM (addFile tree) index =
          rest.foldlM (addFile tree) (index.addText text path) := by
        rw [List.foldlM_cons, addFile, hread]
        rfl
      rw [hcons]
      rcases ih (index.addText text path) with
        ⟨indexed, heq, hall, hlocations⟩ | ⟨other, hother, error, herror, heq⟩
      · refine Or.inl ⟨indexed, heq, ?_, fun key => ?_⟩
        · intro other hother
          rcases List.mem_cons.1 hother with rfl | hother
          · exact ⟨text, hread⟩
          · exact hall other hother
        · rw [hlocations, locations_addText, List.flatMap_cons, placesIn, hread,
            List.append_assoc]
      · exact Or.inr ⟨other, List.mem_cons_of_mem _ hother, error, herror, heq⟩

/-- What lies below a directory under a name that has the extension of locale files. -/
def IsSource (tree : FileTree) (directory : Path) (place : List String) (node : FileNode) : Prop :=
  tree.Below directory place node ∧ HasExtension "ftl" place

/-- The index of a directory reads whatever below it has the name of a locale file. -/
theorem ofDirectory_eq (hroot : tree.root.Proper) (hdirectory : directory.Verbatim)
    (hexists : tree.isDirectory directory = true) :
    ∃ paths, tree.Lists (IsSource tree directory) paths ∧
      ofDirectory tree directory = paths.foldlM (addFile tree) {} := by
  obtain ⟨yielded, hyielded, hlists⟩ := Glob.scanContent_places "ftl" hroot hdirectory hexists
    (by decide) (by decide)
  refine ⟨Path.sort yielded, hlists.sort, ?_⟩
  rw [ofDirectory, if_pos (FileTree.contains_of_isDirectory hexists), hyielded]
  rfl

end LocaleIndex

/-! ## A directory -/

/-- Below a directory whose name stands for itself, the catalogue visits exactly the YAML files,
each of them once, and is made. The locale index reads exactly what has the name of a locale file,
each once, and holds what is defined there, unless something with such a name has no text. -/
theorem content_below_is_visited_once (hroot : tree.root.Proper) (hdirectory : directory.Verbatim)
    (hexists : tree.isDirectory directory = true) :
    (∃ paths c, tree.Lists (Catalogue.IsSource tree directory) paths ∧
      Catalogue.addDirectory tree {} directory = .ok c ∧ c.AccountsFor tree paths) ∧
      ∃ paths, tree.Lists (LocaleIndex.IsSource tree directory) paths ∧
        ((∃ index, LocaleIndex.ofDirectory tree directory = .ok index ∧
          (∀ path ∈ paths, ∃ text, tree.readText path = .ok text) ∧
          ∀ key, index.locations key = paths.flatMap (LocaleIndex.placesIn tree key)) ∨
        ∃ path ∈ paths, ∃ error, tree.readText path = .error error ∧
          LocaleIndex.ofDirectory tree directory = .error (.file path error)) := by
  constructor
  · obtain ⟨paths, hlists, heq⟩ := Catalogue.addDirectory_eq hroot hdirectory hexists
    exact ⟨paths, _, hlists, heq, Catalogue.accountsFor_foldl (hlists.nodup.of_map tree.locate)⟩
  · obtain ⟨paths, hlists, heq⟩ := LocaleIndex.ofDirectory_eq hroot hdirectory hexists
    refine ⟨paths, hlists, ?_⟩
    rw [heq]
    exact LocaleIndex.foldlM_addFile tree paths {}

/-- A directory with files at two depths. -/
def shelf : FileTree where
  root := .directory [("p", .directory [("a.yml", .file "[]".toUTF8),
    ("b", .directory [("c.yaml", .file "x".toUTF8), ("d.ftl", .file "k = v".toUTF8)])])]

theorem proper_shelf : shelf.root.Proper :=
  .directory (by decide) (by decide) <| List.forall_mem_singleton.2 <|
    .directory (by decide) (by decide) <| List.forall_mem_cons.2
      ⟨.leaf rfl, List.forall_mem_singleton.2 <|
        .directory (by decide) (by decide) <| List.forall_mem_cons.2
          ⟨.leaf rfl, List.forall_mem_singleton.2 (.leaf rfl)⟩⟩

theorem content_below_is_visited_once_shelf :
    shelf.root.Proper ∧ (⟨"p"⟩ : Path).Verbatim ∧ shelf.isDirectory ⟨"p"⟩ = true ∧
      ∃ paths c, shelf.Lists (Catalogue.IsSource shelf ⟨"p"⟩) paths ∧
        Catalogue.addDirectory shelf {} ⟨"p"⟩ = .ok c ∧ c.AccountsFor shelf paths := by
  have hverbatim : (⟨"p"⟩ : Path).Verbatim := ⟨by decide, by decide⟩
  have hexists : shelf.isDirectory ⟨"p"⟩ = true := by decide
  exact ⟨proper_shelf, hverbatim, hexists,
    (content_below_is_visited_once proper_shelf hverbatim hexists).1⟩

/-! ## Brackets -/

/-- A directory with a class of characters in its name, and one file in it. -/
def bracketed : FileTree where
  root := .directory [("a[b]", .directory [("x.yml", .file "- 'type': 'job'\n  'id': 'A'".toUTF8)])]

/-- The class stands for one letter, so no entry of the working directory has the name. -/
theorem find_bracketed (rest : List (List Glob.Token)) :
    Glob.find bracketed ([.literal 'a', .oneOf [.single 'b']] :: rest) ⟨"."⟩ = [] := by
  have hentries : Glob.entriesOf bracketed ⟨"."⟩ = [(⟨"a[b]"⟩, "a[b]")] := by decide
  have hmatches : Glob.matchesAll [.literal 'a', .oneOf [.single 'b']] "a[b]".toList = false := by
    simp [Glob.matchesAll, Glob.Listed.covers]
  rw [Glob.find.eq_def]
  simp only [Glob.literal?, Option.map_none, Glob.isChain, Glob.dotEntries, hentries,
    List.flatMap_cons, hmatches]
  simp

theorem scanContent_bracketed {extension : String} (hliteral : Glob.IsLiteral extension.toList)
    (hpiece : Path.IsPiece extension) :
    scanContent bracketed ⟨"a[b]"⟩ extension = .ok [] := by
  have hclass : ∀ rest, Glob.bracket ('b' :: ']' :: rest) = some (.oneOf [.single 'b'], rest) :=
    fun _ => rfl
  have hname : Glob.parse "a[b]" = .ok [.literal 'a', .oneOf [.single 'b']] := by
    simp [Glob.parse, Glob.parseFrom_cons, Glob.parseFrom_bracket (hclass _), Glob.parseFrom]
  have hpattern : ∃ tokens,
      Glob.parse (contentPattern ⟨"a[b]"⟩ extension).text = .ok tokens := by
    have htext : (Path.withSlash ⟨"a[b]"⟩ ++ "**/*." ++ extension).toList =
        'a' :: '[' :: 'b' :: ']' :: '/' :: '*' :: '*' :: '/' :: '*' :: '.' ::
          extension.toList := by
      simp [Path.withSlash]
    rw [Glob.text_contentPattern (by decide) hpiece]
    simp [Glob.parse, htext, Glob.parseFrom_cons, Glob.parseFrom_bracket (hclass _),
      Glob.parseFrom, Glob.parseFrom_of_isLiteral hliteral]
  obtain ⟨tokens, hpattern⟩ := hpattern
  have hpieces : (contentPattern ⟨"a[b]"⟩ extension).pieces = ["a[b]", "**", "*." ++ extension] :=
    Glob.pieces_contentPattern (by decide) hpiece
  have habsolute : (contentPattern ⟨"a[b]"⟩ extension).isAbsolute = false :=
    Glob.isAbsolute_contentPattern (by decide) hpiece
  have hcomponents : ["a[b]", "**", "*." ++ extension].mapM Glob.parse =
      .ok ([.literal 'a', .oneOf [.single 'b']] ::
        [[.anyChain], .anyRun :: Glob.literals ("." ++ extension)]) := by
    rw [List.mapM_cons, List.mapM_cons, List.mapM_cons, hname, Glob.parse_chain,
      Glob.parse_extension hliteral]
    rfl
  rw [scanContent, Glob.scan, hpattern]
  simp only [habsolute, hpieces, Bool.false_eq_true, if_false, bind, Except.bind, hcomponents,
    find_bracketed]
  rfl

/-- A text that holds one job. -/
theorem documentsAt_job (h : tree.readText path = .ok "- 'type': 'job'\n  'id': 'A'") :
    Catalogue.documentsAt tree path = .ok [⟨.job ⟨"A", none⟩, path⟩] := by
  let document : Yaml.Value := .mapping [(.atom (.string "type"), .atom (.string "job")),
    (.atom (.string "id"), .atom (.string "A"))]
  have hevents : (Yaml.tokensOf "- 'type': 'job'\n  'id': 'A'" >>= Yaml.eventsOf) =
      .ok [.sequenceStart {}, .mappingStart {}, .scalar {} "type" .quoted,
        .scalar {} "job" .quoted, .scalar {} "id" .quoted, .scalar {} "A" .quoted, .mappingEnd,
        .sequenceEnd] := by
    decide +kernel
  have hvalue : Yaml.Document.value ⟨some (.sequence none [.mapping none
      [(.scalar none "type" .quoted, .scalar none "job" .quoted),
        (.scalar none "id" .quoted, .scalar none "A" .quoted)]]), [], 8⟩ =
      .ok (.sequence [document]) := by
    cbv
  have hjob : Prototype.ofDocument? document = some (.job ⟨"A", none⟩) := by decide +kernel
  rw [Catalogue.documentsAt, h]
  simp only [Yaml.parse_of_events hevents hvalue rfl, documentsOf?, readDocuments, hjob]
  rfl

/-- The directory exists and holds a YAML file, and the catalogue does not visit it. -/
theorem content_in_brackets_is_not_visited :
    bracketed.root.Proper ∧ bracketed.isDirectory ⟨"a[b]"⟩ = true ∧
      ¬ ∃ paths c, bracketed.Lists (Catalogue.IsSource bracketed ⟨"a[b]"⟩) paths ∧
        Catalogue.addDirectory bracketed {} ⟨"a[b]"⟩ = .ok c ∧ c.AccountsFor bracketed paths := by
  have hproper : bracketed.root.Proper :=
    .directory (by decide) (by decide) <| List.forall_mem_singleton.2 <|
      .directory (by decide) (by decide) <| List.forall_mem_singleton.2 (.leaf rfl)
  refine ⟨hproper, by decide, ?_⟩
  rintro ⟨paths, c, hlists, hadded, haccounts⟩
  -- nothing was read
  have hnone : Catalogue.addYielded bracketed {} [] = {} := by
    simp [Catalogue.addYielded, Path.sort]
  have hempty : Catalogue.addDirectory bracketed {} ⟨"a[b]"⟩ = .ok {} := by
    rw [Catalogue.addDirectory, if_pos (by decide), scanContent_bracketed (by decide) (by decide),
      scanContent_bracketed (by decide) (by decide)]
    exact congrArg Except.ok hnone
  obtain rfl := Except.ok.inj (hempty.symm.trans hadded)
  -- but the file is one of those to visit
  have hsource : Catalogue.IsSource bracketed ⟨"a[b]"⟩ ["a[b]", "x.yml"]
      (.file "- 'type': 'job'\n  'id': 'A'".toUTF8) :=
    ⟨⟨["a[b]"], ["x.yml"], by decide, by decide, rfl, rfl⟩, rfl, Or.inl (by decide)⟩
  obtain ⟨path, hpath, hlocate⟩ :=
    List.mem_map.1 ((hlists.mem_iff _).2 ⟨_, _, rfl, hsource⟩)
  have hjob := documentsAt_job (FileTree.readText_of_find (FileTree.find_of_locate hlocate rfl))
  rcases haccounts.visited path hpath with ⟨loaded, hloaded, hfiltered, -⟩ | ⟨error, herror, -⟩
  · rw [hjob] at hloaded
    rw [← Except.ok.inj hloaded] at hfiltered
    cases hfiltered
  · rw [hjob] at herror
    cases herror

end Station
