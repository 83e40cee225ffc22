import Station.Proofs.ContentDirectory
import Station.Proofs.Loading
import Station.Proofs.PathOrder

/-!
# Loading a directory

`CatalogueM.loadDirectory` loads the files that two scans yield, step by step. A file that fails is
recorded and the next one is loaded, so all of it is a fold over the sorted files
(`run_loadDirectory`), and only the scans themselves can fail.

`Yields` says that the scans yield some files, each of them once. Then nothing depends on the order
in which they do (`Yields.sort_eq`). The scans of a directory whose name stands for itself are such
scans (`yields_scanContent`). The names of other directories are patterns, and may match one file in
more than one way: then it is loaded twice (`file_is_recorded_twice`).
-/

namespace Station

variable {tree other : FileTree} {directory path : Path}

/-! ## One file -/

/-- The errors of a file that adds no documents. -/
inductive ContentError.Fails (tree : FileTree) (path : Path) : ContentError → Prop
  /-- The file has no text. -/
  | unread {error : FileError} (failed : tree.readText path = .error error) :
      Fails tree path (.file path error)
  /-- The text of the file is refused. -/
  | refused {text : String} {error : ContentError} (read : tree.readText path = .ok text)
      (refused : Refused path (Yaml.parse text) error) : Fails tree path error

namespace Catalogue

/-- A file that holds documents, all of which name their type, and adds one entry for each. -/
def Loads (tree : FileTree) (path : Path) (loaded : List LoadedPrototype) : Prop :=
  ∃ text root documents, tree.readText path = .ok text ∧ Yaml.parse text = .ok root ∧
    root.Holds documents ∧ (∀ document ∈ documents, document.typeName?.isSome) ∧
    List.Forall₂ (Records path) documents loaded

/-- What a file holds is decided by its text. -/
theorem documentsAt_congr (h : tree.readText path = other.readText path) :
    documentsAt tree path = documentsAt other path := by
  rw [documentsAt_eq, documentsAt_eq, h]

theorem documentsAt_eq_error_iff {error : ContentError} :
    documentsAt tree path = .error error ↔ ContentError.Fails tree path error := by
  rw [documentsAt_eq]
  constructor
  · intro h
    split at h
    · rename_i hread
      cases h
      exact .unread hread
    · rename_i hread
      exact .refused hread (documentsIn_eq_error_iff.1 h)
  · intro h
    cases h with
    | unread failed => simp only [failed]
    | refused read refused => simp only [read, documentsIn_eq_error_iff.2 refused]

theorem loads_of_documentsAt {loaded : List LoadedPrototype}
    (h : documentsAt tree path = .ok loaded) : Loads tree path loaded := by
  rw [documentsAt_eq] at h
  split at h
  · cases h
  · rename_i text hread
    obtain ⟨root, documents, hparse, hholds, htyped, hrecords⟩ := of_documentsIn_eq_ok h
    exact ⟨text, root, documents, hread, hparse, hholds, htyped, hrecords⟩

/-- A file adds its documents or one error, never both. -/
theorem loads_or_fails (tree : FileTree) (path : Path) :
    (Loads tree path (loadedAt tree path) ∧ failuresAt tree path = []) ∨
      ∃ error, ContentError.Fails tree path error ∧ loadedAt tree path = [] ∧
        failuresAt tree path = [error] := by
  rw [loadedAt, failuresAt]
  cases h : documentsAt tree path with
  | ok loaded => exact Or.inl ⟨loads_of_documentsAt h, rfl⟩
  | error error => exact Or.inr ⟨error, documentsAt_eq_error_iff.1 h, rfl, rfl⟩

/-- What some files add is decided by their texts. -/
theorem flatMap_congr {files : List Path}
    (h : ∀ path ∈ files, tree.readText path = other.readText path) :
    files.flatMap (loadedAt tree) = files.flatMap (loadedAt other) ∧
      files.flatMap (failuresAt tree) = files.flatMap (failuresAt other) := by
  constructor <;> refine List.flatMap_congr fun path hpath => ?_
  · rw [loadedAt, loadedAt, documentsAt_congr (h path hpath)]
  · rw [failuresAt, failuresAt, documentsAt_congr (h path hpath)]

end Catalogue

/-! ## Loading step by step -/

namespace CatalogueM

open Catalogue (addFile addYielded addDirectory documentsAt loadedAt failuresAt)

/-- Loads a file. -/
def loadFile (tree : FileTree) (path : Path) : CatalogueM Unit :=
  match tree.readText path with
  | .error error => throw (.file path error)
  | .ok text => loadText Yaml.parse text path

/-- Loads a file, or records why it fails. -/
def loadOrRecord (tree : FileTree) (path : Path) : CatalogueM Unit :=
  try loadFile tree path catch error => modify (·.record error)

/-- Scans for files by their extensions and keeps the regular ones. -/
def filesOf (tree : FileTree) (scan : String → Except ContentError (List Path)) :
    CatalogueM (List Path) := do
  let mut files := []
  for extension in ["yml", "yaml"] do
    let yielded ← MonadExcept.ofExcept (scan extension)
    files := files ++ yielded.filter tree.isFile
  return files

/-- Loads the files that scans of a directory yield, in order. -/
def loadDirectory (tree : FileTree) (scan : String → Except ContentError (List Path))
    (directory : Path) : CatalogueM Unit := do
  if tree.contains directory then
    let files ← filesOf tree scan
    for path in Path.sort files do
      loadOrRecord tree path
  else modify (·.record (.missingDirectory directory))

theorem run_loadFile (tree : FileTree) (path : Path) (c : Catalogue) :
    (loadFile tree path).run c =
      match documentsAt tree path with
      | .ok loaded => .ok () { c with prototypes := c.prototypes ++ loaded }
      | .error error => .error error c := by
  rw [loadFile, Catalogue.documentsAt_eq]
  cases tree.readText path with
  | error error => rfl
  | ok text => exact run_loadText Yaml.parse text path c

/-- A file that fails has left nothing behind but its error. -/
theorem run_loadOrRecord (tree : FileTree) (path : Path) (c : Catalogue) :
    (loadOrRecord tree path).run c = .ok () (c.addFile tree path) := by
  rw [loadOrRecord, run_tryCatch, run_loadFile, Catalogue.addFile_eq]
  cases documentsAt tree path <;> rfl

/-- The loop goes through all of the files. -/
theorem run_forIn_loadOrRecord (tree : FileTree) (paths : List Path) (c : Catalogue) :
    (forIn paths PUnit.unit fun path _ => do
        loadOrRecord tree path
        pure (ForInStep.yield PUnit.unit) : CatalogueM PUnit).run c =
      .ok () (paths.foldl (addFile tree) c) := by
  induction paths generalizing c with
  | nil => rfl
  | cons path rest ih =>
    rw [List.forIn_cons]
    simp only [EStateM.run_bind, run_loadOrRecord]
    exact ih _

theorem run_filesOf (tree : FileTree) (scan : String → Except ContentError (List Path))
    (c : Catalogue) :
    (filesOf tree scan).run c =
      match scan "yml", scan "yaml" with
      | .ok short, .ok long => .ok ((short ++ long).filter tree.isFile) c
      | .ok _, .error error => .error error c
      | .error error, _ => .error error c := by
  simp only [filesOf, List.forIn_cons]
  cases scan "yml" with
  | error error => rfl
  | ok short =>
    cases scan "yaml" with
    | error error => rfl
    | ok long =>
      simp only [List.filter_append]
      rfl

/-- Only the scans can fail, and then nothing has been loaded. -/
theorem run_loadDirectory (scan : String → Except ContentError (List Path)) (c : Catalogue)
    (hexists : tree.contains directory = true) :
    (loadDirectory tree scan directory).run c =
      match scan "yml", scan "yaml" with
      | .ok short, .ok long => .ok () (c.addYielded tree (short ++ long))
      | .ok _, .error error => .error error c
      | .error error, _ => .error error c := by
  rw [loadDirectory, if_pos hexists, EStateM.run_bind, run_filesOf]
  cases scan "yml" with
  | error error => rfl
  | ok short =>
    cases scan "yaml" with
    | error error => rfl
    | ok long =>
      simp only [bind_pure_unit]
      exact run_forIn_loadOrRecord tree _ c

/-- A catalogue is returned where the loading of a directory ends, and an error where it fails. -/
theorem run_loadDirectory_scanContent (tree : FileTree) (directory : Path) (c : Catalogue) :
    (loadDirectory tree (scanContent tree directory) directory).run c =
      match c.addDirectory tree directory with
      | .ok added => .ok () added
      | .error error => .error error c := by
  by_cases hexists : tree.contains directory = true
  · rw [run_loadDirectory _ _ hexists, addDirectory, if_pos hexists]
    cases scanContent tree directory "yml" with
    | error error => rfl
    | ok short => cases scanContent tree directory "yaml" <;> rfl
  · rw [loadDirectory, addDirectory, if_neg hexists, if_neg hexists]
    rfl

/-! ## The order of the scans -/

/-- Two scans yield some regular files, each of them once, in whatever order and with whatever
directories between them. -/
structure Yields (tree : FileTree) (scan : String → Except ContentError (List Path))
    (files : List Path) : Prop where
  /-- Of what the scans yield, the files are what is a regular file. -/
  yielded : ∃ short long, scan "yml" = .ok short ∧ scan "yaml" = .ok long ∧
    ((short ++ long).filter tree.isFile).Perm files
  /-- The files are listed in the order of their paths. -/
  ascending : Path.Ascending files

variable {scan rescan : String → Except ContentError (List Path)} {files more : List Path}

/-- All that is left of the scans is the list of the files. -/
theorem Yields.run (h : Yields tree scan files) (hexists : tree.contains directory = true)
    (c : Catalogue) :
    (loadDirectory tree scan directory).run c =
      .ok () ⟨c.prototypes ++ files.flatMap (loadedAt tree),
        c.errors ++ files.flatMap (failuresAt tree)⟩ := by
  obtain ⟨short, long, hshort, hlong, hperm⟩ := h.yielded
  rw [run_loadDirectory scan c hexists, hshort, hlong]
  simp only [addYielded, Path.sort_eq_of_perm hperm h.ascending, Catalogue.foldl_addFile]

/-- The same files with the same texts are loaded with the same outcome. -/
theorem Yields.run_congr (h : Yields tree scan files) (hmore : Yields other rescan more)
    (hexists : tree.contains directory = true) (hother : other.contains directory = true)
    (hmem : ∀ path, path ∈ more ↔ path ∈ files)
    (htexts : ∀ path ∈ files, other.readText path = tree.readText path) (c : Catalogue) :
    (loadDirectory other rescan directory).run c = (loadDirectory tree scan directory).run c := by
  obtain rfl := hmore.ascending.eq_of_mem_iff h.ascending hmem
  obtain ⟨hloaded, hfailures⟩ := Catalogue.flatMap_congr htexts
  rw [h.run hexists, hmore.run hother, hloaded, hfailures]

/-- One more file that fails adds its error in its place, and that is all. -/
theorem Yields.run_insert {extra : Path} {error : ContentError} (h : Yields tree scan files)
    (hmore : Yields other rescan more) (hother : other.contains directory = true)
    (hnew : extra ∉ files) (hmem : ∀ path, path ∈ more ↔ path ∈ files ∨ path = extra)
    (htexts : ∀ path ∈ files, other.readText path = tree.readText path)
    (hfails : ContentError.Fails other extra error) (c : Catalogue) :
    ∃ before after, files = before ++ after ∧ more = before ++ extra :: after ∧
      (loadDirectory other rescan directory).run c =
        .ok () ⟨c.prototypes ++ files.flatMap (loadedAt tree),
          c.errors ++ (before.flatMap (failuresAt tree) ++
            error :: after.flatMap (failuresAt tree))⟩ := by
  obtain ⟨before, after, rfl, rfl⟩ := h.ascending.exists_insert hmore.ascending hnew hmem
  refine ⟨before, after, rfl, rfl, ?_⟩
  have hbefore := Catalogue.flatMap_congr fun path hpath =>
    htexts path (List.mem_append_left after hpath)
  have hafter := Catalogue.flatMap_congr fun path hpath =>
    htexts path (List.mem_append_right before hpath)
  have hdocuments := Catalogue.documentsAt_eq_error_iff.2 hfails
  have hloaded : loadedAt other extra = [] := by
    rw [loadedAt, hdocuments]
    rfl
  have hfailures : failuresAt other extra = [error] := by
    rw [failuresAt, hdocuments]
  rw [hmore.run hother]
  simp only [List.flatMap_append, List.flatMap_cons, hbefore, hafter, hloaded, hfailures,
    List.nil_append, List.singleton_append]

theorem run_loadDirectory_eq_error_iff {c left : Catalogue} {error : ContentError}
    (hexists : tree.contains directory = true) :
    (loadDirectory tree scan directory).run c = .error error left ↔
      left = c ∧ (scan "yml" = .error error ∨
        (∃ short, scan "yml" = .ok short) ∧ scan "yaml" = .error error) := by
  rw [run_loadDirectory scan c hexists]
  cases scan "yml" with
  | error error => simp [and_comm, eq_comm]
  | ok short => cases scan "yaml" <;> simp [and_comm, eq_comm]

/-- The scans of a directory whose name stands for itself yield each file once. -/
theorem exists_yields_scanContent (hroot : tree.root.Proper) (hdirectory : directory.Verbatim)
    (hexists : tree.isDirectory directory = true) :
    ∃ files, Yields tree (scanContent tree directory) files := by
  obtain ⟨short, long, hshort, hlong, hfiles⟩ :=
    Catalogue.exists_scans hroot hdirectory hexists
  refine ⟨_, ⟨short, long, hshort, hlong, (List.mergeSort_perm _ _).symm⟩,
    Path.ascending_sort ?_⟩
  -- alike paths would lead to the same place
  refine (List.pairwise_map.1 hfiles.nodup).imp_of_mem fun {p q} hp hq hne hsame => hne ?_
  obtain ⟨first, -, hfirst, -⟩ := hfiles.exists_of_mem hp
  obtain ⟨second, -, hsecond, -⟩ := hfiles.exists_of_mem hq
  rw [hfirst, hsecond, FileTree.locate_eq_of_compare_eq hfirst hsecond hsame]

/-! ## A directory -/

/-- Whatever the order in which the scans of a directory yield its files, each of them that loads
adds its documents and each one that fails adds its error, in the order of their paths. Nothing else
matters, so one more file that fails changes nothing but the errors. Only a scan can keep the
directory from being loaded, and then nothing has changed. -/
theorem directory_is_loaded_file_by_file (hexists : tree.contains directory = true)
    (scan : String → Except ContentError (List Path)) (c : Catalogue) :
    let loading := (loadDirectory tree scan directory).run c
    (∀ files, Yields tree scan files →
      loading = .ok () ⟨c.prototypes ++ files.flatMap (loadedAt tree),
        c.errors ++ files.flatMap (failuresAt tree)⟩) ∧
    (∀ path, (Catalogue.Loads tree path (loadedAt tree path) ∧ failuresAt tree path = []) ∨
      ∃ error, ContentError.Fails tree path error ∧ loadedAt tree path = [] ∧
        failuresAt tree path = [error]) ∧
    (∀ files other rescan more, Yields tree scan files → Yields other rescan more →
      other.contains directory = true → (∀ path, path ∈ more ↔ path ∈ files) →
      (∀ path ∈ files, other.readText path = tree.readText path) →
      (loadDirectory other rescan directory).run c = loading) ∧
    (∀ files other rescan more extra error, Yields tree scan files → Yields other rescan more →
      other.contains directory = true → extra ∉ files →
      (∀ path, path ∈ more ↔ path ∈ files ∨ path = extra) →
      (∀ path ∈ files, other.readText path = tree.readText path) →
      ContentError.Fails other extra error →
      ∃ before after, files = before ++ after ∧ more = before ++ extra :: after ∧
        (loadDirectory other rescan directory).run c =
          .ok () ⟨c.prototypes ++ files.flatMap (loadedAt tree),
            c.errors ++ (before.flatMap (failuresAt tree) ++
              error :: after.flatMap (failuresAt tree))⟩) ∧
    (∀ error left, loading = .error error left ↔
      left = c ∧ (scan "yml" = .error error ∨
        (∃ short, scan "yml" = .ok short) ∧ scan "yaml" = .error error)) ∧
    ((loadDirectory tree (scanContent tree directory) directory).run c =
      match c.addDirectory tree directory with
      | .ok added => .ok () added
      | .error error => .error error c) ∧
    (tree.root.Proper → directory.Verbatim → tree.isDirectory directory = true →
      ∃ files, Yields tree (scanContent tree directory) files) := by
  intro loading
  refine ⟨?_, Catalogue.loads_or_fails tree, ?_, ?_, ?_, ?_, exists_yields_scanContent⟩
  · exact fun files hfiles => hfiles.run hexists c
  · exact fun files other rescan more hfiles hmore hother hmem htexts =>
      hfiles.run_congr hmore hexists hother hmem htexts c
  · exact fun files other rescan more extra error hfiles hmore hother hnew hmem htexts hfails =>
      hfiles.run_insert hmore hother hnew hmem htexts hfails c
  · exact fun error left => run_loadDirectory_eq_error_iff hexists
  · exact run_loadDirectory_scanContent tree directory c

/-- A directory with a file that is no text, a file that cannot be read, a file with a job and a
directory whose name is like that of a file. -/
def mixed : FileTree where
  root := .directory [("d", .directory [("c.yml", .directory []), ("b.yml", .file ⟨#[0xff]⟩),
    ("e.yml", .unreadable ⟨13, "Permission denied"⟩),
    ("a.yaml", .file "- 'type': 'job'\n  'id': 'A'".toUTF8)])]

/-- Scans that yield the entries as they stand. -/
def scanMixed (extension : String) : Except ContentError (List Path) :=
  .ok (if extension = "yml" then [⟨"d/c.yml"⟩, ⟨"d/b.yml"⟩, ⟨"d/e.yml"⟩] else [⟨"d/a.yaml"⟩])

theorem yields_mixed :
    Yields mixed scanMixed [⟨"d/a.yaml"⟩, ⟨"d/b.yml"⟩, ⟨"d/e.yml"⟩] where
  yielded := ⟨_, _, rfl, rfl, by decide⟩
  ascending := by simp [Path.Ascending]; decide

/-- The job is loaded and the other files are recorded. -/
theorem directory_is_loaded_file_by_file_mixed :
    mixed.contains ⟨"d"⟩ = true ∧
      Yields mixed scanMixed [⟨"d/a.yaml"⟩, ⟨"d/b.yml"⟩, ⟨"d/e.yml"⟩] ∧
      (loadDirectory mixed scanMixed ⟨"d"⟩).run {} =
        .ok () ⟨[⟨.job ⟨"A", none⟩, ⟨"d/a.yaml"⟩⟩], [.file ⟨"d/b.yml"⟩ .notText,
          .file ⟨"d/e.yml"⟩ (.refused ⟨13, "Permission denied"⟩)]⟩ := by
  have hexists : mixed.contains ⟨"d"⟩ = true := by decide
  obtain ⟨hloads, -⟩ := directory_is_loaded_file_by_file hexists scanMixed {}
  have hjob : documentsAt mixed ⟨"d/a.yaml"⟩ = .ok [⟨.job ⟨"A", none⟩, ⟨"d/a.yaml"⟩⟩] :=
    documentsAt_job (FileTree.readText_of_find rfl)
  have herror : documentsAt mixed ⟨"d/b.yml"⟩ = .error (.file ⟨"d/b.yml"⟩ .notText) := by
    have hread : mixed.readText ⟨"d/b.yml"⟩ = .error .notText := by decide
    rw [Catalogue.documentsAt_eq, hread]
  have hrefused : documentsAt mixed ⟨"d/e.yml"⟩ =
      .error (.file ⟨"d/e.yml"⟩ (.refused ⟨13, "Permission denied"⟩)) :=
    Catalogue.documentsAt_of_unreadable rfl
  refine ⟨hexists, yields_mixed, (hloads _ yields_mixed).trans ?_⟩
  simp [loadedAt, failuresAt, hjob, herror, hrefused, Except.toOption]

/-! ## A name that matches itself in two ways -/

/-- A file below a directory whose name is a pattern of itself. -/
def twice : FileTree where
  root := .directory [("**", .directory [("*", .directory [("f.yml", .file ⟨#[0xff]⟩)])])]

/-- The chain stands for the directories above the file, or for none. -/
theorem find_twice (extension : String) :
    Glob.find twice [[.anyChain], [.anyRun], [.anyChain],
        .anyRun :: Glob.literals ("." ++ extension)] ⟨"."⟩ =
      [⟨"**"⟩, ⟨"**/*"⟩].flatMap
        (Glob.find twice [[.anyChain], .anyRun :: Glob.literals ("." ++ extension)]) := by
  have hhere : twice.isDirectory ⟨"."⟩ = true := by decide
  have hbelow : Glob.allBelow twice ⟨"."⟩ =
      [(⟨"**"⟩, "**"), (⟨"**/*"⟩, "*"), (⟨"**/*/f.yml"⟩, "f.yml")] := by decide
  have hmatches : ∀ name : String, Glob.matchesAll [.anyRun] name.toList = true := fun name =>
    (Glob.matchesAll_anyRun [] name.toList).2 List.nil_suffix
  -- the chain leads to the file as well, but nothing lies below it
  have hfile : twice.isDirectory ⟨"**/*/f.yml"⟩ = false := by decide
  have hnone : Glob.find twice [[.anyChain], .anyRun :: Glob.literals ("." ++ extension)]
      ⟨"**/*/f.yml"⟩ = [] := by
    rw [Glob.find.eq_def]
    simp [Glob.literal?, hfile]
  rw [Glob.find.eq_def]
  simp only [Glob.literal?, hhere, Glob.isChain, hbelow, List.flatMap_cons, List.flatMap_nil,
    hmatches]
  simp [hnone]

theorem scanContent_twice {extension : String} (hliteral : Glob.IsLiteral extension.toList)
    (hpiece : Path.IsPiece extension) :
    scanContent twice ⟨"**/*"⟩ extension =
      .ok (((Glob.withExtension extension [("*", .directory [("f.yml", .file ⟨#[0xff]⟩)])]).map
          fun found => Glob.pathTo ⟨"**"⟩ found.1) ++
        (Glob.withExtension extension [("f.yml", .file ⟨#[0xff]⟩)]).map
          fun found => Glob.pathTo ⟨"**/*"⟩ found.1) := by
  have hpattern : Glob.parse (contentPattern ⟨"**/*"⟩ extension).text =
      .ok (.anyChain :: .anyRun :: .literal '/' :: .anyChain :: .anyRun ::
        Glob.literals ("." ++ extension)) := by
    have htext : (contentPattern ⟨"**/*"⟩ extension).text.toList =
        '*' :: '*' :: '/' :: '*' :: '/' :: '*' :: '*' :: '/' :: '*' :: '.' ::
          extension.toList := by
      rw [Glob.text_contentPattern (by decide) hpiece]
      simp [Path.withSlash]
    simp [Glob.parse, htext, Glob.parseFrom, Glob.parseFrom_of_isLiteral hliteral, Glob.literals]
  have hpieces : (contentPattern ⟨"**/*"⟩ extension).pieces =
      ["**", "*", "**", "*." ++ extension] :=
    Glob.pieces_contentPattern (by decide) hpiece
  have habsolute : (contentPattern ⟨"**/*"⟩ extension).isAbsolute = false :=
    Glob.isAbsolute_contentPattern (by decide) hpiece
  have hcomponents : ["**", "*", "**", "*." ++ extension].mapM Glob.parse =
      .ok [[.anyChain], [.anyRun], [.anyChain],
        .anyRun :: Glob.literals ("." ++ extension)] := by
    have hrun : Glob.parse "*" = .ok [.anyRun] := by simp [Glob.parse, Glob.parseFrom]
    simp only [List.mapM_cons, List.mapM_nil, Glob.parse_chain, Glob.parse_extension hliteral,
      hrun]
    rfl
  have habove : twice.find ⟨"**"⟩ =
      .ok (.directory [("*", .directory [("f.yml", .file ⟨#[0xff]⟩)])]) := rfl
  have hitself : twice.find ⟨"**/*"⟩ = .ok (.directory [("f.yml", .file ⟨#[0xff]⟩)]) := rfl
  rw [scanContent, Glob.scan, hpattern]
  simp only [habsolute, hpieces, Bool.false_eq_true, if_false, bind, Except.bind, hcomponents,
    find_twice, List.flatMap_cons, List.flatMap_nil, List.append_nil,
    Glob.find_chain_extension extension habove, Glob.find_chain_extension extension hitself]
  rfl

/-- The file is yielded twice, and so there are two errors about it. -/
theorem file_is_recorded_twice :
    twice.root.Proper ∧ twice.isDirectory ⟨"**/*"⟩ = true ∧ ∃ short long added,
      scanContent twice ⟨"**/*"⟩ "yml" = .ok short ∧
      scanContent twice ⟨"**/*"⟩ "yaml" = .ok long ∧
      addDirectory twice {} ⟨"**/*"⟩ = .ok added ∧
      ¬ ∃ files : List Path, files.Nodup ∧
        (∀ path, path ∈ files ↔ path ∈ (short ++ long).filter twice.isFile) ∧
        added.errors = files.flatMap (failuresAt twice) := by
  have hproper : twice.root.Proper :=
    .directory (by decide) (by decide) <| List.forall_mem_singleton.2 <|
      .directory (by decide) (by decide) <| List.forall_mem_singleton.2 <|
        .directory (by decide) (by decide) <| List.forall_mem_singleton.2 (.leaf rfl)
  have hshort : scanContent twice ⟨"**/*"⟩ "yml" = .ok [⟨"**/*/f.yml"⟩, ⟨"**/*/f.yml"⟩] := by
    rw [scanContent_twice (by decide) (by decide)]
    decide
  have hlong : scanContent twice ⟨"**/*"⟩ "yaml" = .ok [] := by
    rw [scanContent_twice (by decide) (by decide)]
    decide
  have hfailure : failuresAt twice ⟨"**/*/f.yml"⟩ = [.file ⟨"**/*/f.yml"⟩ .notText] := by
    have hread : twice.readText ⟨"**/*/f.yml"⟩ = .error .notText := by decide
    rw [failuresAt, Catalogue.documentsAt_eq, hread]
  have hfiles : [(⟨"**/*/f.yml"⟩ : Path), ⟨"**/*/f.yml"⟩].filter twice.isFile =
      [⟨"**/*/f.yml"⟩, ⟨"**/*/f.yml"⟩] := by decide
  have hsort : Path.sort [⟨"**/*/f.yml"⟩, ⟨"**/*/f.yml"⟩] = [⟨"**/*/f.yml"⟩, ⟨"**/*/f.yml"⟩] :=
    List.perm_replicate (n := 2).1 (List.mergeSort_perm _ _)
  have hadded : addDirectory twice {} ⟨"**/*"⟩ =
      .ok (addYielded twice {} ([⟨"**/*/f.yml"⟩, ⟨"**/*/f.yml"⟩] ++ [])) := by
    rw [addDirectory, if_pos (by decide), hshort, hlong]
    rfl
  refine ⟨hproper, by decide, _, _, _, hshort, hlong, hadded, ?_⟩
  rintro ⟨files, hnodup, hmem, herrors⟩
  rw [List.append_nil, hfiles] at hmem
  -- without repetition there is only one file
  obtain rfl : files = [⟨"**/*/f.yml"⟩] := by
    refine List.perm_singleton.1 ((List.perm_ext_iff_of_nodup hnodup (by simp)).2 fun path => ?_)
    simp [hmem]
  rw [addYielded, List.append_nil, hfiles, hsort, Catalogue.foldl_addFile] at herrors
  simp [hfailure] at herrors

end CatalogueM

end Station
