import Station.Proofs.PathOrder
import Station.Proofs.References
import Station.Proofs.ReportOrder

/-!
# The names of files

Files are read in the order of their paths, so another name may put the documents of a file before
or behind those of another file. A server takes the last document of an id, and a catalogue answers
with the first one or with all of them. If no id is defined twice, there is only one document to
take (`filterMap_answers_of_perm`), so the order does not matter (`Server.ofCatalogue_eq_of_perm`)
and all of them agree (`Catalogue.agrees_ofCatalogue`).

`Catalogue.sources` lists the files that are read for a directory. What they hold depends on their
texts and not on their paths (`Catalogue.documents_loadedAt`), so two directories whose files have
the same texts under whatever names make the same server.
-/

namespace Station

/-! ## Documents without their file -/

/-- The documents of a text; one that fails has none. -/
def documentsOfText (text : String) : List Prototype :=
  (((Yaml.parse text).toOption.bind documentsOf?).bind
    fun documents => documents.mapM Prototype.ofDocument?).getD []

/-- The documents of what was read from a file; one without a text has none. -/
def documentsOfRead (read : Except FileError String) : List Prototype :=
  read.toOption.elim [] documentsOfText

theorem documentsOfRead_ok (text : String) : documentsOfRead (.ok text) = documentsOfText text := by
  simp only [documentsOfRead, Except.toOption, Option.elim_some]

/-- Reading documents does not look at where they come from. -/
theorem readDocuments_prototypes (path : Path) (index : Nat) (documents : List Yaml.Value) :
    (readDocuments path index documents).toOption.map
        (fun loaded => loaded.map LoadedPrototype.prototype) =
      documents.mapM Prototype.ofDocument? := by
  induction documents generalizing index with
  | nil => rfl
  | cons document rest ih =>
    rw [readDocuments, List.mapM_cons]
    cases Prototype.ofDocument? document with
    | none => rfl
    | some prototype =>
      simp only [Option.bind_eq_bind, Option.bind_some, ← ih (index + 1)]
      cases readDocuments path (index + 1) rest <;> rfl

namespace Catalogue

variable {tree : FileTree} {directory : Path} {files : List Path}

theorem documents_loadedFrom (file : String × Path) :
    (loadedFrom file).map LoadedPrototype.prototype = documentsOfText file.1 := by
  rw [loadedFrom, documentsOfText]
  simp only [documentsIn]
  cases Yaml.parse file.1 with
  | error problem => rfl
  | ok root =>
    simp only [Except.toOption, Option.bind_some]
    cases documentsOf? root with
    | none => rfl
    | some documents =>
      simp only [Option.bind_some, ← readDocuments_prototypes file.2 0 documents]
      cases readDocuments file.2 0 documents <;> rfl

/-- The documents of a file are those of its text. -/
theorem documents_loadedAt (tree : FileTree) (path : Path) :
    (loadedAt tree path).map LoadedPrototype.prototype = documentsOfRead (tree.readText path) := by
  rw [loadedAt, documentsAt_eq]
  cases tree.readText path with
  | error error => rfl
  | ok text => exact documents_loadedFrom (text, path)

/-- The documents of many files are those of their texts. -/
theorem documents_foldl_addFile (tree : FileTree) (files : List Path) :
    (files.foldl (addFile tree) {}).documents =
      (files.map tree.readText).flatMap documentsOfRead := by
  rw [foldl_addFile, documents, List.nil_append, List.map_flatMap, List.flatMap_map]
  exact List.flatMap_congr fun path _ => documents_loadedAt tree path

/-- The files that are read for a directory, in order. One that does not exist has none. -/
def sources (tree : FileTree) (directory : Path) : Except ContentError (List Path) := do
  if tree.contains directory then
    let short ← scanContent tree directory "yml"
    let long ← scanContent tree directory "yaml"
    return Path.sort ((short ++ long).filter tree.isFile)
  else return []

/-- The documents of a directory are those of its files. -/
theorem exists_addDirectory_of_sources (h : sources tree directory = .ok files) :
    ∃ c, ({} : Catalogue).addDirectory tree directory = .ok c ∧
      c.documents = (files.map tree.readText).flatMap documentsOfRead := by
  rw [sources] at h
  by_cases hexists : tree.contains directory = true
  · rw [if_pos hexists] at h
    refine ⟨files.foldl (addFile tree) {}, ?_, documents_foldl_addFile tree files⟩
    rw [addDirectory, if_pos hexists]
    cases hshort : scanContent tree directory "yml" with
    | error error =>
      rw [hshort] at h
      cases h
    | ok short =>
      cases hlong : scanContent tree directory "yaml" with
      | error error =>
        rw [hshort, hlong] at h
        cases h
      | ok long =>
        rw [hshort, hlong] at h
        cases h
        rfl
  · rw [if_neg hexists] at h
    cases h
    refine ⟨_, by rw [addDirectory, if_neg hexists]; rfl, rfl⟩

end Catalogue

/-! ## One document for each id -/

/-- A report has no finding about ids that several documents define exactly if there is no such
id. -/
theorem Report.ids_nodup_iff (c : Catalogue) (locale : LocaleIndex) :
    (∀ issue ∈ (of c locale).issues, issue.kind ≠ .duplicateId) ↔
      (c.documents.filterMap Prototype.id?).Nodup := by
  have hids : c.documents.filterMap Prototype.id? =
      c.prototypes.filterMap fun loaded => loaded.prototype.id? := by
    rw [Catalogue.documents, List.filterMap_map]
    rfl
  rw [hids, List.nodup_iff_count_le_one]
  constructor
  · intro hnone id
    rw [← Census.length_filesDefining]
    by_contra hcount
    have hseveral : 2 ≤ (Census.filesDefining c.prototypes id).length := by omega
    exact hnone _ (mem_issues_iff.2 (.duplicateId hseveral)) rfl
  · intro hcount issue hissue hkind
    cases mem_issues_iff.1 hissue with
    | @duplicateId id several =>
      have hone := hcount id
      rw [← Census.length_filesDefining] at hone
      omega
    | unknownReference | duplicateLocale | missingLocale => cases hkind

section Answers

variable {β : Type} {id : PrototypeId} {answer : Prototype → Option β}
  {documents others : List Prototype}

/-- If no id is defined twice, at most one document answers under an id. -/
theorem length_filterMap_answers (hanswer : ∀ p b, answer p = some b → p.id? = some id)
    (hnodup : (documents.filterMap Prototype.id?).Nodup) :
    (documents.filterMap answer).length ≤ 1 := by
  have hcount : documents.countP (fun p => (answer p).isSome) ≤
      documents.countP fun p => p.id? == some id := by
    apply List.countP_mono_left
    intro p _ hp
    obtain ⟨b, hb⟩ := Option.isSome_iff_exists.1 hp
    exact beq_iff_eq.2 (hanswer p b hb)
  rw [List.length_filterMap_eq_countP]
  refine hcount.trans ?_
  rw [← List.count_filterMap]
  exact List.nodup_iff_count_le_one.1 hnodup id

/-- A list with one item at most ends where it begins. -/
theorem getLast?_eq_head? {l : List β} (h : l.length ≤ 1) : l.getLast? = l.head? := by
  match l, h with
  | [], _ => rfl
  | [b], _ => rfl

theorem toList_getLast? {l : List β} (h : l.length ≤ 1) : l.getLast?.toList = l := by
  match l, h with
  | [], _ => rfl
  | [b], _ => rfl

/-- So it answers in whatever order the documents come. -/
theorem filterMap_answers_of_perm (hanswer : ∀ p b, answer p = some b → p.id? = some id)
    (hnodup : (documents.filterMap Prototype.id?).Nodup) (hperm : documents.Perm others) :
    others.filterMap answer = documents.filterMap answer := by
  have hsingle := length_filterMap_answers hanswer hnodup
  have hanswers := (hperm.filterMap answer).symm
  match documents.filterMap answer, hsingle, hanswers with
  | [], _, hanswers => exact hanswers.eq_nil
  | [b], _, hanswers => exact List.perm_singleton.1 hanswers

end Answers

namespace Prototype

theorem id?_of_felinidUnder? (id : PrototypeId) (p : Prototype) (o : FelinidOverrides)
    (h : p.felinidUnder? id = some o) : p.id? = some id := by
  obtain ⟨entity, -, -, rfl, rfl, -⟩ := felinidUnder?_eq_some_iff.1 h
  rfl

theorem id?_of_jobsUnder? (id : PrototypeId) (p : Prototype) (jobs : List JobId)
    (h : p.jobsUnder? id = some jobs) : p.id? = some id := by
  cases p with
  | mindFilter filter =>
    rw [jobsUnder?] at h
    split at h
    · rename_i hid
      exact congrArg some hid
    · cases h
  | job | soundCollection | entity | other => cases h

theorem id?_of_filesUnder? (id : SoundCollectionId) (p : Prototype) (files : List String)
    (h : p.filesUnder? id = some files) : p.id? = some id := by
  cases p with
  | soundCollection sounds =>
    rw [filesUnder?] at h
    split at h
    · rename_i hid
      exact congrArg some hid
    · cases h
  | job | mindFilter | entity | other => cases h

end Prototype

/-! ## The server and its catalogue -/

namespace Catalogue

theorem declared_eq (c : Catalogue) (id : PrototypeId) :
    c.declared id = (c.documents.filterMap (Prototype.felinidUnder? id)).map
      FelinidOverrides.component := by
  rw [declared, entities, documents, List.filterMap_filterMap, List.filterMap_map,
    List.map_filterMap]
  refine List.filterMap_congr fun loaded _ => ?_
  obtain ⟨p, path⟩ := loaded
  cases p with
  | entity entity =>
    show (if entity.id = id then entity.component? else none) =
      (if entity.id = id then entity.felinid? else none).map FelinidOverrides.component
    split <;> rfl
  | job | soundCollection | mindFilter | other => rfl

theorem filter_mindFilters_eq (c : Catalogue) (id : PrototypeId) :
    (c.mindFilters.filter fun p => p.id = id).map MindFilterPrototype.filter =
      (c.documents.filterMap (Prototype.jobsUnder? id)).map MindFilter.mk := by
  rw [mindFilters, documents, List.filter_filterMap, List.map_filterMap, List.filterMap_map,
    List.map_filterMap]
  refine List.filterMap_congr fun loaded _ => ?_
  obtain ⟨p, path⟩ := loaded
  cases p with
  | mindFilter filter =>
    show ((some filter).filter fun p => p.id = id).map MindFilterPrototype.filter =
      (if filter.id = id then some filter.blacklist else none).map MindFilter.mk
    by_cases hid : filter.id = id
    · simp [hid, MindFilterPrototype.filter]
    · simp [hid]
  | job | soundCollection | entity | other => rfl

theorem filter_soundCollections_eq (c : Catalogue) (id : SoundCollectionId) :
    (c.soundCollections.filter fun p => p.id = id).map SoundCollectionPrototype.files =
      c.documents.filterMap (Prototype.filesUnder? id) := by
  rw [soundCollections, documents, List.filter_filterMap, List.map_filterMap, List.filterMap_map]
  refine List.filterMap_congr fun loaded _ => ?_
  obtain ⟨p, path⟩ := loaded
  cases p with
  | soundCollection sounds =>
    show ((some sounds).filter fun p => p.id = id).map SoundCollectionPrototype.files =
      if sounds.id = id then some sounds.files else none
    by_cases hid : sounds.id = id
    · simp [hid]
    · simp [hid]
  | job | mindFilter | entity | other => rfl

/-- A server and a catalogue agree on what an id stands for: an entity, a mind filter or a sound
collection. -/
structure Agrees (c : Catalogue) (s : Server) (id : PrototypeId) : Prop where
  template : s.templates.get? id = c.felinidFor id
  filter : (s.filters.get? id).toList =
    (c.mindFilters.filter fun p => p.id = id).map MindFilterPrototype.filter
  files : ((s.sounds.collections.get? id).map SoundCollection.files).toList =
    (c.soundCollections.filter fun p => p.id = id).map SoundCollectionPrototype.files

/-- If no id is defined twice, the server takes what the catalogue answers with. -/
theorem agrees_ofCatalogue {c : Catalogue} (config : ServerConfig)
    (hnodup : (c.documents.filterMap Prototype.id?).Nodup) (id : PrototypeId) :
    c.Agrees (Server.ofCatalogue config c) id where
  template := by
    have hsingle := length_filterMap_answers (Prototype.id?_of_felinidUnder? id) hnodup
    show (Server.templatesOf c).get? id = _
    rw [felinidFor_eq, declared_eq, Server.get?_templatesOf_last, List.head?_map,
      getLast?_eq_head? hsingle]
  filter := by
    have hsingle := length_filterMap_answers (Prototype.id?_of_jobsUnder? id) hnodup
    show ((Server.filtersOf c).get? id).toList = _
    rw [filter_mindFilters_eq, Server.get?_filtersOf_last, Option.toList_map,
      toList_getLast? hsingle]
  files := by
    have hsingle := length_filterMap_answers (Prototype.id?_of_filesUnder? id) hnodup
    show (((Server.soundsOf c).collections.get? id).map SoundCollection.files).toList = _
    rw [filter_soundCollections_eq, Server.get?_soundsOf_last, Option.map_map]
    exact (congrArg Option.toList Option.map_id').trans (toList_getLast? hsingle)

end Catalogue

/-- If no id is defined twice, the server of some documents does not depend on their order. -/
theorem Server.ofCatalogue_eq_of_perm {c d : Catalogue} (config : ServerConfig)
    (hnodup : (c.documents.filterMap Prototype.id?).Nodup) (hperm : c.documents.Perm d.documents) :
    ofCatalogue config d = ofCatalogue config c := by
  have htemplates : templatesOf d = templatesOf c := by
    apply Table.ext_get?
    intro id
    rw [get?_templatesOf_last, get?_templatesOf_last,
      filterMap_answers_of_perm (Prototype.id?_of_felinidUnder? id) hnodup hperm]
  have hfilters : filtersOf d = filtersOf c := by
    apply Table.ext_get?
    intro id
    rw [get?_filtersOf_last, get?_filtersOf_last,
      filterMap_answers_of_perm (Prototype.id?_of_jobsUnder? id) hnodup hperm]
  have hcollections : (soundsOf d).collections = (soundsOf c).collections := by
    apply Table.ext_get?
    intro id
    rw [get?_soundsOf_last, get?_soundsOf_last,
      filterMap_answers_of_perm (Prototype.id?_of_filesUnder? id) hnodup hperm]
  have hsounds : soundsOf d = soundsOf c := congrArg SoundRegistry.mk hcollections
  rw [ofCatalogue, ofCatalogue, htemplates, hfilters, hsounds]

namespace Server

/-- As long as a report has no finding about ids that several documents define, the order of files
means nothing to the server. Another directory whose files have the same texts, under names that
put them in whatever order, makes the same server, and so do the files of one directory in whatever
order they are read. What the server takes for an id is what either catalogue answers with. -/
theorem names_of_files_mean_nothing {tree other : FileTree} {config : ServerConfig}
    {files renamed : List Path} (hfiles : Catalogue.sources tree config.prototypesDir = .ok files)
    (hrenamed : Catalogue.sources other config.prototypesDir = .ok renamed)
    (htexts : (files.map tree.readText).Perm (renamed.map other.readText)) :
    ∃ c d s t, ({} : Catalogue).addDirectory tree config.prototypesDir = .ok c ∧
      ({} : Catalogue).addDirectory other config.prototypesDir = .ok d ∧
      bootstrap tree config = .ok s ∧ bootstrap other config = .ok t ∧
      ∀ locale, (∀ issue ∈ (Report.of c locale).issues, issue.kind ≠ .duplicateId) →
        t = s ∧
        (∀ reordered, files.Perm reordered →
          ofCatalogue config (reordered.foldl (Catalogue.addFile tree) {}) = s) ∧
        ∀ id, c.Agrees s id ∧ d.Agrees s id := by
  obtain ⟨c, hadded, hdocuments⟩ := Catalogue.exists_addDirectory_of_sources hfiles
  obtain ⟨d, hother, hothers⟩ := Catalogue.exists_addDirectory_of_sources hrenamed
  have hboot : bootstrap tree config = .ok (ofCatalogue config c) := by rw [bootstrap, hadded]
  have hreboot : bootstrap other config = .ok (ofCatalogue config d) := by rw [bootstrap, hother]
  refine ⟨c, d, _, _, hadded, hother, hboot, hreboot, fun locale hnone => ?_⟩
  have hnodup := (Report.ids_nodup_iff c locale).1 hnone
  have hperm : c.documents.Perm d.documents := by
    rw [hdocuments, hothers]
    exact htexts.flatMap_right documentsOfRead
  have hsame := ofCatalogue_eq_of_perm config hnodup hperm
  refine ⟨hsame, fun reordered hreordered => ?_, fun id => ⟨?_, ?_⟩⟩
  · apply ofCatalogue_eq_of_perm config hnodup
    rw [hdocuments, Catalogue.documents_foldl_addFile]
    exact (hreordered.map tree.readText).flatMap_right documentsOfRead
  · exact Catalogue.agrees_ofCatalogue config hnodup id
  · rw [← hsame]
    apply Catalogue.agrees_ofCatalogue
    exact (hperm.filterMap Prototype.id?).nodup_iff.1 hnodup

/-! ## Two files that change their names -/

/-- A directory with files of two texts. -/
def pair (first second : String) : FileTree where
  root := .directory [("p", .directory [("a.yml", .file first.toUTF8),
    ("b.yml", .file second.toUTF8)])]

theorem sources_pair (first second : String) :
    Catalogue.sources (pair first second) ⟨"p"⟩ = .ok [⟨"p/a.yml"⟩, ⟨"p/b.yml"⟩] := by
  have hverbatim : (⟨"p"⟩ : Path).Verbatim := ⟨by decide, by decide⟩
  have hlocate : (pair first second).locate ⟨"p"⟩ = .ok ["p"] := rfl
  have hscan (extension : String) := Glob.scanContent_eq extension hverbatim hlocate rfl
  have hname (extension : String) :
      Glob.withExtension extension [("a.yml", .file first.toUTF8), ("b.yml", .file second.toUTF8)] =
        (if Glob.HasExtension extension ["a.yml"] then [(["a.yml"], .file first.toUTF8)] else []) ++
          if Glob.HasExtension extension ["b.yml"] then [(["b.yml"], .file second.toUTF8)]
          else [] := by
    simp only [Glob.withExtension, FileNode.reachableIn, FileNode.reachable, List.map_cons,
      List.map_nil, List.append_nil, List.cons_append, List.nil_append, List.filter_cons,
      List.filter_nil, decide_eq_true_eq]
    split <;> rfl
  have hshort : scanContent (pair first second) ⟨"p"⟩ "yml" =
      .ok [⟨"p/a.yml"⟩, ⟨"p/b.yml"⟩] := by
    rw [(hscan "yml" (by decide) (by decide)).2, hname, if_pos (by decide), if_pos (by decide)]
    rfl
  have hlong : scanContent (pair first second) ⟨"p"⟩ "yaml" = .ok [] := by
    rw [(hscan "yaml" (by decide) (by decide)).2, hname, if_neg (by decide), if_neg (by decide)]
    rfl
  have hsort : Path.sort [⟨"p/a.yml"⟩, ⟨"p/b.yml"⟩] = [⟨"p/a.yml"⟩, ⟨"p/b.yml"⟩] := by
    apply Path.sort_eq_of_perm (List.Perm.refl _)
    simp [Path.Ascending]
    decide
  have hexists : (pair first second).contains ⟨"p"⟩ = true := rfl
  rw [Catalogue.sources, if_pos hexists, hshort, hlong]
  exact congrArg Except.ok hsort

/-- A text with a job. -/
def jobText : String := "- 'type': 'job'\n  'id': 'A'"

theorem readText_pair (first second : String) :
    [⟨"p/a.yml"⟩, ⟨"p/b.yml"⟩].map (pair first second).readText = [.ok first, .ok second] := by
  have hfirst : (pair first second).readText ⟨"p/a.yml"⟩ = .ok first :=
    FileTree.readText_of_find (FileTree.find_of_locate rfl rfl)
  have hsecond : (pair first second).readText ⟨"p/b.yml"⟩ = .ok second :=
    FileTree.readText_of_find (FileTree.find_of_locate rfl rfl)
  rw [List.map_cons, List.map_cons, List.map_nil, hfirst, hsecond]

theorem documentsOfText_loner : documentsOfText (twinItem "E") = [.entity (twin "E")] := by
  have hdocuments := Catalogue.documents_loadedFrom (twinItem "E", ⟨"a.yml"⟩)
  rw [CatalogueM.loadedFrom_loner] at hdocuments
  exact hdocuments.symm

theorem documentsOfText_jobText : documentsOfText jobText = [.job ⟨"A", none⟩] := by
  have htext : (pair jobText jobText).readText ⟨"p/a.yml"⟩ = .ok jobText :=
    FileTree.readText_of_find (FileTree.find_of_locate rfl rfl)
  have hdocuments := Catalogue.documents_loadedAt (pair jobText jobText) ⟨"p/a.yml"⟩
  rw [Catalogue.loadedAt, documentsAt_job htext, htext, documentsOfRead_ok] at hdocuments
  rw [← hdocuments]
  rfl

/-- The entity and the job are in files that swap their names. -/
theorem names_of_files_mean_nothing_swapped :
    let tree := pair (twinItem "E") jobText
    let other := pair jobText (twinItem "E")
    let config : ServerConfig := { prototypesDir := ⟨"p"⟩ }
    Catalogue.sources tree ⟨"p"⟩ = .ok [⟨"p/a.yml"⟩, ⟨"p/b.yml"⟩] ∧
      Catalogue.sources other ⟨"p"⟩ = .ok [⟨"p/a.yml"⟩, ⟨"p/b.yml"⟩] ∧
      ([⟨"p/a.yml"⟩, ⟨"p/b.yml"⟩].map tree.readText).Perm
        ([⟨"p/a.yml"⟩, ⟨"p/b.yml"⟩].map other.readText) ∧
      ∃ c s, ({} : Catalogue).addDirectory tree ⟨"p"⟩ = .ok c ∧
        (∀ issue ∈ (Report.of c {}).issues, issue.kind ≠ .duplicateId) ∧
        bootstrap tree config = .ok s ∧ bootstrap other config = .ok s ∧
        s.templates.get? "E" = some { hairballPrototype := "E" } := by
  intro tree other config
  have hsources := sources_pair (twinItem "E") jobText
  have hsources' := sources_pair jobText (twinItem "E")
  have htexts : ([⟨"p/a.yml"⟩, ⟨"p/b.yml"⟩].map tree.readText).Perm
      ([⟨"p/a.yml"⟩, ⟨"p/b.yml"⟩].map other.readText) := by
    rw [readText_pair, readText_pair]
    exact List.Perm.swap ..
  obtain ⟨c, d, s, t, hadded, -, hboot, hreboot, hnames⟩ :=
    @names_of_files_mean_nothing tree other config _ _ hsources hsources' htexts
  have hdocuments : c.documents = [.entity (twin "E"), .job ⟨"A", none⟩] := by
    obtain ⟨e, hadded', hdocuments⟩ := Catalogue.exists_addDirectory_of_sources hsources
    obtain rfl : e = c := Except.ok.inj (hadded'.symm.trans hadded)
    rw [hdocuments, readText_pair]
    simp [documentsOfRead_ok, documentsOfText_loner, documentsOfText_jobText]
  have hnone : ∀ issue ∈ (Report.of c {}).issues, issue.kind ≠ .duplicateId := by
    rw [Report.ids_nodup_iff, hdocuments]
    decide
  obtain ⟨hsame, -, hagrees⟩ := hnames {} hnone
  refine ⟨hsources, hsources', htexts, c, s, hadded, hnone, hboot, hsame ▸ hreboot, ?_⟩
  rw [(hagrees "E").1.template, Catalogue.felinidFor_eq, Catalogue.declared_eq, hdocuments]
  decide

end Server

end Station
